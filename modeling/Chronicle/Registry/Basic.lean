import Chronicle.Event.Query
import Chronicle.Fallible
import Chronicle.ReadModel.Query
import Chronicle.Registry.Error

set_option autoImplicit false

/-!
# Registries

What every backend offers, as operations on the states `σ` of the backend.
-/

namespace Chronicle

/-- A call of a registry. -/
abbrev Call (σ α : Type) : Type := Fallible RegistryError σ α

/-- A home of events and snapshots. -/
structure EventRegistry (σ : Type) where
  /-- Stores an envelope and answers its new id. -/
  store : Envelope → Call σ UniqueId
  /-- The matching envelopes in the asked order, at most as many as the limit. -/
  query : EventQuery → TimeOrder → Option Nat → Call σ (List StoredEnvelope)
  /-- The matching snapshot that captures the latest event. -/
  latestSnapshot : EventQuery → Call σ (Option StoredEnvelope)
  /-- Marks an id as dispatched; true only the first time. -/
  markDispatched : UniqueId → Call σ Bool
  /-- Overwrites what stands under an id, or removes it; false if nothing stands there. -/
  replace : UniqueId → Option Envelope → Call σ Bool
  /-- Removes everything and answers the number of envelopes removed. -/
  deleteAll : Call σ Nat
  /-- The number of matching envelopes; without a query, of events. -/
  count : Option EventQuery → Call σ Nat
  /-- Whether requests can be served. -/
  isUp : Call σ Bool
  /-- Details about the backend. -/
  details : Call σ Json
  /-- Where the data is kept. -/
  urls : σ → List String

/-- A home of versioned read models. -/
structure ReadModelRegistry (σ : Type) where
  /--
  Stores a read model. Version 0 is refused and version 1 always stored; a higher version must
  replace the expected one.
  -/
  store : ReadModel → Nat → Call σ StoredReadModel
  /-- The answer to a query. -/
  query : ReadModelQuery → Call σ (List ReadModel)
  /-- Removes a read model and answers how many were removed. -/
  deleteById : ReadModelId → ReadModelTypeName → Call σ Nat
  /-- Removes everything and answers how many were removed. -/
  deleteAll : Call σ Nat
  /-- The number of matching read models; without a query, of all. -/
  count : Option ReadModelQuery → Call σ Nat
  /-- Whether requests can be served. -/
  isUp : Call σ Bool
  /-- Details about the backend. -/
  details : Call σ Json
  /-- Where the data is kept. -/
  urls : σ → List String

end Chronicle
