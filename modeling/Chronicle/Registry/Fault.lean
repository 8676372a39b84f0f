import Chronicle.Registry.Basic

set_option autoImplicit false

/-!
# Faulty registries

A registry that misbehaves on purpose, to see what its users make of it. The calls of each method
are counted from 0; the first fault that names the method and the number of the call decides what
happens in the place of the call.
-/

namespace Chronicle

/-- The operations of registries that faults can name. -/
inductive Method
  | store
  | query
  | latestSnapshot
  | markDispatched
  | replace
  | deleteById
  | deleteAll
  | count
  | isUp
  | details
deriving DecidableEq

namespace Method

/-- The word by which failures call a method. -/
def word : Method → String
  | store => "store"
  | query => "query"
  | latestSnapshot => "query_latest_snapshot"
  | markDispatched => "store_dispatched"
  | replace => "replace_or_delete_item"
  | deleteById => "delete_by_id"
  | deleteAll => "delete_all"
  | count => "count"
  | isUp => "is_up"
  | details => "details"

/-- All methods. -/
def all : List Method :=
  [store, query, latestSnapshot, markDispatched, replace, deleteById, deleteAll, count, isUp,
    details]

/-- The method of a word. -/
def ofWord? (word : String) : Option Method := all.find? fun m => m.word == word

/-- The failure of a method. -/
def failure (m : Method) : RegistryError := .storeFailure m.word

end Method

/-- What happens in the place of a call. -/
inductive Misbehaviour
  /-- The call fails as a whole. -/
  | fails
  /-- Nothing is found. -/
  | findsNothing
  /-- Tombstones are found like live envelopes. -/
  | findsDeleted
  /-- The call answers the flag and does nothing. -/
  | answers (flag : Bool)
  /-- The call answers the number and does nothing. -/
  | reports (n : Nat)
  /-- The call reports a conflict. -/
  | conflicts
  /-- The call reports success and stores nothing. -/
  | pretends

/-- A fault: which calls of a method it replaces, and by what. -/
structure Fault where
  method : Method
  /-- The numbers of the calls; none for every call. -/
  at? : Option (List Nat)
  effect : Misbehaviour

/-- A backend's state, and the methods called so far. -/
abbrev Watched (σ : Type) : Type := σ × List Method

namespace Fault

variable {σ α : Type}

/-- Whether the fault replaces a call of the method with the given number. -/
def hits (f : Fault) (m : Method) (n : Nat) : Bool :=
  f.method == m && f.at?.all fun ns => ns.contains n

/-- What the faults do in the place of the next call of a method. -/
def decide? (faults : List Fault) (m : Method) (calls : List Method) : Option Misbehaviour :=
  (faults.find? fun f => f.hits m (calls.count m)).map Fault.effect

/--
A watched call: it is counted, and replaced if a fault hits it and has a meaning for the method.
-/
def watch (faults : List Fault) (m : Method) (replaced : Misbehaviour → Option (Call σ α))
    (call : Call σ α) : Call (Watched σ) α := fun s =>
  let actual := ((decide? faults m s.2).bind replaced).getD call
  (Fallible.onFirst actual) (s.1, m :: s.2)

/-- The meaning of a fault that fails the call. -/
def failing (m : Method) : Misbehaviour → Option (Call σ α)
  | .fails => some (.fail m.failure)
  | _ => none

/-- A meaning for faults that do not fail the call. -/
def orFailing (m : Method) (other : Misbehaviour → Option (Call σ α)) :
    Misbehaviour → Option (Call σ α)
  | .fails => some (.fail m.failure)
  | effect => other effect

/-- The meaning of faults for calls that answer a flag. -/
def flagged (m : Method) : Misbehaviour → Option (Call σ Bool) :=
  orFailing m fun
    | .answers flag => some (.done flag)
    | _ => none

/-- The meaning of faults for calls that answer a number. -/
def counted (m : Method) : Misbehaviour → Option (Call σ Nat) :=
  orFailing m fun
    | .reports n => some (.done n)
    | _ => none

end Fault

open Fault in
/-- The event registry with faults. -/
def EventRegistry.withFaults {σ : Type} (r : EventRegistry σ) (faults : List Fault) :
    EventRegistry (Watched σ) where
  store e := watch faults .store (failing .store) (r.store e)
  query q order limit :=
    watch faults .query
      (orFailing .query fun
        | .findsDeleted => some (r.query { q with deleted := none } order limit)
        | _ => some (.done []))
      (r.query q order limit)
  latestSnapshot q :=
    watch faults .latestSnapshot (orFailing .latestSnapshot fun _ => some (.done none))
      (r.latestSnapshot q)
  markDispatched id :=
    watch faults .markDispatched (flagged .markDispatched) (r.markDispatched id)
  replace id replacement :=
    watch faults .replace (flagged .replace) (r.replace id replacement)
  deleteAll := watch faults .deleteAll (counted .deleteAll) r.deleteAll
  count q := watch faults .count (counted .count) (r.count q)
  isUp := watch faults .isUp (fun _ => some (.done false)) r.isUp
  details := watch faults .details (failing .details) r.details
  urls s := r.urls s.1

open Fault in
/-- The read model registry with faults. -/
def ReadModelRegistry.withFaults {σ : Type} (r : ReadModelRegistry σ) (faults : List Fault) :
    ReadModelRegistry (Watched σ) where
  store m expected :=
    watch faults .store
      (orFailing .store fun
        | .conflicts => some (.fail (.conflict m.typeName m.id expected none))
        | .pretends => some (.done (.ofReadModel m))
        | _ => none)
      (r.store m expected)
  query q := watch faults .query (orFailing .query fun _ => some (.done [])) (r.query q)
  deleteById id typeName :=
    watch faults .deleteById (counted .deleteById) (r.deleteById id typeName)
  deleteAll := watch faults .deleteAll (counted .deleteAll) r.deleteAll
  count q := watch faults .count (counted .count) (r.count q)
  isUp := watch faults .isUp (fun _ => some (.done false)) r.isUp
  details := watch faults .details (failing .details) r.details
  urls s := r.urls s.1

end Chronicle
