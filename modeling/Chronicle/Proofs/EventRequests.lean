import Chronicle.Proofs.Reopening

set_option autoImplicit false

/-!
# Requests to an event registry

The requests that every event registry serves, as data. Main statement: an archive serves each
of them as its memory does, or fails and leaves the memory as it was; if it was in step with its
files, it is so again (`ask_follows`).
-/

namespace Chronicle

/-- What can be asked of an event registry. -/
inductive EventRequest
  | store (e : Envelope)
  | markDispatched (id : UniqueId)
  | replace (id : UniqueId) (replacement : Option Envelope)
  | deleteAll
  | query (q : EventQuery) (order : TimeOrder) (limit : Option Nat)
  | latestSnapshot (q : EventQuery)
  | count (q : Option EventQuery)

/-- What an event registry answers. -/
inductive EventAnswer
  | id (id : UniqueId)
  | verdict (value : Bool)
  | number (n : Nat)
  | records (rs : List StoredEnvelope)
  | snapshot (r : Option StoredEnvelope)
  /-- The registry was closed and opened anew. -/
  | reopened

namespace EventRequest

/-- Hands a request to a registry. -/
def ask {σ : Type} (registry : EventRegistry σ) : EventRequest → Call σ EventAnswer
  | store e => .id <$> registry.store e
  | markDispatched id => .verdict <$> registry.markDispatched id
  | replace id replacement => .verdict <$> registry.replace id replacement
  | deleteAll => .number <$> registry.deleteAll
  | query q order limit => .records <$> registry.query q order limit
  | latestSnapshot q => .snapshot <$> registry.latestSnapshot q
  | count q => .number <$> registry.count q

/-- A store is handed an id under which nothing stands. -/
def Fresh (m : MemoryEvents) : EventRequest → Prop
  | store _ => m.ledger.locate m.ids.next = none
  | _ => True

end EventRequest

namespace MemoryEvents

/-- The registry in memory never fails. -/
theorem ask_isOk (request : EventRequest) (m : MemoryEvents) :
    (request.ask registry m).1.isOk = true := by
  cases request <;> rfl

end MemoryEvents

namespace EventArchive

variable {s : EventArchive} {α β : Type}

theorem Follows.map {call : Call MemoryEvents α} {served : Call EventArchive α}
    (h : Follows s call (served s).1 (served s).2) (f : α → β) :
    Follows s (f <$> call) ((f <$> served) s).1 ((f <$> served) s).2 := by
  have hmap : ((served s).1, (served s).2.memory) = call s.memory →
      ((served s).1.map f, (served s).2.memory) = (f <$> call) s.memory := by
    intro hr
    rw [Fallible.map_apply, ← hr]
  rw [Fallible.map_apply f served]
  refine ⟨h.consistent, h.synced, h.layout, h.sealedNames, h.readModels, ?_, ?_⟩
  · rcases h.effect with heffect | ⟨⟨e, he⟩, hmemory⟩
    · exact Or.inl (hmap heffect)
    · exact Or.inr ⟨⟨e, by rw [he]; rfl⟩, hmemory⟩
  · exact fun hs => hmap (h.unsealed hs)

/-- Each request is served as the memory serves it, or fails and leaves the memory as it was. -/
theorem ask_follows (h : Consistent s) (request : EventRequest) (fresh : request.Fresh s.memory) :
    Follows s (request.ask MemoryEvents.registry) (request.ask registry s).1
      (request.ask registry s).2 := by
  cases request with
  | store e => exact (store_follows h fresh e).map EventAnswer.id
  | markDispatched id => exact (markDispatched_follows h id).map EventAnswer.verdict
  | replace id replacement => exact (replace_follows h id replacement).map EventAnswer.verdict
  | deleteAll => exact (deleteAll_follows h).map EventAnswer.number
  | query q order limit =>
      exact (follows_read h (MemoryEvents.registry.query q order limit) rfl).map EventAnswer.records
  | latestSnapshot q =>
      exact (follows_read h (MemoryEvents.registry.latestSnapshot q) rfl).map EventAnswer.snapshot
  | count q =>
      exact (follows_read h (MemoryEvents.registry.count q) rfl).map EventAnswer.number

end EventArchive

end Chronicle
