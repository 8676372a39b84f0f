import Chronicle.Proofs.Ledger
import Chronicle.Proofs.Selection
import Chronicle.Registry.Memory

set_option autoImplicit false

/-!
# The history of a registry in memory

Whatever is loaded, stored, replaced, marked and removed, a registry in memory holds what was
written last under each id. Main statement: collections, indices and queries of every state that
it comes to agree with the map of those writes (`contents_and_queries_of_reached`).
-/

namespace Chronicle.MemoryEvents

open Ledger

/--
The states that a registry in memory comes to, each with the envelopes that were written last. A
store is handed an id under which nothing stands.
-/
inductive Reached : MemoryEvents → Contents → Prop
  | fromRecords (records : List StoredEnvelope) (dispatched : List UniqueId) (ids : IdSupply) :
      Reached ⟨.ofRecords records dispatched, ids⟩ (.ofRecords records)
  | restore {s : MemoryEvents} {c : Contents} (h : Reached s c) (records : List StoredEnvelope)
      (dispatched : List UniqueId) :
      Reached (MemoryEvents.restore records dispatched s).2 (.ofRecords records)
  | store {s : MemoryEvents} {c : Contents} (h : Reached s c) (e : Envelope)
      (fresh : c s.ids.next = none) :
      Reached (registry.store e s).2 (Function.update c s.ids.next (some e))
  | replace {s : MemoryEvents} {c : Contents} (h : Reached s c) (id : UniqueId)
      (replacement : Option Envelope) :
      Reached (registry.replace id replacement s).2 (c.replace id replacement)
  | mark {s : MemoryEvents} {c : Contents} (h : Reached s c) (id : UniqueId) :
      Reached (registry.markDispatched id s).2 c
  | unmark {s : MemoryEvents} {c : Contents} (h : Reached s c) (id : UniqueId) :
      Reached (MemoryEvents.unmark id s).2 c
  | deleteAll {s : MemoryEvents} {c : Contents} (h : Reached s c) :
      Reached (registry.deleteAll s).2 .empty

/-- Every state that the registry comes to represents the envelopes written last. -/
theorem represents_of_reached {s : MemoryEvents} {c : Contents} (h : Reached s c) :
    s.ledger.Represents c := by
  induction h with
  | fromRecords records dispatched ids => exact represents_ofRecords records dispatched
  | restore _ records dispatched _ => exact represents_ofRecords records dispatched
  | store _ e fresh ih => exact ih.insert fresh e
  | replace _ id replacement ih => exact ih.replace id replacement
  | mark _ id ih => exact ih.mark id
  | unmark _ id ih => exact ih.unmark id
  | deleteAll _ _ => exact represents_empty

/-- A query answers what a scan of all stored envelopes selects. -/
theorem query_eq_scan {s : MemoryEvents} {c : Contents} (h : s.ledger.Represents c)
    (q : EventQuery) (order : TimeOrder) (limit : Option Nat) :
    registry.query q order limit s = (.ok (q.select order limit s.ledger.allRecords), s) := by
  show (Except.ok (s.ledger.query q order limit), s) = _
  simp only [Ledger.query, EventQuery.select, h.filter_candidates]

/-- A query without a limit answers exactly what stands and matches, each once and in the asked
order. -/
theorem query_answer {s : MemoryEvents} {c : Contents} (h : s.ledger.Represents c)
    (q : EventQuery) (order : TimeOrder) :
    ∃ found, registry.query q order none s = (.ok found, s) ∧
      (found.map StoredEnvelope.id).Nodup ∧
      (found.Pairwise fun a b => StoredEnvelope.compare order a b = .lt) ∧
      ∀ r, r ∈ found ↔ c r.id = some r.envelope ∧ q.matchesEnvelope r.envelope = true := by
  have hperm : (q.select order none s.ledger.allRecords).Perm (q.filter s.ledger.allRecords) :=
    stableSort_perm _ _
  refine ⟨_, query_eq_scan h q order none, ?_, ?_, fun r => ?_⟩
  · exact (hperm.map _).nodup_iff.mpr (q.nodup_filter h.nodup_allRecords)
  · exact strict_stableSort (q.differ_filter order h.nodup_allRecords)
  · rw [hperm.mem_iff, EventQuery.filter, List.mem_filter, h.mem_allRecords]

/-- The latest snapshot is that among all stored envelopes. -/
theorem latestSnapshot_eq_scan {s : MemoryEvents} {c : Contents} (h : s.ledger.Represents c)
    (q : EventQuery) :
    registry.latestSnapshot q s = (.ok (q.latestSnapshot? s.ledger.allRecords), s) := by
  have hcandidates := h.filter_candidates { q with kind := .snapshot }
  show (Except.ok (s.ledger.latestSnapshot? q), s) = _
  rw [Ledger.latestSnapshot?, EventQuery.latestSnapshot?, EventQuery.latestSnapshot?,
    ← hcandidates]
  rfl

/-- The number of matching envelopes is that among all stored envelopes. -/
theorem count_eq_scan {s : MemoryEvents} {c : Contents} (h : s.ledger.Represents c)
    (q : Option EventQuery) :
    registry.count q s =
      (.ok ((q.getD .events).filter s.ledger.allRecords).length, s) := by
  show (Except.ok (s.ledger.count q), s) = _
  rw [Ledger.count, h.filter_candidates]

/--
In every state that a registry in memory comes to, an envelope stands under an id in the
collection of its kind exactly if it was written there last; an index pairs exactly the entities
of stored envelopes with their ids and keeps no entity without ids; and queries, through the
index or not, answer what a scan of all stored envelopes answers.
-/
theorem contents_and_queries_of_reached {s : MemoryEvents} {c : Contents} (h : Reached s c) :
    (∀ kind id e, OrderedMap.find? id (s.ledger.collection kind).items = some e ↔
      c id = some e ∧ e.kind = kind) ∧
    (∀ kind entity id, id ∈ Index.get entity (s.ledger.collection kind).byEntity ↔
      ∃ e, c id = some e ∧ e.kind = kind ∧ e.entity = entity) ∧
    (∀ kind, OrderedMap.Ascending (s.ledger.collection kind).byEntity ∧
      ∀ entry ∈ (s.ledger.collection kind).byEntity, entry.2 ≠ []) ∧
    (∀ r, r ∈ s.ledger.allRecords ↔ c r.id = some r.envelope) ∧
    (s.ledger.allRecords.map StoredEnvelope.id).Nodup ∧
    (∀ q order limit, registry.query q order limit s =
      (.ok (q.select order limit s.ledger.allRecords), s)) ∧
    (∀ q, registry.latestSnapshot q s = (.ok (q.latestSnapshot? s.ledger.allRecords), s)) ∧
    (∀ q, registry.count q s =
      (.ok ((q.getD .events).filter s.ledger.allRecords).length, s)) := by
  have hr := represents_of_reached h
  refine ⟨hr.find?_eq_some_iff, ?_, ?_, hr.mem_allRecords, hr.nodup_allRecords,
    query_eq_scan hr, latestSnapshot_eq_scan hr, count_eq_scan hr⟩
  · intro kind entity id
    rw [(hr.collections kind).indexed]
    simp only [hr.find?_eq_some_iff, and_assoc]
  · intro kind
    have hindex := (hr.collections kind).index
    exact ⟨hindex.keys, hindex.nonempty⟩

/-! ## A registry whose envelopes move -/

theorem admissible_cart : Name.Admissible .entityType "Cart" :=
  ⟨by decide, by decide, by decide, by decide⟩

/-- A cart. -/
def cart : EntityKey :=
  ⟨⟨"Cart", admissible_cart⟩,
    ⟨"c1", by decide, by decide, by decide, by decide⟩⟩

/-- A wallet. -/
def wallet : EntityKey :=
  ⟨⟨"Wallet", by decide, by decide, by decide, by decide⟩,
    ⟨"w1", by decide, by decide, by decide, by decide⟩⟩

/-- An event of the cart. -/
def cartEvent : Envelope :=
  .event cart ⟨"Added", by decide, by decide, by decide, by decide⟩ (.bool true) ⟨1⟩

/-- A snapshot of the wallet. -/
def walletSnapshot : Envelope :=
  .snapshot wallet ⟨"Wallet", by decide, by decide, by decide, by decide⟩ .null ⟨3⟩ ⟨2⟩

/-- One id comes as an event and again as a snapshot, another one changes entity and kind. -/
def movedEnvelopes : MemoryEvents :=
  (registry.replace (.ofNat 2) (some walletSnapshot)
    (registry.store cartEvent
      ⟨.ofRecords [⟨.ofNat 1, cartEvent⟩, ⟨.ofNat 1, walletSnapshot⟩] [], ⟨.ofNat, 2⟩⟩).2).2

theorem queries_movedEnvelopes :
    ∃ c, Reached movedEnvelopes c ∧ c (.ofNat 2) = some walletSnapshot ∧
      registry.query (EventQuery.snapshots.ofEntity wallet) .newestFirst (some 5)
          movedEnvelopes =
        (.ok [⟨.ofNat 1, walletSnapshot⟩, ⟨.ofNat 2, walletSnapshot⟩], movedEnvelopes) ∧
      registry.count (some (EventQuery.events.ofEntity cart)) movedEnvelopes =
        (.ok 0, movedEnvelopes) := by
  have hloaded := Reached.fromRecords
    [⟨.ofNat 1, cartEvent⟩, ⟨.ofNat 1, walletSnapshot⟩] [] ⟨.ofNat, 2⟩
  have hstored := hloaded.store cartEvent (by decide +kernel)
  have hmoved := hstored.replace (.ofNat 2) (some walletSnapshot)
  obtain ⟨-, -, -, -, -, hquery, -, hcount⟩ := contents_and_queries_of_reached hmoved
  exact ⟨_, hmoved, rfl, hquery _ _ _, hcount _⟩

end Chronicle.MemoryEvents
