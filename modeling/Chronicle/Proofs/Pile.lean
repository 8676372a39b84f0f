import Chronicle.Proofs.Clients
import Chronicle.Proofs.EventSession
import Chronicle.Proofs.Selection

set_option autoImplicit false

/-!
# A registry that is a pile of records

The plainest event registry keeps its records in the order in which they came and looks through
all of them. Main statement: it answers every list of requests as the registry in memory does
with its collections and indices, if the ids of the records and those still to come are all
different (`Pile.Holds.answers_eq`).
-/

namespace Chronicle

namespace EventRequest

/-- Whether a request takes an id. -/
def isStore : EventRequest → Bool
  | store _ => true
  | _ => false

/-- How many ids the requests take. -/
def stores (requests : List EventRequest) : Nat := requests.countP isStore

end EventRequest

/-- Records in the order in which they came, the ids that were dispatched, and those to come. -/
structure Pile where
  records : List StoredEnvelope
  marks : List UniqueId
  ids : IdSupply

namespace Pile

/-- The pile with nothing on it. -/
def bare (ids : IdSupply) : Pile := ⟨[], [], ids⟩

/-- The records with an envelope in the place of what stands under an id, or without that. -/
def replaced (id : UniqueId) (replacement : Option Envelope) (records : List StoredEnvelope) :
    List StoredEnvelope :=
  records.filterMap fun s => if s.id = id then replacement.map fun e => ⟨id, e⟩ else some s

/-- The sizes of a pile, by kind. -/
def sizes (p : Pile) : Fields :=
  [("events", .ofNat (p.records.filter fun s => s.envelope.kind = .event).length),
    ("snapshots", .ofNat (p.records.filter fun s => s.envelope.kind = .snapshot).length),
    ("dispatched", .ofNat p.marks.length)]

/-- The event registry that is a pile. -/
def registry : EventRegistry Pile where
  store e p :=
    (.ok p.ids.next,
      { p with records := p.records ++ [⟨p.ids.next, e⟩], ids := p.ids.advance })
  query q order limit := .read fun p => q.select order limit p.records
  latestSnapshot q := .read fun p => q.latestSnapshot? p.records
  markDispatched id p := (.ok (decide (id ∉ p.marks)), { p with marks := p.marks.insert id })
  replace id replacement p :=
    (.ok (decide (id ∈ p.records.map StoredEnvelope.id)),
      { p with records := replaced id replacement p.records })
  deleteAll p := (.ok p.records.length, bare p.ids)
  count q := .read fun p => ((q.getD .events).filter p.records).length
  isUp := .done true
  details := .read fun p => .object p.sizes
  urls _ := ["memory://pile"]

end Pile

namespace Contents

/-- Something stands under exactly the ids of the records. -/
theorem isSome_ofRecords_iff {records : List StoredEnvelope}
    (hids : (records.map StoredEnvelope.id).Nodup) (id : UniqueId) :
    (ofRecords records id).isSome ↔ id ∈ records.map StoredEnvelope.id := by
  rw [Option.isSome_iff_exists, List.mem_map]
  simp only [ofRecords_eq_some_iff hids]
  constructor
  · rintro ⟨e, he⟩
    exact ⟨_, he, rfl⟩
  · rintro ⟨s, hs, rfl⟩
    exact ⟨s.envelope, hs⟩

end Contents

namespace Pile

open EventRequest IdSupply

/-- A replacement brings no new ids. -/
theorem ids_replaced_sublist (id : UniqueId) (replacement : Option Envelope)
    (records : List StoredEnvelope) :
    ((replaced id replacement records).map StoredEnvelope.id).Sublist
      (records.map StoredEnvelope.id) := by
  induction records with
  | nil => exact .slnil
  | cons s rest ih =>
      unfold replaced at ih ⊢
      rw [List.filterMap_cons]
      by_cases hid : s.id = id
      · cases replacement with
        | none => simpa [hid] using ih.cons s.id
        | some e => simpa [hid] using ih.cons_cons s.id
      · simpa [hid] using ih.cons_cons s.id

/-- Under every other id the records stay; under the id stands the replacement, if something did. -/
theorem mem_replaced_iff {id : UniqueId} {replacement : Option Envelope}
    {records : List StoredEnvelope} {r : StoredEnvelope} :
    r ∈ replaced id replacement records ↔
      if r.id = id then replacement = some r.envelope ∧ id ∈ records.map StoredEnvelope.id
      else r ∈ records := by
  rw [replaced, List.mem_filterMap]
  constructor
  · rintro ⟨s, hs, hr⟩
    by_cases hid : s.id = id
    · rw [if_pos hid, Option.map_eq_some_iff] at hr
      obtain ⟨e, he, rfl⟩ := hr
      rw [if_pos rfl]
      exact ⟨he, List.mem_map.mpr ⟨s, hs, hid⟩⟩
    · rw [if_neg hid] at hr
      cases hr
      rw [if_neg hid]
      exact hs
  · by_cases hid : r.id = id
    · rw [if_pos hid]
      rintro ⟨he, hmem⟩
      obtain ⟨s, hs, hsid⟩ := List.mem_map.mp hmem
      refine ⟨s, hs, ?_⟩
      rw [if_pos hsid, he, ← hid]
      rfl
    · rw [if_neg hid]
      intro hr
      exact ⟨r, hr, if_neg hid⟩

/-- Replacing a record on the pile replaces it in the map of the records. -/
theorem ofRecords_replaced {records : List StoredEnvelope}
    (hids : (records.map StoredEnvelope.id).Nodup) (id : UniqueId)
    (replacement : Option Envelope) :
    Contents.ofRecords (replaced id replacement records) =
      (Contents.ofRecords records).replace id replacement := by
  have hids' := hids.sublist (ids_replaced_sublist id replacement records)
  funext id'
  refine Option.ext fun e => ?_
  rw [Contents.ofRecords_eq_some_iff hids', mem_replaced_iff, Contents.replace]
  have hstored := Contents.isSome_ofRecords_iff hids id
  by_cases hmem : id ∈ records.map StoredEnvelope.id
  · rw [if_pos (hstored.mpr hmem), Function.update_apply]
    by_cases hid : id' = id
    · simp [hid, hmem]
    · simp [hid, Contents.ofRecords_eq_some_iff hids]
  · -- nothing stood under the id, so nothing changes
    rw [if_neg (mt hstored.mp hmem)]
    by_cases hid : id' = id
    · subst hid
      have hnone : (⟨id', e⟩ : StoredEnvelope) ∉ records := fun h =>
        hmem (List.mem_map.mpr ⟨_, h, rfl⟩)
      simp [hmem, Contents.ofRecords_eq_some_iff hids, hnone]
    · simp [hid, Contents.ofRecords_eq_some_iff hids]

/--
A registry in memory holds what is on a pile, hands out the same ids, and the next `n` of them
are all different and under none of them stands a record.
-/
structure Holds (n : Nat) (m : MemoryEvents) (p : Pile) : Prop where
  represents : m.ledger.Represents (.ofRecords p.records)
  marks : ∀ id, id ∈ m.ledger.dispatched ↔ id ∈ p.marks
  ids : m.ids = p.ids
  distinct : (p.records.map StoredEnvelope.id ++ p.ids.upcoming n).Nodup

variable {n : Nat} {m : MemoryEvents} {p : Pile}

/-- Registries that start empty. -/
theorem holds_bare {ids : IdSupply} (distinct : (ids.upcoming n).Nodup) :
    Holds n ⟨.empty, ids⟩ (.bare ids) where
  represents := Ledger.represents_empty
  marks _ := Iff.rfl
  ids := rfl
  distinct := distinct

namespace Holds

theorem nodup_ids (h : Holds n m p) : (p.records.map StoredEnvelope.id).Nodup :=
  (List.nodup_append.mp h.distinct).1

/-- The records of the ledger are those on the pile, in another order. -/
theorem allRecords_perm (h : Holds n m p) : m.ledger.allRecords.Perm p.records := by
  rw [List.perm_ext_iff_of_nodup h.represents.nodup_allRecords.of_map h.nodup_ids.of_map]
  intro r
  rw [h.represents.mem_allRecords, Contents.ofRecords_eq_some_iff h.nodup_ids]

theorem filter_perm (h : Holds n m p) (q : EventQuery) :
    (q.filter m.ledger.allRecords).Perm (q.filter p.records) := h.allRecords_perm.filter _

theorem query (h : Holds n m p) (q : EventQuery) (order : TimeOrder) (limit : Option Nat) :
    MemoryEvents.registry.query q order limit m = (.ok (q.select order limit p.records), m) := by
  rw [MemoryEvents.query_eq_scan h.represents]
  rw [q.select_perm order limit (h.filter_perm q) h.represents.nodup_allRecords]

theorem latestSnapshot (h : Holds n m p) (q : EventQuery) :
    MemoryEvents.registry.latestSnapshot q m = (.ok (q.latestSnapshot? p.records), m) := by
  rw [MemoryEvents.latestSnapshot_eq_scan h.represents]
  rw [q.latestSnapshot?_perm (h.filter_perm _) h.represents.nodup_allRecords]

theorem count (h : Holds n m p) (q : Option EventQuery) :
    MemoryEvents.registry.count q m = (.ok ((q.getD .events).filter p.records).length, m) := by
  rw [MemoryEvents.count_eq_scan h.represents, (h.filter_perm _).length_eq]

theorem size (h : Holds n m p) : m.ledger.size = p.records.length := by
  rw [← h.allRecords_perm.length_eq, Ledger.allRecords, List.length_append, Ledger.size,
    Collection.size, Collection.size]
  simp [Ledger.records, Collection.records, Ledger.collection]

theorem store (h : Holds (n + 1) m p) (e : Envelope) :
    Holds n (MemoryEvents.registry.store e m).2 (registry.store e p).2 := by
  have hdistinct := h.distinct
  rw [upcoming_succ] at hdistinct
  have hnew : p.ids.next ∉ p.records.map StoredEnvelope.id := fun hmem =>
    (List.nodup_append.mp hdistinct).2.2 _ hmem _ List.mem_cons_self rfl
  have hfree : Contents.ofRecords p.records p.ids.next = none := by
    rw [← Option.not_isSome_iff_eq_none, Contents.isSome_ofRecords_iff h.nodup_ids]
    exact hnew
  refine ⟨?_, fun id => ?_, ?_, ?_⟩
  · show (m.ledger.insert m.ids.next e).Represents (.ofRecords (p.records ++ [⟨p.ids.next, e⟩]))
    rw [Contents.ofRecords_concat, h.ids]
    exact h.represents.insert hfree e
  · show id ∈ (m.ledger.insert m.ids.next e).dispatched ↔ id ∈ p.marks
    rw [Ledger.dispatched_insert]
    exact h.marks id
  · show m.ids.advance = p.ids.advance
    rw [h.ids]
  · show ((p.records ++ [(⟨p.ids.next, e⟩ : StoredEnvelope)]).map StoredEnvelope.id ++
      p.ids.advance.upcoming n).Nodup
    rw [List.map_append, List.append_assoc]
    exact hdistinct

theorem markDispatched (h : Holds n m p) (id : UniqueId) :
    Holds n (MemoryEvents.registry.markDispatched id m).2 (registry.markDispatched id p).2 := by
  refine ⟨h.represents.mark id, fun id' => ?_, h.ids, h.distinct⟩
  show id' ∈ OrderedSet.insert id m.ledger.dispatched ↔ id' ∈ p.marks.insert id
  rw [OrderedSet.mem_insert, List.mem_insert_iff, h.marks]

theorem replace (h : Holds n m p) (id : UniqueId) (replacement : Option Envelope) :
    Holds n (MemoryEvents.registry.replace id replacement m).2
      (registry.replace id replacement p).2 := by
  refine ⟨?_, fun id' => ?_, h.ids, ?_⟩
  · show (m.ledger.replace id replacement).Represents _
    rw [registry, ofRecords_replaced h.nodup_ids]
    exact h.represents.replace id replacement
  · show id' ∈ (m.ledger.replace id replacement).dispatched ↔ _
    rw [Ledger.dispatched_replace]
    exact h.marks id'
  · exact h.distinct.sublist ((ids_replaced_sublist id replacement p.records).append_right _)

theorem deleteAll (h : Holds n m p) :
    Holds n (MemoryEvents.registry.deleteAll m).2 (registry.deleteAll p).2 := by
  have hupcoming := (List.nodup_append.mp h.distinct).2.1
  exact ⟨Ledger.represents_empty, fun _ => Iff.rfl, h.ids, hupcoming⟩

/-- A request is answered as from the pile, and what it leaves is held again. -/
theorem ask (r : EventRequest) (h : Holds (n + if r.isStore then 1 else 0) m p) :
    (r.ask MemoryEvents.registry m).1 = (r.ask registry p).1 ∧
      Holds n (r.ask MemoryEvents.registry m).2 (r.ask registry p).2 := by
  cases r with
  | store e =>
      refine ⟨?_, h.store e⟩
      show Except.ok (EventAnswer.id m.ids.next) = .ok (.id p.ids.next)
      rw [h.ids]
  | markDispatched id =>
      refine ⟨?_, h.markDispatched id⟩
      have hmark : (!m.ledger.isDispatched id) = decide (id ∉ p.marks) := by
        rw [Bool.eq_iff_iff, decide_eq_true_iff, ← h.marks,
          ← OrderedSet.contains_iff_mem h.represents.dispatched, Ledger.isDispatched]
        simp
      exact congrArg (fun b => Except.ok (EventAnswer.verdict b)) hmark
  | replace id replacement =>
      refine ⟨?_, h.replace id replacement⟩
      have hstored : (m.ledger.locate id).isSome =
          decide (id ∈ p.records.map StoredEnvelope.id) := by
        rw [Bool.eq_iff_iff, decide_eq_true_iff, ← Contents.isSome_ofRecords_iff h.nodup_ids,
          h.represents.locate, Option.isSome_map]
      exact congrArg (fun b => Except.ok (EventAnswer.verdict b)) hstored
  | deleteAll =>
      refine ⟨?_, h.deleteAll⟩
      show Except.ok (EventAnswer.number m.ledger.size) = .ok (.number p.records.length)
      rw [h.size]
  | query q order limit =>
      simp only [EventRequest.ask, Fallible.map_apply, h.query]
      exact ⟨rfl, h⟩
  | latestSnapshot q =>
      simp only [EventRequest.ask, Fallible.map_apply, h.latestSnapshot]
      exact ⟨rfl, h⟩
  | count q =>
      simp only [EventRequest.ask, Fallible.map_apply, h.count]
      exact ⟨rfl, h⟩

/-- The registry in memory answers as the pile that it holds, as long as the ids suffice. -/
theorem answers_eq (requests : List EventRequest) (h : Holds (stores requests) m p) :
    Fallible.answers (EventRequest.ask MemoryEvents.registry) requests m =
      Fallible.answers (EventRequest.ask registry) requests p := by
  induction requests generalizing m p with
  | nil => rfl
  | cons r rest ih =>
      rw [stores, List.countP_cons] at h
      obtain ⟨hanswer, hheld⟩ := h.ask r
      rw [Fallible.answers, Fallible.answers, hanswer, ih hheld]

end Holds

end Pile

/-! ## Registries that answer as the one in memory -/

namespace EventRegistry

variable {σ : Type}

/--
From the state, every list of requests is answered as by a registry in memory that starts empty,
with some choice of ids: those that it hands out and the two fresh ones are all different. Longer
lists, for which there are not that many ids, are left out.
-/
def LikeMemory (r : EventRegistry σ) (start : σ) (fresh : Nat → UniqueId) : Prop :=
  ∀ requests, EventRequest.stores requests + 2 ≤ Word.limit 128 →
    ∃ ids : IdSupply,
      (ids.upcoming (EventRequest.stores requests) ++ [fresh 0, fresh 1]).Nodup ∧
      Fallible.answers (EventRequest.ask r) requests start =
        Fallible.answers (EventRequest.ask MemoryEvents.registry) requests ⟨.empty, ids⟩

variable {r : EventRegistry σ} {start : σ} {fresh : Nat → UniqueId}

/-- Requests are answered as from a pile that has some more ids than they take. -/
theorem LikeMemory.answers_eq_pile (h : r.LikeMemory start fresh) (requests : List EventRequest)
    (n : Nat) (hroom : EventRequest.stores requests + n + 2 ≤ Word.limit 128) :
    ∃ ids : IdSupply, (ids.upcoming n ++ [fresh 0, fresh 1]).Nodup ∧
      Fallible.answers (EventRequest.ask r) requests start =
        Fallible.answers (EventRequest.ask Pile.registry) requests (.bare ids) := by
  -- `n` stores behind the requests take ids that then are different as well
  let more := List.replicate n (EventRequest.store MemoryEvents.cartEvent)
  have hstores : EventRequest.stores (requests ++ more) = EventRequest.stores requests + n := by
    rw [EventRequest.stores, List.countP_append, List.countP_replicate]
    rfl
  obtain ⟨ids, hdistinct, hanswers⟩ := h (requests ++ more) (by omega)
  rw [hstores] at hdistinct
  have hfirst : ∀ k, k ≤ EventRequest.stores requests + n →
      (ids.upcoming k).Sublist (ids.upcoming (EventRequest.stores requests + n)) := by
    intro k hk
    exact (List.range_sublist.mpr hk).map _
  refine ⟨ids, hdistinct.sublist ((hfirst n (by omega)).append_right _), ?_⟩
  have hheld : Pile.Holds (EventRequest.stores requests) ⟨.empty, ids⟩ (.bare ids) :=
    Pile.holds_bare (hdistinct.of_append_left.sublist (hfirst _ (by omega)))
  rw [← hheld.answers_eq]
  rw [Fallible.answers_append, Fallible.answers_append] at hanswers
  refine (List.append_inj hanswers ?_).1
  rw [Fallible.length_answers, Fallible.length_answers]

end EventRegistry

end Chronicle
