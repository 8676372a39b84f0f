import Chronicle.Proofs.LedgerHistory
import Chronicle.Proofs.StableSort
import Chronicle.Service.Events

set_option autoImplicit false

/-!
# The journal of a registry

A journal has everything that was stored, in order, as it was when it was stored. Events become
tombstones where they stand, snapshots are removed, and nothing else happens to what was stored
(`Contents.Journaled`). Main statements: the event service keeps this up over every registry that
writes as the one in memory does, or fails and writes nothing: whatever it accepts of a batch is
added to the journal (`journaled_store`), and to delete any copies of what was stored turns it into
tombstones (`journaled_deleteEvents`).
-/

namespace Chronicle

namespace IdSupply

/-- The ids handed out so far, and the next `n`. -/
def taken (n : Nat) (ids : IdSupply) : List UniqueId := (List.range (ids.issued + n)).map ids.issue

theorem taken_add (m n : Nat) (ids : IdSupply) :
    ids.taken (m + n) =
      ids.taken m ++ (List.range n).map fun i => ids.issue (ids.issued + m + i) := by
  rw [taken, taken, ← Nat.add_assoc, List.range_add, List.map_append, List.map_map]
  rfl

/-- The ids with the next one are those that are handed out once it is. -/
theorem taken_succ (ids : IdSupply) (n : Nat) : ids.taken (n + 1) = ids.advance.taken n := by
  rw [taken, taken, advance, Nat.add_assoc, Nat.add_comm 1 n]

/-- If the ids with the next `n` are all different, so are those with fewer. -/
theorem nodup_taken_of_le {m n : Nat} (h : m ≤ n) {ids : IdSupply} (hn : (ids.taken n).Nodup) :
    (ids.taken m).Nodup := by
  obtain ⟨k, rfl⟩ := Nat.exists_eq_add_of_le h
  rw [taken_add] at hn
  exact hn.of_append_left

/-- If the next id is different from those before, it has not been handed out. -/
theorem next_not_mem {ids : IdSupply} (h : (ids.taken 1).Nodup) : ids.next ∉ ids.taken 0 := by
  rw [← Nat.zero_add 1, taken_add] at h
  intro hmem
  exact (List.nodup_append.mp h).2.2 _ hmem ids.next (by simp [next]) rfl

end IdSupply

/-- An envelope belongs to an entity of its type and id. -/
theorem Envelope.entity_eq_iff {e : Envelope} {entity : EntityKey} :
    e.entity = entity ↔ entity.entityType = e.entityType ∧ entity.entityId = e.entityId := by
  constructor
  · rintro rfl
    exact ⟨rfl, rfl⟩
  · rintro ⟨htype, hid⟩
    cases entity
    cases htype
    cases hid
    rfl

namespace EventQuery

theorem kind_of_matches {q : EventQuery} {e : Envelope} (h : q.matchesEnvelope e = true) :
    e.kind = q.kind := by
  simp only [matchesEnvelope, Bool.and_eq_true, beq_iff_eq] at h
  exact h.1.1.1.1.1.1

/-- The query for the live events of an entity that were created in a range. -/
def liveEvents (entity : EntityKey) (range : TimeRange) : EventQuery :=
  { (events.ofEntity entity).live with createdAt := range }

theorem matches_liveEvents (entity : EntityKey) (range : TimeRange) (e : Envelope) :
    (liveEvents entity range).matchesEnvelope e = true ↔
      e.kind = .event ∧ e.entity = entity ∧ range.contains e.createdAt = true ∧
        e.isDeleted = false := by
  rw [Envelope.entity_eq_iff]
  simp [matchesEnvelope, liveEvents, events, ofEntity, live, and_assoc]

end EventQuery

namespace Contents

variable {c : Contents} {journal : List StoredEnvelope} {buried : List UniqueId}

/--
What is left of a journal: an event stands as it was stored, or as a tombstone once it was buried,
and nothing stands but what the journal has.
-/
structure Journaled (c : Contents) (journal : List StoredEnvelope) (buried : List UniqueId) :
    Prop where
  distinct : (journal.map StoredEnvelope.id).Nodup
  live : ∀ s ∈ journal, s.envelope.deletedAt = none
  stored : ∀ id ∈ buried, id ∈ journal.map StoredEnvelope.id
  kept : ∀ s ∈ journal, s.envelope.kind = .event → s.id ∉ buried → c s.id = some s.envelope
  tombstone : ∀ s ∈ journal, s.envelope.kind = .event → s.id ∈ buried →
    ∃ deletedAt, c s.id = some (s.envelope.tombstone deletedAt)
  origin : ∀ id e, c id = some e → ∃ s ∈ journal, s.id = id ∧
    (e = s.envelope ∨ ∃ deletedAt, e = s.envelope.tombstone deletedAt)

theorem journaled_empty : Journaled .empty [] [] where
  distinct := List.nodup_nil
  live _ hs := nomatch hs
  stored _ hid := nomatch hid
  kept _ hs := nomatch hs
  tombstone _ hs := nomatch hs
  origin _ _ he := nomatch he

namespace Journaled

/-- Two entries of a journal with one id are the same. -/
theorem eq_of_id (h : c.Journaled journal buried) {s t : StoredEnvelope} (hs : s ∈ journal)
    (ht : t ∈ journal) (hid : s.id = t.id) : s = t :=
  List.inj_on_of_nodup_map h.distinct hs ht hid

/-- Nothing stands under an id that the journal does not have. -/
theorem eq_none (h : c.Journaled journal buried) {id : UniqueId}
    (hid : id ∉ journal.map StoredEnvelope.id) : c id = none := by
  cases hc : c id with
  | none => rfl
  | some e =>
      obtain ⟨s, hs, rfl, -⟩ := h.origin id e hc
      exact absurd (List.mem_map_of_mem hs) hid

/-- An event of the journal stands under its id, as it was or as a tombstone. -/
theorem event_cases (h : c.Journaled journal buried) {s : StoredEnvelope} (hs : s ∈ journal)
    (hkind : s.envelope.kind = .event) :
    c s.id = some s.envelope ∨ ∃ deletedAt, c s.id = some (s.envelope.tombstone deletedAt) := by
  by_cases hid : s.id ∈ buried
  · exact Or.inr (h.tombstone s hs hkind hid)
  · exact Or.inl (h.kept s hs hkind hid)

/-- What stands without being a tombstone stands as it was stored. -/
theorem mem_of_live (h : c.Journaled journal buried) {s : StoredEnvelope}
    (hs : c s.id = some s.envelope) (hlive : s.envelope.isDeleted = false) : s ∈ journal := by
  obtain ⟨t, ht, hid, henvelope | ⟨deletedAt, henvelope⟩⟩ := h.origin s.id s.envelope hs
  · obtain ⟨id, e⟩ := s
    cases hid
    cases henvelope
    exact ht
  · rw [henvelope] at hlive
    cases hlive

/-- What is stored under a new id is one more entry. -/
theorem store (h : c.Journaled journal buried) {id : UniqueId}
    (hid : id ∉ journal.map StoredEnvelope.id) {e : Envelope} (he : e.deletedAt = none) :
    Journaled (Function.update c id (some e)) (journal ++ [⟨id, e⟩]) buried := by
  have hold : ∀ s ∈ journal, Function.update c id (some e) s.id = c s.id := by
    intro s hs
    refine Function.update_of_ne ?_ _ _
    rintro rfl
    exact hid (List.mem_map_of_mem hs)
  refine ⟨?_, ?_, ?_, ?_, ?_, ?_⟩
  · rw [List.map_append, List.nodup_append]
    refine ⟨h.distinct, by simp, fun a ha b hb => ?_⟩
    rw [List.map_singleton, List.mem_singleton] at hb
    rintro rfl
    rw [hb] at ha
    exact hid ha
  · intro s hs
    rcases List.mem_append.mp hs with hs | hs
    · exact h.live s hs
    · rw [List.mem_singleton.mp hs]
      exact he
  · intro id' hid'
    rw [List.map_append]
    exact List.mem_append_left _ (h.stored id' hid')
  · intro s hs hkind hburied
    rcases List.mem_append.mp hs with hs | hs
    · rw [hold s hs]
      exact h.kept s hs hkind hburied
    · rw [List.mem_singleton.mp hs]
      exact Function.update_self _ _ _
  · intro s hs hkind hburied
    rcases List.mem_append.mp hs with hs | hs
    · rw [hold s hs]
      exact h.tombstone s hs hkind hburied
    · -- what is new has not been buried
      rw [List.mem_singleton.mp hs] at hburied
      exact absurd (h.stored id hburied) hid
  · intro id' e' he'
    rw [Function.update_apply] at he'
    split at he'
    · next hii =>
        cases he'
        exact ⟨⟨id, e⟩, List.mem_append_right _ (List.mem_singleton_self _), hii.symm, Or.inl rfl⟩
    · obtain ⟨s, hs, hrest⟩ := h.origin id' e' he'
      exact ⟨s, List.mem_append_left _ hs, hrest⟩

/-- A copy of an event may be stale: whatever stood under its id, its tombstone stands there now. -/
theorem bury (h : c.Journaled journal buried) {s : StoredEnvelope} (hs : s ∈ journal)
    (hkind : s.envelope.kind = .event) (deletedAt : Timestamp) :
    Journaled (c.replace s.id (some (s.envelope.tombstone deletedAt))) journal
      (s.id :: buried) := by
  have hstands : (c s.id).isSome = true := by
    rcases h.event_cases hs hkind with hc | ⟨t, hc⟩
    · rw [hc]
      rfl
    · rw [hc]
      rfl
  rw [replace, if_pos hstands]
  refine ⟨h.distinct, h.live, ?_, ?_, ?_, ?_⟩
  · intro id hid
    rcases List.mem_cons.mp hid with rfl | hid
    · exact List.mem_map_of_mem hs
    · exact h.stored id hid
  · intro t ht htkind hburied
    rw [List.mem_cons, not_or] at hburied
    rw [Function.update_of_ne hburied.1]
    exact h.kept t ht htkind hburied.2
  · intro t ht htkind hburied
    by_cases hid : t.id = s.id
    · cases h.eq_of_id ht hs hid
      exact ⟨deletedAt, Function.update_self _ _ _⟩
    · rw [Function.update_of_ne hid]
      exact h.tombstone t ht htkind ((List.mem_cons.mp hburied).resolve_left hid)
  · intro id e he
    rw [Function.update_apply] at he
    split at he
    · next hid =>
        cases he
        exact ⟨s, hs, hid.symm, Or.inr ⟨deletedAt, rfl⟩⟩
    · exact h.origin id e he

/-- A snapshot is removed; the events stay. -/
theorem remove (h : c.Journaled journal buried) {s : StoredEnvelope} (hs : s ∈ journal)
    (hkind : s.envelope.kind = .snapshot) :
    Journaled (c.replace s.id none) journal buried := by
  have hother : ∀ t ∈ journal, t.envelope.kind = .event →
      c.replace s.id none t.id = c t.id := by
    intro t ht htkind
    have hne : t.id ≠ s.id := by
      intro hid
      cases h.eq_of_id ht hs hid
      rw [hkind] at htkind
      cases htkind
    rw [replace]
    split
    · exact Function.update_of_ne hne _ _
    · rfl
  refine ⟨h.distinct, h.live, h.stored, ?_, ?_, ?_⟩
  · intro t ht htkind hburied
    rw [hother t ht htkind]
    exact h.kept t ht htkind hburied
  · intro t ht htkind hburied
    rw [hother t ht htkind]
    exact h.tombstone t ht htkind hburied
  · intro id e he
    refine h.origin id e ?_
    rw [replace] at he
    split at he
    · rw [Function.update_apply] at he
      split at he
      · cases he
      · exact he
    · exact he

end Journaled

end Contents

namespace MemoryEvents

variable {m : MemoryEvents} {journal : List StoredEnvelope} {buried : List UniqueId}

/-- A registry in memory that holds what is left of a journal, which has its ids in order. -/
structure Journaled (m : MemoryEvents) (journal : List StoredEnvelope)
    (buried : List UniqueId) : Prop where
  contents : ∃ c, m.ledger.Represents c ∧ c.Journaled journal buried
  ids : journal.map StoredEnvelope.id = m.ids.taken 0

theorem journaled_empty (issue : Nat → UniqueId) : Journaled ⟨.empty, ⟨issue, 0⟩⟩ [] [] where
  contents := ⟨_, Ledger.represents_empty, Contents.journaled_empty⟩
  ids := rfl

namespace Journaled

/-- Nothing stands under the next id if it is another than those before. -/
theorem locate_next (h : m.Journaled journal buried) (fresh : (m.ids.taken 1).Nodup) :
    m.ledger.locate m.ids.next = none := by
  obtain ⟨c, hc, hj⟩ := h.contents
  rw [hc.locate, hj.eq_none, Option.map_none]
  rw [h.ids]
  exact IdSupply.next_not_mem fresh

theorem store (h : m.Journaled journal buried) (fresh : (m.ids.taken 1).Nodup) {e : Envelope}
    (he : e.deletedAt = none) :
    (registry.store e m).2.Journaled (journal ++ [⟨m.ids.next, e⟩]) buried := by
  obtain ⟨c, hc, hj⟩ := h.contents
  have hnext : m.ids.next ∉ journal.map StoredEnvelope.id := by
    rw [h.ids]
    exact IdSupply.next_not_mem fresh
  refine ⟨⟨_, hc.insert (hj.eq_none hnext) e, hj.store hnext he⟩, ?_⟩
  show _ = m.ids.advance.taken 0
  rw [List.map_append, h.ids, ← IdSupply.taken_succ, IdSupply.taken_add]
  rfl

theorem bury (h : m.Journaled journal buried) {s : StoredEnvelope} (hs : s ∈ journal)
    (hkind : s.envelope.kind = .event) (deletedAt : Timestamp) :
    (registry.replace s.id (some (s.envelope.tombstone deletedAt)) m).2.Journaled journal
      (s.id :: buried) := by
  obtain ⟨c, hc, hj⟩ := h.contents
  exact ⟨⟨_, hc.replace s.id (some _), hj.bury hs hkind deletedAt⟩, h.ids⟩

theorem remove (h : m.Journaled journal buried) {s : StoredEnvelope} (hs : s ∈ journal)
    (hkind : s.envelope.kind = .snapshot) :
    (registry.replace s.id none m).2.Journaled journal buried := by
  obtain ⟨c, hc, hj⟩ := h.contents
  exact ⟨⟨_, hc.replace s.id none, hj.remove hs hkind⟩, h.ids⟩

theorem mark (h : m.Journaled journal buried) (id : UniqueId) :
    (registry.markDispatched id m).2.Journaled journal buried := by
  obtain ⟨c, hc, hj⟩ := h.contents
  exact ⟨⟨c, hc.mark id, hj⟩, h.ids⟩

/-- What a query answers is stored and matches. -/
theorem of_mem_query (h : m.Journaled journal buried) {q : EventQuery} {order : TimeOrder}
    {s : StoredEnvelope} (hs : s ∈ m.ledger.query q order none) :
    s ∈ m.ledger.allRecords ∧ q.matchesEnvelope s.envelope = true := by
  obtain ⟨c, hc, -⟩ := h.contents
  have hsel : s ∈ stableSort (fun a b => StoredEnvelope.compare order a b == .lt)
      (q.filter ((m.ledger.collection q.kind).candidates q)) := hs
  rw [(stableSort_perm _ _).mem_iff, hc.filter_candidates] at hsel
  exact List.mem_filter.mp hsel

/-- The live events that a query answers are entries of the journal, as they were stored. -/
theorem event_of_mem_liveEvents (h : m.Journaled journal buried) {entity : EntityKey}
    {range : TimeRange} {order : TimeOrder} {s : StoredEnvelope}
    (hs : s ∈ m.ledger.query (.liveEvents entity range) order none) :
    s ∈ journal ∧ s.envelope.kind = .event := by
  obtain ⟨c, hc, hj⟩ := h.contents
  obtain ⟨hstored, hmatch⟩ := h.of_mem_query hs
  obtain ⟨hkind, -, -, hlive⟩ := (EventQuery.matches_liveEvents _ _ _).mp hmatch
  exact ⟨hj.mem_of_live ((hc.mem_allRecords s).mp hstored) hlive, hkind⟩

end Journaled

end MemoryEvents

/-! ## Registries that write as the one in memory does -/

variable {σ α : Type}

/--
What a call does that changes what is held as the given call of the registry in memory does, or
fails and leaves it as it is.
-/
structure WritesAs (held : σ → MemoryEvents) (sound : σ → Prop) (call : Call MemoryEvents α)
    (s : σ) (out : Except RegistryError α × σ) : Prop where
  sound : sound out.2
  effect : (out.1, held out.2) = call (held s) ∨
    (∃ e, out.1 = .error e) ∧ held out.2 = held s

/--
A registry whose sound states hold the envelopes of a registry in memory: it stores under a new id
and replaces as that does, or fails and changes nothing, and it answers queries as that does.
-/
structure EventRegistry.Backed (r : EventRegistry σ) (held : σ → MemoryEvents)
    (sound : σ → Prop) : Prop where
  store : ∀ s e, sound s → (held s).ledger.locate (held s).ids.next = none →
    WritesAs held sound (MemoryEvents.registry.store e) s (r.store e s)
  replace : ∀ s id replacement, sound s →
    WritesAs held sound (MemoryEvents.registry.replace id replacement) s
      (r.replace id replacement s)
  query : ∀ s q order limit, sound s →
    sound (r.query q order limit s).2 ∧
      ((r.query q order limit s).1, held (r.query q order limit s).2) =
        MemoryEvents.registry.query q order limit (held s)

/-- The registry in memory itself. -/
theorem MemoryEvents.backed : MemoryEvents.registry.Backed id fun _ => True where
  store _ _ _ _ := ⟨trivial, Or.inl rfl⟩
  replace _ _ _ _ := ⟨trivial, Or.inl rfl⟩
  query _ _ _ _ _ := ⟨trivial, rfl⟩

/-- A new event with the stamp of its creation. -/
def NewEvent.stamped (e : NewEvent) (createdAt : Timestamp) : Envelope :=
  { Envelope.event e.entity e.typeName e.value createdAt with requestId := e.requestId }

/-- A new snapshot with the stamp of its creation, which is also that of its persisting. -/
def NewSnapshot.stamped (n : NewSnapshot) (now : Timestamp) : Envelope :=
  (Envelope.snapshot n.entity n.typeName n.value now n.capturedAt).withPersistedAt now

namespace EventService

variable {r : EventRegistry σ}

/-- The answer to a write is the envelope under the id that the registry gave it. -/
theorem write_apply (r : EventRegistry σ) (e : Envelope) (s : σ) (clock : Clock) :
    ((r.store e).onFirst >>= fun id => pure ⟨id, e⟩ : Call (σ × Clock) StoredEnvelope) (s, clock) =
      match r.store e s with
      | (.ok id, s') => (.ok ⟨id, e⟩, (s', clock))
      | (.error err, s') => (.error err, (s', clock)) := by
  rw [Fallible.onFirst_bind_apply]
  rcases r.store e s with ⟨_ | _, _⟩ <;> rfl

/-- One event is stamped with the next instant, whatever the registry makes of it. -/
theorem storeOne_apply (r : EventRegistry σ) (e : NewEvent) (s : σ) (clock : Clock) :
    storeOne r e (s, clock) =
      match r.store (e.stamped clock.next) s with
      | (.ok id, s') => (.ok ⟨id, e.stamped clock.next⟩, (s', clock.advance))
      | (.error err, s') => (.error err, (s', clock.advance)) :=
  write_apply r (e.stamped clock.next) s clock.advance

/-- So is a snapshot. -/
theorem storeSnapshot_apply (r : EventRegistry σ) (n : NewSnapshot) (s : σ) (clock : Clock) :
    storeSnapshot r n (s, clock) =
      match r.store (n.stamped clock.next) s with
      | (.ok id, s') => (.ok ⟨id, n.stamped clock.next⟩, (s', clock.advance))
      | (.error err, s') => (.error err, (s', clock.advance)) :=
  write_apply r (n.stamped clock.next) s clock.advance

/-- The first event of a batch is stored, and then the rest of it, unless that event is refused. -/
theorem store_cons (r : EventRegistry σ) (e : NewEvent) (rest : List NewEvent) (s : σ)
    (clock : Clock) :
    store r (e :: rest) (s, clock) =
      match r.store (e.stamped clock.next) s with
      | (.ok id, s') =>
          ((store r rest (s', clock.advance)).1.map (List.cons ⟨id, e.stamped clock.next⟩),
            (store r rest (s', clock.advance)).2)
      | (.error err, s') => (.error err, (s', clock.advance)) := by
  rw [store, Fallible.bind_apply, storeOne_apply]
  rcases r.store (e.stamped clock.next) s with ⟨_ | id, s'⟩
  · rfl
  · exact Fallible.map_apply (List.cons ⟨id, e.stamped clock.next⟩) (store r rest) _

/-- The events of a batch that the registry accepts: those before the first that it refuses. -/
def accepted (r : EventRegistry σ) : List NewEvent → σ × Clock → List StoredEnvelope
  | [], _ => []
  | e :: rest, s =>
      match storeOne r e s with
      | (.ok stored, s') => stored :: accepted r rest s'
      | (.error _, _) => []

/-- What is accepted of a batch are its first events, each with a stamp. -/
theorem accepted_stamped (events : List NewEvent) (s : σ × Clock) :
    List.Forall₂ (fun stored e => ∃ createdAt, stored.envelope = e.stamped createdAt)
      (accepted r events s) (events.take (accepted r events s).length) := by
  induction events generalizing s with
  | nil => exact .nil
  | cons e rest ih =>
      rw [accepted, storeOne_apply]
      rcases r.store (e.stamped s.2.next) s.1 with ⟨err | id, s'⟩
      · exact .nil
      · exact .cons ⟨_, rfl⟩ (ih _)

theorem event_of_mem_accepted {events : List NewEvent} {s : σ × Clock} {t : StoredEnvelope}
    (ht : t ∈ accepted r events s) : t.envelope.kind = .event := by
  induction events generalizing s with
  | nil => cases ht
  | cons e rest ih =>
      rw [accepted, storeOne_apply] at ht
      rcases hstore : r.store (e.stamped s.2.next) s.1 with ⟨err | id, s'⟩
      · rw [hstore] at ht
        cases ht
      · rw [hstore] at ht
        rcases List.mem_cons.mp ht with rfl | ht
        · rfl
        · exact ih ht

/-- A batch answers all of its events, or fails at the first that is not accepted. -/
theorem store_answer (events : List NewEvent) (s : σ × Clock) :
    (store r events s).1 = .ok (accepted r events s) ∧
        (accepted r events s).length = events.length ∨
      (∃ e, (store r events s).1 = .error e) ∧
        (accepted r events s).length < events.length := by
  induction events generalizing s with
  | nil => exact Or.inl ⟨rfl, rfl⟩
  | cons e rest ih =>
      rw [accepted, store_cons, storeOne_apply]
      rcases r.store (e.stamped s.2.next) s.1 with ⟨err | id, s'⟩
      · exact Or.inr ⟨⟨err, rfl⟩, Nat.succ_pos _⟩
      · -- the rest of the batch decides
        dsimp only
        rcases ih (s', s.2.advance) with ⟨hok, hlength⟩ | ⟨⟨err, herr⟩, hlength⟩
        · rw [hok]
          exact Or.inl ⟨rfl, congrArg (· + 1) hlength⟩
        · rw [herr]
          exact Or.inr ⟨⟨err, rfl⟩, Nat.succ_lt_succ hlength⟩

variable {held : σ → MemoryEvents} {sound : σ → Prop} {journal : List StoredEnvelope}
  {buried : List UniqueId} {s : σ}

/-- A registry stores an envelope under the next id, or fails and stores nothing. -/
theorem write_cases (hb : r.Backed held sound) (hs : sound s)
    (h : (held s).Journaled journal buried) (fresh : ((held s).ids.taken 1).Nodup)
    {e : Envelope} (he : e.deletedAt = none) :
    (∃ s', r.store e s = (.ok (held s).ids.next, s') ∧ sound s' ∧
        (held s').ids = (held s).ids.advance ∧
        (held s').Journaled (journal ++ [⟨(held s).ids.next, e⟩]) buried) ∨
      ∃ err s', r.store e s = (.error err, s') ∧ sound s' ∧ held s' = held s := by
  have hwrites := hb.store s e hs (h.locate_next fresh)
  rcases hwrites.effect with heffect | ⟨⟨err, herr⟩, hheld⟩
  · obtain ⟨hanswer, hheld⟩ := Prod.ext_iff.mp heffect
    dsimp only at hanswer hheld
    refine Or.inl ⟨_, Prod.ext hanswer rfl, hwrites.sound, ?_, ?_⟩
    · rw [hheld]
      rfl
    · rw [hheld]
      exact h.store fresh he
  · exact Or.inr ⟨err, _, Prod.ext herr rfl, hwrites.sound, hheld⟩

/-- Whatever the registry accepts of a batch is added to the journal. -/
theorem journaled_store (hb : r.Backed held sound) (events : List NewEvent) (hs : sound s)
    (h : (held s).Journaled journal buried) (fresh : ((held s).ids.taken events.length).Nodup)
    (clock : Clock) :
    sound (store r events (s, clock)).2.1 ∧
      (held (store r events (s, clock)).2.1).Journaled
        (journal ++ accepted r events (s, clock)) buried := by
  induction events generalizing s journal clock with
  | nil =>
      rw [accepted, List.append_nil]
      exact ⟨hs, h⟩
  | cons e rest ih =>
      have hnext := IdSupply.nodup_taken_of_le (Nat.le_add_left 1 rest.length) fresh
      rw [accepted, store_cons, storeOne_apply]
      obtain ⟨s', hstore, hs', hids, h'⟩ | ⟨err, s', hstore, hs', hheld⟩ :=
        write_cases hb hs h hnext (e := e.stamped clock.next) rfl
      · have hfresh : ((held s').ids.taken rest.length).Nodup := by
          rw [hids, ← IdSupply.taken_succ]
          exact fresh
        have hrest := ih hs' h' hfresh clock.advance
        rw [List.append_assoc] at hrest
        rw [hstore]
        exact hrest
      · rw [hstore, List.append_nil]
        exact ⟨hs', hheld ▸ h⟩

/-- A snapshot that the registry accepts is added to the journal. -/
theorem journaled_storeSnapshot (hb : r.Backed held sound) (n : NewSnapshot) (hs : sound s)
    (h : (held s).Journaled journal buried) (fresh : ((held s).ids.taken 1).Nodup)
    (clock : Clock) :
    sound (storeSnapshot r n (s, clock)).2.1 ∧
      (held (storeSnapshot r n (s, clock)).2.1).Journaled
        (journal ++ (storeSnapshot r n (s, clock)).1.toOption.toList) buried := by
  rw [storeSnapshot_apply]
  obtain ⟨s', hstore, hs', -, h'⟩ | ⟨err, s', hstore, hs', hheld⟩ :=
    write_cases hb hs h fresh (e := n.stamped clock.next) rfl
  · rw [hstore]
    exact ⟨hs', h'⟩
  · rw [hstore]
    show sound s' ∧ (held s').Journaled (journal ++ []) buried
    rw [List.append_nil]
    exact ⟨hs', hheld ▸ h⟩

/-- The first copy is deleted, and then the others, unless that is refused. -/
theorem deleteEvents_cons (r : EventRegistry σ) (t : StoredEnvelope) (rest : List StoredEnvelope)
    (s : σ) (clock : Clock) :
    deleteEvents r (t :: rest) (s, clock) =
      match r.replace t.id (some (t.envelope.tombstone clock.next)) s with
      | (.ok _, s') => deleteEvents r rest (s', clock.advance)
      | (.error err, s') => (.error err, (s', clock.advance)) := by
  have hstep : deleteEvents r (t :: rest) (s, clock) =
      ((r.replace t.id (some (t.envelope.tombstone clock.next))).onFirst >>= fun _ =>
        deleteEvents r rest : Call (σ × Clock) Unit) (s, clock.advance) := rfl
  rw [hstep, Fallible.onFirst_bind_apply]
  rcases r.replace t.id (some (t.envelope.tombstone clock.next)) s with ⟨_ | _, _⟩ <;> rfl

/-- Copies of events, however stale, make tombstones of the events under their ids. -/
theorem journaled_deleteEvents (hb : r.Backed held sound) (copies : List StoredEnvelope)
    (hcopies : ∀ t ∈ copies, t ∈ journal ∧ t.envelope.kind = .event) (hs : sound s)
    (h : (held s).Journaled journal buried) (clock : Clock) :
    sound (deleteEvents r copies (s, clock)).2.1 ∧
      ∃ buried', (held (deleteEvents r copies (s, clock)).2.1).Journaled journal buried' ∧
        ((deleteEvents r copies (s, clock)).1.isOk →
          ∀ id, id ∈ buried' ↔ id ∈ copies.map StoredEnvelope.id ∨ id ∈ buried) := by
  induction copies generalizing s buried clock with
  | nil => exact ⟨hs, buried, h, by simp⟩
  | cons t rest ih =>
      obtain ⟨ht, hkind⟩ := hcopies t List.mem_cons_self
      have hwrites := hb.replace s t.id (some (t.envelope.tombstone clock.next)) hs
      have hrest : ∀ t ∈ rest, t ∈ journal ∧ t.envelope.kind = .event :=
        fun t ht => hcopies t (List.mem_cons_of_mem _ ht)
      rw [deleteEvents_cons]
      rcases hreplace : r.replace t.id (some (t.envelope.tombstone clock.next)) s with
        ⟨err | flag, s'⟩
      · rw [hreplace] at hwrites
        rcases hwrites.effect with heffect | ⟨-, hheld⟩
        · cases (Prod.ext_iff.mp heffect).1
        · exact ⟨hwrites.sound, buried, hheld ▸ h, by simp [Except.isOk, Except.toBool]⟩
      · rw [hreplace] at hwrites
        have h' : (held s').Journaled journal (t.id :: buried) := by
          rcases hwrites.effect with heffect | ⟨⟨err, herr⟩, -⟩
          · have hheld := (Prod.ext_iff.mp heffect).2
            dsimp only at hheld
            rw [hheld]
            exact h.bury ht hkind clock.next
          · cases herr
        obtain ⟨hsound, buried', hburied, hall⟩ := ih hrest hwrites.sound h' clock.advance
        refine ⟨hsound, buried', hburied, fun hok id => ?_⟩
        rw [hall hok, List.map_cons, List.mem_cons, List.mem_cons]
        tauto

/-- Copies of snapshots, however stale, take away the snapshots under their ids. -/
theorem journaled_deleteSnapshots (hb : r.Backed held sound) (copies : List StoredEnvelope)
    (hcopies : ∀ t ∈ copies, ∃ n ∈ journal, n.id = t.id ∧ n.envelope.kind = .snapshot)
    (hs : sound s) (h : (held s).Journaled journal buried) :
    sound (deleteSnapshots r copies s).2 ∧
      (held (deleteSnapshots r copies s).2).Journaled journal buried := by
  induction copies generalizing s with
  | nil => exact ⟨hs, h⟩
  | cons t rest ih =>
      obtain ⟨n, hn, hid, hkind⟩ := hcopies t List.mem_cons_self
      have hwrites := hb.replace s t.id none hs
      rw [deleteSnapshots, Fallible.bind_apply]
      rcases hreplace : r.replace t.id none s with ⟨err | flag, s'⟩ <;> rw [hreplace] at hwrites
      · rcases hwrites.effect with heffect | ⟨-, hheld⟩
        · cases (Prod.ext_iff.mp heffect).1
        · exact ⟨hwrites.sound, hheld ▸ h⟩
      · refine ih (fun t ht => hcopies t (List.mem_cons_of_mem _ ht)) hwrites.sound ?_
        rcases hwrites.effect with heffect | ⟨⟨err, herr⟩, -⟩
        · have hheld := (Prod.ext_iff.mp heffect).2
          dsimp only at hheld
          rw [hheld, ← hid]
          exact h.remove hn hkind
        · cases herr

end EventService

/-- A thing that is added to the cart, at the wish of a request. -/
def MemoryEvents.addition : NewEvent :=
  ⟨cart, cartEvent.typeName, .bool true, some "r1"⟩

end Chronicle
