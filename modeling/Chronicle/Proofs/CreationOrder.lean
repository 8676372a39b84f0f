import Chronicle.Proofs.EventArchive
import Chronicle.Proofs.Journal
import Chronicle.Proofs.Selection
import Chronicle.Registry.Fault

set_option autoImplicit false

/-!
# The order of creation

One service with one clock writes everything that a registry holds; any of the writes may fail, and
the wall clock may repeat itself or go back. Main statement: what is stored was created in the
order in which it was stored, a batch that fails has stored its first events, and the events of an
entity are listed in that order, after an event exactly those that were stored after it
(`creation_order`).
-/

namespace Chronicle

theorem Timestamp.lt_trans {t u v : Timestamp} (h : t < u) (h' : u < v) : t < v :=
  Int.lt_trans (a := t.slot) h h'

namespace Clock

/-- Each instant that a clock hands out is later than the one before, whatever the wall clock. -/
theorem next_lt_next_advance (c : Clock) : c.next < c.advance.next := by
  have hnext : c.advance.next =
      if c.reading (c.taken + 1) ≤ c.next then c.next.next else c.reading (c.taken + 1) := rfl
  rw [hnext]
  split
  · exact c.next.lt_next
  · next hlater => exact Int.not_le.mp hlater

end Clock

/-- Entries that were created one after another, all before the next instant of the clock. -/
structure Timed (journal : List StoredEnvelope) (clock : Clock) : Prop where
  increasing : journal.Pairwise fun s t => s.envelope.createdAt < t.envelope.createdAt
  past : ∀ s ∈ journal, s.envelope.createdAt < clock.next

namespace Timed

variable {journal : List StoredEnvelope} {clock : Clock}

theorem nil (clock : Clock) : Timed [] clock := ⟨List.Pairwise.nil, fun _ hs => (nomatch hs)⟩

theorem advance (h : Timed journal clock) : Timed journal clock.advance where
  increasing := h.increasing
  past s hs := Timestamp.lt_trans (h.past s hs) clock.next_lt_next_advance

/-- An entry with the next stamp comes after all others. -/
theorem append (h : Timed journal clock) {s : StoredEnvelope}
    (hs : s.envelope.createdAt = clock.next) : Timed (journal ++ [s]) clock.advance where
  increasing := by
    refine List.pairwise_append.mpr ⟨h.increasing, List.pairwise_singleton _ s, ?_⟩
    intro t ht u hu
    rw [List.mem_singleton.mp hu, hs]
    exact h.past t ht
  past t ht := by
    rcases List.mem_append.mp ht with ht | ht
    · exact h.advance.past t ht
    · rw [List.mem_singleton.mp ht, hs]
      exact clock.next_lt_next_advance

end Timed

namespace EventService

variable {σ : Type} {journal : List StoredEnvelope} {clock : Clock}

theorem timed_store (r : EventRegistry σ) (events : List NewEvent) (s : σ)
    (h : Timed journal clock) :
    Timed (journal ++ accepted r events (s, clock)) (store r events (s, clock)).2.2 := by
  induction events generalizing s journal clock with
  | nil =>
      rw [accepted, List.append_nil]
      exact h
  | cons e rest ih =>
      rw [accepted, store_cons, storeOne_apply]
      rcases r.store (e.stamped clock.next) s with ⟨err | id, s'⟩
      · -- the instant is spent, although nothing is stored with it
        rw [List.append_nil]
        exact h.advance
      · have hrest := ih s' (h.append (s := ⟨id, e.stamped clock.next⟩) rfl)
        rw [List.append_assoc] at hrest
        exact hrest

theorem timed_storeSnapshot (r : EventRegistry σ) (n : NewSnapshot) (s : σ)
    (h : Timed journal clock) :
    Timed (journal ++ (storeSnapshot r n (s, clock)).1.toOption.toList)
      (storeSnapshot r n (s, clock)).2.2 := by
  rw [storeSnapshot_apply]
  rcases r.store (n.stamped clock.next) s with ⟨err | id, s'⟩
  · show Timed (journal ++ []) clock.advance
    rw [List.append_nil]
    exact h.advance
  · exact h.append rfl

theorem timed_deleteEvents (r : EventRegistry σ) (copies : List StoredEnvelope) (s : σ)
    (h : Timed journal clock) : Timed journal (deleteEvents r copies (s, clock)).2.2 := by
  induction copies generalizing s clock with
  | nil => exact h
  | cons t rest ih =>
      rw [deleteEvents_cons]
      rcases r.replace t.id (some (t.envelope.tombstone clock.next)) s with ⟨err | flag, s'⟩
      · exact h.advance
      · exact ih s' h.advance

end EventService

theorem StoredEnvelope.compare_oldestFirst {s t : StoredEnvelope}
    (h : s.envelope.createdAt < t.envelope.createdAt) :
    StoredEnvelope.compare .oldestFirst s t = .lt := by
  have htime : Ord.compare s.envelope.createdAt t.envelope.createdAt = .lt :=
    Int.compare_eq_lt.mpr h
  rw [StoredEnvelope.compare, htime]
  rfl

namespace MemoryEvents

variable {m : MemoryEvents} {journal : List StoredEnvelope} {buried : List UniqueId}

/-- Whether an entry of a journal is an event of the entity that has not been deleted. -/
def isLiveEventOf (m : MemoryEvents) (entity : EntityKey) (s : StoredEnvelope) : Bool :=
  decide (s.envelope.kind = .event) && decide (s.envelope.entity = entity) &&
    (OrderedMap.find? s.id m.ledger.events.items).any fun e => !e.isDeleted

/-- What is stored and live is what the journal has of it. -/
theorem Journaled.mem_liveEvents (h : m.Journaled journal buried) (entity : EntityKey)
    (range : TimeRange) (s : StoredEnvelope) :
    s ∈ (EventQuery.liveEvents entity range).filter m.ledger.allRecords ↔
      s ∈ journal ∧ m.isLiveEventOf entity s = true ∧
        range.contains s.envelope.createdAt = true := by
  obtain ⟨c, hc, hj⟩ := h.contents
  have hfound := hc.find?_eq_some_iff .event s.id
  rw [EventQuery.filter, List.mem_filter, hc.mem_allRecords, EventQuery.matches_liveEvents]
  simp only [isLiveEventOf, Bool.and_eq_true, decide_eq_true_eq, Option.any_eq_true]
  constructor
  · rintro ⟨hs, hkind, hentity, hrange, hlive⟩
    have hitem := (hfound s.envelope).mpr ⟨hs, hkind⟩
    exact ⟨hj.mem_of_live hs hlive, ⟨⟨hkind, hentity⟩, s.envelope, hitem, by simp [hlive]⟩, hrange⟩
  · rintro ⟨hs, ⟨⟨hkind, hentity⟩, e, he, hlive⟩, hrange⟩
    have hlive : e.isDeleted = false := by simpa using hlive
    obtain ⟨hstored, -⟩ := (hfound e).mp he
    -- a live envelope is no tombstone, so it is what was stored
    rcases hj.event_cases hs hkind with hc' | ⟨deletedAt, hc'⟩
    · rw [hc'] at hstored
      cases hstored
      exact ⟨hc', hkind, hentity, hrange, hlive⟩
    · rw [hc'] at hstored
      cases hstored
      cases hlive

/-- The live events of an entity are answered in the order in which they were stored. -/
theorem Journaled.query_liveEvents (h : m.Journaled journal buried)
    (increasing : journal.Pairwise fun s t => s.envelope.createdAt < t.envelope.createdAt)
    (entity : EntityKey) (range : TimeRange) :
    registry.query (.liveEvents entity range) .oldestFirst none m =
      (.ok (journal.filter fun s =>
        m.isLiveEventOf entity s && range.contains s.envelope.createdAt), m) := by
  obtain ⟨c, hc, hj⟩ := h.contents
  -- the query finds the live entries in some order, and the journal has them in the right one
  have hperm : ((EventQuery.liveEvents entity range).filter m.ledger.allRecords).Perm
      (journal.filter fun s =>
        m.isLiveEventOf entity s && range.contains s.envelope.createdAt) := by
    have hnodup : ((EventQuery.liveEvents entity range).filter m.ledger.allRecords).Nodup :=
      hc.nodup_allRecords.of_map.filter _
    refine (List.perm_ext_iff_of_nodup hnodup (hj.distinct.of_map.filter _)).mpr fun s => ?_
    rw [h.mem_liveEvents, List.mem_filter, Bool.and_eq_true]
  have hsorted : (journal.filter fun s =>
      m.isLiveEventOf entity s && range.contains s.envelope.createdAt).Pairwise
        fun s t => StoredEnvelope.compare .oldestFirst s t = .lt :=
    (increasing.imp StoredEnvelope.compare_oldestFirst).filter _
  rw [query_eq_scan hc]
  show (Except.ok (stableSort (fun a b => StoredEnvelope.compare .oldestFirst a b == .lt)
    ((EventQuery.liveEvents entity range).filter m.ledger.allRecords)), m) = _
  rw [stableSort_eq_of_perm hsorted hperm]

end MemoryEvents

/-! ## Registries that write as the one in memory does -/

/-- An archive writes as its memory does, or fails and takes back what it had done. -/
theorem EventArchive.backed :
    EventArchive.registry.Backed EventArchive.memory EventArchive.Consistent where
  store _ e hs fresh := ⟨(store_follows hs fresh e).consistent, (store_follows hs fresh e).effect⟩
  replace _ id replacement hs :=
    ⟨(replace_follows hs id replacement).consistent, (replace_follows hs id replacement).effect⟩
  query _ _ _ _ hs := ⟨hs, rfl⟩

section Faults

open Fault

variable {σ α : Type} {held : σ → MemoryEvents} {sound : σ → Prop}

/-- Faults that do no more than let writes fail. -/
def FailingWrites (faults : List Fault) : Prop :=
  ∀ f ∈ faults, f.effect = .fails ∧ (f.method = .store ∨ f.method = .replace)

theorem FailingWrites.decide?_cases {faults : List Fault} (h : FailingWrites faults) (m : Method)
    (calls : List Method) :
    decide? faults m calls = none ∨
      decide? faults m calls = some .fails ∧ (m = .store ∨ m = .replace) := by
  rw [decide?]
  cases hfound : faults.find? fun f => f.hits m (calls.count m) with
  | none => exact Or.inl rfl
  | some f =>
      obtain ⟨heffect, hmethod⟩ := h f (List.mem_of_find?_eq_some hfound)
      have hhits := List.find?_some hfound
      simp only [hits, Bool.and_eq_true, beq_iff_eq] at hhits
      rw [Option.map_some, heffect, ← hhits.1]
      exact Or.inr ⟨rfl, hmethod⟩

/-- A write under such faults is done as without them, or fails. -/
theorem FailingWrites.writesAs {faults : List Fault} (h : FailingWrites faults) {m : Method}
    {replaced : Misbehaviour → Option (Call σ α)} {e : RegistryError}
    (hfails : replaced .fails = some (.fail e)) {call : Call MemoryEvents α} {actual : Call σ α}
    {s : Watched σ} (hs : sound s.1) (hwrites : WritesAs held sound call s.1 (actual s.1)) :
    WritesAs (fun s : Watched σ => held s.1) (fun s => sound s.1) call s
      (watch faults m replaced actual s) := by
  rcases h.decide?_cases m s.2 with hnone | ⟨hsome, -⟩
  · rw [watch, hnone]
    exact ⟨hwrites.sound, hwrites.effect⟩
  · rw [watch, hsome, Option.bind_some, hfails]
    exact ⟨hs, Or.inr ⟨⟨e, rfl⟩, rfl⟩⟩

theorem EventRegistry.Backed.withFaults {r : EventRegistry σ} (hb : r.Backed held sound)
    {faults : List Fault} (h : FailingWrites faults) :
    (r.withFaults faults).Backed (fun s => held s.1) fun s => sound s.1 where
  store s e hs fresh := h.writesAs rfl hs (hb.store s.1 e hs fresh)
  replace s id replacement hs := h.writesAs rfl hs (hb.replace s.1 id replacement hs)
  query s q order limit hs := by
    have hquery := hb.query s.1 q order limit hs
    rcases h.decide?_cases .query s.2 with hnone | ⟨-, hmethod⟩
    · simp only [EventRegistry.withFaults, watch, hnone]
      exact hquery
    · rcases hmethod with hmethod | hmethod <;> cases hmethod

end Faults

/-! ## Runs of a service -/

open EventService in
/--
The states of a registry that starts empty and of the clock of the one service that writes to it,
with the journal of what the registry accepted, and the events that were handed out to be deleted.
Deletions are given copies of those. Between the calls the registry may change in whatever decides
whether a write will fail, but not in what it holds; the ids that it hands out are all different.
-/
inductive ServiceRun {σ : Type} (r : EventRegistry σ) (held : σ → MemoryEvents)
    (sound : σ → Prop) : σ × Clock → List StoredEnvelope → List StoredEnvelope → Prop
  | start {s : σ} {issue : Nat → UniqueId} (clock : Clock) (hs : sound s)
      (empty : held s = ⟨.empty, ⟨issue, 0⟩⟩) : ServiceRun r held sound (s, clock) [] []
  | store {s : σ × Clock} {journal handed : List StoredEnvelope}
      (h : ServiceRun r held sound s journal handed) (events : List NewEvent)
      (fresh : ((held s.1).ids.taken events.length).Nodup) :
      ServiceRun r held sound (store r events s).2 (journal ++ accepted r events s)
        (handed ++ (store r events s).1.toOption.getD [])
  | storeSnapshot {s : σ × Clock} {journal handed : List StoredEnvelope}
      (h : ServiceRun r held sound s journal handed) (n : NewSnapshot)
      (fresh : ((held s.1).ids.taken 1).Nodup) :
      ServiceRun r held sound (storeSnapshot r n s).2
        (journal ++ (storeSnapshot r n s).1.toOption.toList) handed
  | findEvents {s : σ × Clock} {journal handed : List StoredEnvelope}
      (h : ServiceRun r held sound s journal handed) (entity : EntityKey)
      (createdAt : Timestamp) :
      ServiceRun r held sound ((findEvents r entity createdAt s.1).2, s.2) journal
        (handed ++ (findEvents r entity createdAt s.1).1.toOption.getD [])
  | deleteEvents {s : σ × Clock} {journal handed : List StoredEnvelope}
      (h : ServiceRun r held sound s journal handed) (copies : List StoredEnvelope)
      (hcopies : copies ⊆ handed) :
      ServiceRun r held sound (deleteEvents r copies s).2 journal handed
  | meanwhile {s : σ × Clock} {journal handed : List StoredEnvelope}
      (h : ServiceRun r held sound s journal handed) (s' : σ) (hs : sound s')
      (same : held s' = held s.1) : ServiceRun r held sound (s', s.2) journal handed

namespace ServiceRun

open EventService MemoryEvents

variable {σ : Type} {r : EventRegistry σ} {held : σ → MemoryEvents} {sound : σ → Prop}
  {s : σ × Clock} {journal handed : List StoredEnvelope}

/-- What every state of a run has. -/
structure Ordered (held : σ → MemoryEvents) (sound : σ → Prop) (s : σ × Clock)
    (journal handed : List StoredEnvelope) : Prop where
  sound : sound s.1
  journaled : ∃ buried, (held s.1).Journaled journal buried
  timed : Timed journal s.2
  handed : ∀ t ∈ handed, t ∈ journal ∧ t.envelope.kind = .event

/-- What is found to be deleted is in the journal. -/
theorem Ordered.findEvents (hb : r.Backed held sound) (h : Ordered held sound s journal handed)
    (entity : EntityKey) (createdAt : Timestamp) :
    Ordered held sound ((EventService.findEvents r entity createdAt s.1).2, s.2) journal
      (handed ++ (EventService.findEvents r entity createdAt s.1).1.toOption.getD []) := by
  obtain ⟨buried, hjournaled⟩ := h.journaled
  have hfind : EventService.findEvents r entity createdAt =
      r.query (.liveEvents entity { since := some createdAt, upTo := some createdAt })
        .oldestFirst none := rfl
  obtain ⟨hs, hquery⟩ := hb.query s.1
    (.liveEvents entity { since := some createdAt, upTo := some createdAt }) .oldestFirst none
    h.sound
  obtain ⟨hanswer, hheld⟩ := Prod.ext_iff.mp hquery
  dsimp only at hanswer hheld
  rw [hfind, hanswer]
  refine ⟨hs, ⟨buried, hheld ▸ hjournaled⟩, h.timed, fun t ht => ?_⟩
  rcases List.mem_append.mp ht with ht | ht
  · exact h.handed t ht
  · exact hjournaled.event_of_mem_liveEvents ht

/-- What a batch answers was accepted. -/
theorem Ordered.store (hb : r.Backed held sound) (h : Ordered held sound s journal handed)
    (events : List NewEvent) (fresh : ((held s.1).ids.taken events.length).Nodup) :
    Ordered held sound (EventService.store r events s).2 (journal ++ accepted r events s)
      (handed ++ (EventService.store r events s).1.toOption.getD []) := by
  obtain ⟨buried, hjournaled⟩ := h.journaled
  obtain ⟨hs, hjournaled⟩ := journaled_store hb events h.sound hjournaled fresh s.2
  refine ⟨hs, ⟨buried, hjournaled⟩, timed_store r events s.1 h.timed, fun t ht => ?_⟩
  rcases List.mem_append.mp ht with ht | ht
  · exact ⟨List.mem_append_left _ (h.handed t ht).1, (h.handed t ht).2⟩
  · rcases store_answer (r := r) events s with ⟨hok, -⟩ | ⟨⟨e, herr⟩, -⟩
    · rw [hok] at ht
      exact ⟨List.mem_append_right _ ht, event_of_mem_accepted ht⟩
    · rw [herr] at ht
      cases ht

theorem ordered (hb : r.Backed held sound) (h : ServiceRun r held sound s journal handed) :
    Ordered held sound s journal handed := by
  -- by induction on the calls; the clock and the registry go on independently of each other
  induction h with
  | start clock hs empty =>
      refine ⟨hs, ⟨[], ?_⟩, .nil clock, fun t ht => (nomatch ht)⟩
      rw [empty]
      exact MemoryEvents.journaled_empty _
  | store _ events fresh ih => exact ih.store hb events fresh
  | @storeSnapshot s journal handed _ n fresh ih =>
      obtain ⟨buried, hjournaled⟩ := ih.journaled
      obtain ⟨hs, hjournaled⟩ := journaled_storeSnapshot hb n ih.sound hjournaled fresh s.2
      exact ⟨hs, ⟨buried, hjournaled⟩, timed_storeSnapshot r n s.1 ih.timed, fun t ht =>
        ⟨List.mem_append_left _ (ih.handed t ht).1, (ih.handed t ht).2⟩⟩
  | findEvents _ entity createdAt ih => exact ih.findEvents hb entity createdAt
  | @deleteEvents s journal handed _ copies hcopies ih =>
      obtain ⟨buried, hjournaled⟩ := ih.journaled
      obtain ⟨hs, buried', hjournaled, -⟩ := journaled_deleteEvents hb copies
        (fun t ht => ih.handed t (hcopies ht)) ih.sound hjournaled s.2
      exact ⟨hs, ⟨buried', hjournaled⟩, timed_deleteEvents r copies s.1 ih.timed, ih.handed⟩
  | meanwhile _ s' hs same ih =>
      obtain ⟨buried, hjournaled⟩ := ih.journaled
      exact ⟨hs, ⟨buried, same ▸ hjournaled⟩, ih.timed, ih.handed⟩

/-- What is created after an entry of a journal is what stands behind it. -/
theorem filter_after {before after : List StoredEnvelope} {x : StoredEnvelope}
    (increasing : (before ++ x :: after).Pairwise
      fun s t => s.envelope.createdAt < t.envelope.createdAt) (p : StoredEnvelope → Bool) :
    ((before ++ x :: after).filter fun t =>
        p t && (some x.envelope.createdAt).all fun bound => bound < t.envelope.createdAt) =
      after.filter p := by
  rw [List.pairwise_append, List.pairwise_cons] at increasing
  obtain ⟨-, ⟨hafter, -⟩, hbefore⟩ := increasing
  -- nothing up to the entry was created after it, the entry itself included
  have hearlier : ∀ t ∈ before ++ [x], ¬x.envelope.createdAt < t.envelope.createdAt := by
    intro t ht hlt
    rcases List.mem_append.mp ht with ht | ht
    · exact Int.lt_irrefl _ (Timestamp.lt_trans hlt (hbefore t ht x List.mem_cons_self))
    · rw [List.mem_singleton.mp ht] at hlt
      exact Int.lt_irrefl _ hlt
  have hsplit : before ++ x :: after = (before ++ [x]) ++ after := by simp
  rw [hsplit, List.filter_append, List.filter_eq_nil_iff.mpr, List.nil_append]
  · refine List.filter_congr fun t ht => ?_
    simp [hafter t ht]
  · intro t ht
    simp [hearlier t ht]

/-- What is listed of an entity, behind an instant if one is given. -/
theorem Ordered.eventsOf_answer (hb : r.Backed held sound) (h : Ordered held sound s journal handed)
    (entity : EntityKey) (after : Option Timestamp) :
    (eventsOf r entity after s.1).1 = .ok (journal.filter fun t =>
      (held s.1).isLiveEventOf entity t &&
        after.all fun bound => bound < t.envelope.createdAt) := by
  obtain ⟨buried, hjournaled⟩ := h.journaled
  obtain ⟨-, hquery⟩ := hb.query s.1 (.liveEvents entity { after }) .oldestFirst none h.sound
  rw [hjournaled.query_liveEvents h.timed.increasing] at hquery
  have hanswer := congrArg Prod.fst hquery
  dsimp only at hanswer
  have hlist : eventsOf r entity after = r.query (.liveEvents entity { after }) .oldestFirst none :=
    rfl
  rw [hlist, hanswer]
  simp [TimeRange.contains]

/--
Whatever the wall clock reads and whichever writes fail: entries were created one after another,
in the order in which they were stored; the events of the registry are those of the journal, as
they were stored or as tombstones; of a batch the registry accepts the first events, and all of
them unless the call fails; the live events of an entity are listed in the order in which they
were stored; and what is listed after the creation of an entry is what was stored after it.
-/
theorem creation_order (hb : r.Backed held sound) (h : ServiceRun r held sound s journal handed) :
    (journal.Pairwise fun x y => x.envelope.createdAt < y.envelope.createdAt) ∧
    (∀ id e, OrderedMap.find? id (held s.1).ledger.events.items = some e →
      ∃ x ∈ journal, x.id = id ∧
        (e = x.envelope ∨ ∃ deletedAt, e = x.envelope.tombstone deletedAt)) ∧
    (∀ x ∈ journal, x.envelope.kind = .event →
      (OrderedMap.find? x.id (held s.1).ledger.events.items).isSome) ∧
    (∀ events,
      List.Forall₂ (fun x e => ∃ createdAt, x.envelope = e.stamped createdAt)
          (accepted r events s) (events.take (accepted r events s).length) ∧
        ((EventService.store r events s).1 = .ok (accepted r events s) ∧
            (accepted r events s).length = events.length ∨
          (∃ e, (EventService.store r events s).1 = .error e) ∧
            (accepted r events s).length < events.length)) ∧
    (∀ entity, (eventsOf r entity none s.1).1 =
      .ok (journal.filter ((held s.1).isLiveEventOf entity))) ∧
    (∀ entity before x after, journal = before ++ x :: after →
      (eventsOf r entity (some x.envelope.createdAt) s.1).1 =
        .ok (after.filter ((held s.1).isLiveEventOf entity))) := by
  have ho := h.ordered hb
  obtain ⟨buried, hjournaled⟩ := ho.journaled
  obtain ⟨c, hc, hj⟩ := hjournaled.contents
  refine ⟨ho.timed.increasing, ?_, ?_, fun events => ⟨accepted_stamped events s,
    store_answer events s⟩, ?_, ?_⟩
  · intro id e he
    exact hj.origin id e ((hc.find?_eq_some_iff .event id e).mp he).1
  · intro x hx hkind
    rw [Option.isSome_iff_exists]
    rcases hj.event_cases hx hkind with hstored | ⟨deletedAt, hstored⟩
    · exact ⟨_, (hc.find?_eq_some_iff .event x.id _).mpr ⟨hstored, hkind⟩⟩
    · exact ⟨_, (hc.find?_eq_some_iff .event x.id _).mpr ⟨hstored, hkind⟩⟩
  · intro entity
    rw [ho.eventsOf_answer hb]
    simp
  · intro entity before x after hsplit
    rw [ho.eventsOf_answer hb, hsplit]
    exact congrArg Except.ok (filter_after (hsplit ▸ ho.timed.increasing) _)

/-! ## A batch that fails while the wall clock goes back -/

/-- The registry in memory, the second store of which fails. -/
def failingOnce : EventRegistry (Watched MemoryEvents) :=
  MemoryEvents.registry.withFaults [⟨.store, some [1], .fails⟩]

/-- A snapshot of the wallet. -/
def newSnapshot : NewSnapshot := ⟨wallet, walletSnapshot.typeName, .null, ⟨2⟩⟩

/-- The addition as it was stored under a number. -/
def storedAddition (n : Nat) (createdAt : Timestamp) : StoredEnvelope :=
  ⟨.ofNat n, addition.stamped createdAt⟩

/-- Of two additions one is stored; after a snapshot two more are, and the first is deleted. -/
theorem creation_order_failingOnce :
    ∃ s journal handed,
      ServiceRun failingOnce (fun s => s.1) (fun _ => True) s journal handed ∧
        journal.map (fun t => t.envelope.createdAt) = [⟨10⟩, ⟨12⟩, ⟨13⟩, ⟨14⟩] ∧
        (eventsOf failingOnce cart none s.1).1 =
          .ok [storedAddition 2 ⟨13⟩, storedAddition 3 ⟨14⟩] ∧
        (eventsOf failingOnce cart (some ⟨13⟩) s.1).1 =
          .ok [storedAddition 3 ⟨14⟩] := by
  have hfaults : FailingWrites [⟨.store, some [1], .fails⟩] := by
    intro f hf
    rw [List.mem_singleton.mp hf]
    exact ⟨rfl, Or.inl rfl⟩
  have hb : failingOnce.Backed (fun s => s.1) fun _ => True :=
    MemoryEvents.backed.withFaults hfaults
  have h₁ : ServiceRun failingOnce (fun s => s.1) (fun _ => True)
      ((⟨.empty, ⟨.ofNat, 0⟩⟩, []), { reading := fun n => ⟨10 - n⟩ }) [] [] :=
    .start _ trivial rfl
  have h₂ := h₁.store [addition, addition] (by decide +kernel)
  have h₃ := h₂.storeSnapshot newSnapshot (by decide +kernel)
  have h₄ := h₃.store [addition, addition] (by decide +kernel)
  have h₅ := h₄.findEvents cart ⟨10⟩
  have h₆ := h₅.deleteEvents [storedAddition 0 ⟨10⟩] (List.subset_append_right _ _)
  obtain ⟨-, -, -, -, hall, hbehind⟩ := creation_order hb h₆
  refine ⟨_, _, _, h₆, rfl, hall cart, ?_⟩
  exact hbehind cart
    [storedAddition 0 ⟨10⟩, ⟨.ofNat 1, newSnapshot.stamped ⟨12⟩⟩] (storedAddition 2 ⟨13⟩)
    [storedAddition 3 ⟨14⟩] rfl

end ServiceRun

end Chronicle
