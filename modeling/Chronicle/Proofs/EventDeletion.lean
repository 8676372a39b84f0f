import Chronicle.Proofs.Journal

set_option autoImplicit false

/-!
# Deleting an event

An event is deleted with the snapshots that it went into: the service finds the live events of an
entity that were created at an instant and the snapshots that capture an event of that instant or a
later one, makes tombstones of the events and takes the snapshots away. Main statement: nothing of
the events is left in what the entity has, and nothing else changes
(`MemoryEvents.forgets_of_deleted`).
-/

namespace Chronicle

namespace Envelope

/-- A live event of an entity that was created at an instant. -/
structure IsLiveEventAt (e : Envelope) (entity : EntityKey) (t : Timestamp) : Prop where
  kind : e.kind = .event
  entity : e.entity = entity
  createdAt : e.createdAt = t
  live : e.isDeleted = false

/-- A snapshot of an entity that captures an event of an instant or a later one. -/
structure CapturesFrom (e : Envelope) (entity : EntityKey) (t : Timestamp) : Prop where
  kind : e.kind = .snapshot
  entity : e.entity = entity
  captured : ∃ captured, e.capturedAt = some captured ∧ t ≤ captured

variable {e : Envelope} {entity : EntityKey} {t : Timestamp}

/-- A tombstone is no live event. -/
theorem not_isLiveEventAt_tombstone (deletedAt : Timestamp) :
    ¬(e.tombstone deletedAt).IsLiveEventAt entity t := fun h => nomatch h.live

/-- An event, tombstone or not, captures nothing. -/
theorem not_capturesFrom_of_event (h : e.kind = .event) : ¬e.CapturesFrom entity t := by
  intro hcaptures
  have hkind := hcaptures.kind
  rw [h] at hkind
  cases hkind

end Envelope

namespace EventQuery

/-- The query for the snapshots of an entity. -/
theorem matches_snapshots (entity : EntityKey) (e : Envelope) :
    (snapshots.ofEntity entity).matchesEnvelope e = true ↔
      e.kind = .snapshot ∧ e.entity = entity := by
  rw [Envelope.entity_eq_iff]
  simp [matchesEnvelope, snapshots, ofEntity, TimeRange.contains, and_assoc]

/-- The query for what is to be deleted at an instant. -/
theorem matches_liveEvents_at (entity : EntityKey) (t : Timestamp) (e : Envelope) :
    (liveEvents entity { since := some t, upTo := some t }).matchesEnvelope e = true ↔
      e.IsLiveEventAt entity t := by
  have hrange : ({ since := some t, upTo := some t } : TimeRange).contains e.createdAt = true ↔
      e.createdAt = t := by
    simp only [TimeRange.contains, Option.all_none, Option.all_some, Bool.true_and, Bool.and_true,
      Bool.and_eq_true, decide_eq_true_eq]
    constructor
    · rintro ⟨hsince, hupTo⟩
      exact Timestamp.ext_slot (Int.le_antisymm hupTo hsince)
    · rintro rfl
      exact ⟨Int.le_refl _, Int.le_refl _⟩
  rw [matches_liveEvents, hrange]
  constructor
  · rintro ⟨hkind, hentity, hcreated, hlive⟩
    exact ⟨hkind, hentity, hcreated, hlive⟩
  · rintro ⟨hkind, hentity, hcreated, hlive⟩
    exact ⟨hkind, hentity, hcreated, hlive⟩

end EventQuery

namespace Contents

variable {c c' c'' : Contents} {entity : EntityKey} {t : Timestamp}

/-! ## Replacing copies -/

/-- What becomes of a map when copies of what stands in it are replaced, each by something that is
allowed for it. -/
structure Replaced (c : Contents) (copies : List StoredEnvelope)
    (allowed : Envelope → Option Envelope → Prop) (c' : Contents) : Prop where
  replaced : ∀ r ∈ copies, allowed r.envelope (c' r.id)
  kept : ∀ id ∉ copies.map StoredEnvelope.id, c' id = c id

variable {copies : List StoredEnvelope} {r : StoredEnvelope} {replacement : Option Envelope}
  {allowed : Envelope → Option Envelope → Prop}

theorem replaced_nil : c.Replaced [] allowed c where
  replaced _ hr := nomatch hr
  kept _ _ := rfl

theorem replace_of_stands (hstands : c r.id = some r.envelope) :
    c.replace r.id replacement = Function.update c r.id replacement :=
  if_pos (by rw [hstands]; rfl)

/-- One copy is replaced and then the others, which have other ids. -/
theorem Replaced.cons (hstands : c r.id = some r.envelope)
    (hallowed : allowed r.envelope replacement) (hother : r.id ∉ copies.map StoredEnvelope.id)
    (h : (c.replace r.id replacement).Replaced copies allowed c') :
    c.Replaced (r :: copies) allowed c' := by
  rw [replace_of_stands hstands] at h
  refine ⟨?_, ?_⟩
  · intro r' hr'
    rcases List.mem_cons.mp hr' with rfl | hr'
    · rw [h.kept r'.id hother, Function.update_self]
      exact hallowed
    · exact h.replaced r' hr'
  · intro id hid
    rw [List.map_cons, List.mem_cons, not_or] at hid
    rw [h.kept id hid.2, Function.update_of_ne hid.1]

/-- The other copies stand where they stood. -/
theorem stands_of_replace (hstands : ∀ r' ∈ r :: copies, c r'.id = some r'.envelope)
    (hother : r.id ∉ copies.map StoredEnvelope.id) :
    ∀ r' ∈ copies, c.replace r.id replacement r'.id = some r'.envelope := by
  intro r' hr'
  have hne : r'.id ≠ r.id := fun hid => hother (hid ▸ List.mem_map_of_mem hr')
  rw [replace_of_stands (hstands r List.mem_cons_self), Function.update_of_ne hne]
  exact hstands r' (List.mem_cons_of_mem _ hr')

/-! ## Forgetting the events of an instant -/

/-- What a map becomes once the events of an entity at an instant are deleted and nothing else. -/
structure Forgets (c : Contents) (entity : EntityKey) (t : Timestamp) (c' : Contents) : Prop where
  tombstone : ∀ id e, c id = some e → e.IsLiveEventAt entity t →
    ∃ deletedAt, c' id = some (e.tombstone deletedAt)
  removed : ∀ id e, c id = some e → e.CapturesFrom entity t → c' id = none
  kept : ∀ id, (∀ e, c id = some e → ¬e.IsLiveEventAt entity t ∧ ¬e.CapturesFrom entity t) →
    c' id = c id

/-- An id under which nothing stands that was found is not the id of anything found. -/
theorem not_mem_ids {found : List StoredEnvelope} {id : UniqueId}
    (hstands : ∀ r ∈ found, c r.id = some r.envelope)
    (hnone : ∀ e, c id = some e → (⟨id, e⟩ : StoredEnvelope) ∉ found) :
    id ∉ found.map StoredEnvelope.id := by
  intro hid
  obtain ⟨r, hr, rfl⟩ := List.mem_map.mp hid
  exact hnone r.envelope (hstands r hr) hr

/-- No snapshot is among the events that are found, so each stands where it stood. -/
theorem Replaced.snapshot_stands {events : List StoredEnvelope}
    (hevents : ∀ r, r ∈ events ↔ c r.id = some r.envelope ∧ r.envelope.IsLiveEventAt entity t)
    (h : c.Replaced events allowed c') (hr : c r.id = some r.envelope)
    (hkind : r.envelope.kind = .snapshot) : c' r.id = some r.envelope := by
  rw [h.kept r.id (not_mem_ids (fun r hr => ((hevents r).mp hr).1) ?_)]
  · exact hr
  · intro e he hmem
    rw [hr] at he
    obtain rfl := Option.some.inj he
    have hevent := ((hevents _).mp hmem).2.kind
    rw [hkind] at hevent
    cases hevent

/-- To forget is to replace what is found. -/
theorem forgets_of_replaced {events snapshots : List StoredEnvelope}
    (hevents : ∀ r, r ∈ events ↔ c r.id = some r.envelope ∧ r.envelope.IsLiveEventAt entity t)
    (hsnapshots : ∀ r, r ∈ snapshots ↔
      c r.id = some r.envelope ∧ r.envelope.CapturesFrom entity t)
    (hburied : c.Replaced events (fun e new => ∃ deletedAt, new = some (e.tombstone deletedAt)) c')
    (hremoved : c'.Replaced snapshots (fun _ new => new = none) c'') :
    c.Forgets entity t c'' := by
  have hevent : ∀ r ∈ events, c r.id = some r.envelope := fun r hr => ((hevents r).mp hr).1
  have hsnapshot : ∀ r ∈ snapshots, c r.id = some r.envelope :=
    fun r hr => ((hsnapshots r).mp hr).1
  refine ⟨?_, ?_, ?_⟩
  · intro id e he hlive
    obtain ⟨deletedAt, hc'⟩ := hburied.replaced ⟨id, e⟩ ((hevents _).mpr ⟨he, hlive⟩)
    refine ⟨deletedAt, ?_⟩
    rw [hremoved.kept id (not_mem_ids hsnapshot ?_)]
    · exact hc'
    · -- what stands there is an event
      intro e' he' hmem
      rw [he] at he'
      obtain rfl := Option.some.inj he'
      exact Envelope.not_capturesFrom_of_event hlive.kind ((hsnapshots _).mp hmem).2
  · intro id e he hcaptures
    exact hremoved.replaced ⟨id, e⟩ ((hsnapshots _).mpr ⟨he, hcaptures⟩)
  · intro id hspared
    have hnoEvent : id ∉ events.map StoredEnvelope.id :=
      not_mem_ids hevent fun e he hmem => (hspared e he).1 ((hevents _).mp hmem).2
    have hnoSnapshot : id ∉ snapshots.map StoredEnvelope.id :=
      not_mem_ids hsnapshot fun e he hmem => (hspared e he).2 ((hsnapshots _).mp hmem).2
    rw [hremoved.kept id hnoSnapshot, hburied.kept id hnoEvent]

namespace Forgets

variable (h : c.Forgets entity t c')
include h

/-- What stands stood there before, or is the tombstone of what did. -/
theorem cases {id : UniqueId} {e : Envelope} (he : c' id = some e) :
    (c id = some e ∧ ¬e.IsLiveEventAt entity t ∧ ¬e.CapturesFrom entity t) ∨
      ∃ old deletedAt, c id = some old ∧ old.IsLiveEventAt entity t ∧
        e = old.tombstone deletedAt := by
  by_cases hspared : ∀ e, c id = some e → ¬e.IsLiveEventAt entity t ∧ ¬e.CapturesFrom entity t
  · rw [h.kept id hspared] at he
    exact Or.inl ⟨he, hspared e he⟩
  · simp only [not_forall, not_and_or, not_not] at hspared
    obtain ⟨old, hold, hlive | hcaptures⟩ := hspared
    · obtain ⟨deletedAt, hc'⟩ := h.tombstone id old hold hlive
      rw [hc'] at he
      exact Or.inr ⟨old, deletedAt, hold, hlive, (Option.some.inj he).symm⟩
    · rw [h.removed id old hold hcaptures] at he
      cases he

/-- Nothing is left to be forgotten. -/
theorem nothing_left {id : UniqueId} {e : Envelope} (he : c' id = some e) :
    ¬e.IsLiveEventAt entity t ∧ ¬e.CapturesFrom entity t := by
  rcases h.cases he with ⟨-, hspared⟩ | ⟨old, deletedAt, -, hlive, rfl⟩
  · exact hspared
  · exact ⟨Envelope.not_isLiveEventAt_tombstone _, Envelope.not_capturesFrom_of_event hlive.kind⟩

/-- Events stand where events stood. -/
theorem event_iff (id : UniqueId) :
    (∃ e, c' id = some e ∧ e.kind = .event) ↔ ∃ e, c id = some e ∧ e.kind = .event := by
  constructor
  · rintro ⟨e, he, hkind⟩
    rcases h.cases he with ⟨hold, -⟩ | ⟨old, -, hold, hlive, -⟩
    · exact ⟨e, hold, hkind⟩
    · exact ⟨old, hold, hlive.kind⟩
  · rintro ⟨e, he, hkind⟩
    by_cases hlive : e.IsLiveEventAt entity t
    · obtain ⟨deletedAt, hc'⟩ := h.tombstone id e he hlive
      exact ⟨_, hc', hkind⟩
    · refine ⟨e, ?_, hkind⟩
      rw [h.kept id ?_]
      · exact he
      · intro e' he'
        rw [he] at he'
        obtain rfl := Option.some.inj he'
        exact ⟨hlive, Envelope.not_capturesFrom_of_event hkind⟩

end Forgets

end Contents

namespace Ledger

variable {l l' : Ledger} {c c' : Contents}

/-- The map that a ledger represents. -/
def contents (l : Ledger) : Contents := fun id => l.find? id

theorem Represents.contents_eq (h : l.Represents c) : l.contents = c := funext h.find?_eq

theorem Represents.mem_ids (h : l.Represents c) (kind : EnvelopeKind) (id : UniqueId) :
    id ∈ (l.records kind).map StoredEnvelope.id ↔ ∃ e, c id = some e ∧ e.kind = kind := by
  rw [List.mem_map]
  constructor
  · rintro ⟨r, hr, rfl⟩
    exact ⟨r.envelope, (h.mem_records kind r).mp hr⟩
  · rintro ⟨e, he⟩
    exact ⟨⟨id, e⟩, (h.mem_records kind _).mpr he, rfl⟩

/-- Where records of a kind stand under the same ids there are as many of them. -/
theorem Represents.length_records_eq (h : l.Represents c) (h' : l'.Represents c')
    {kind : EnvelopeKind}
    (hsame : ∀ id, (∃ e, c' id = some e ∧ e.kind = kind) ↔ ∃ e, c id = some e ∧ e.kind = kind) :
    (l'.records kind).length = (l.records kind).length := by
  have hascending : ∀ {l : Ledger} {c : Contents}, l.Represents c →
      ((l.records kind).map StoredEnvelope.id).Pairwise fun i j => compare i j = .lt :=
    fun h => List.pairwise_map.mpr (Collection.ascending_records (h.collections kind))
  have hids : (l'.records kind).map StoredEnvelope.id = (l.records kind).map StoredEnvelope.id := by
    refine eq_of_ascending (fun id => id) (hascending h') (hascending h) fun id => ?_
    rw [h'.mem_ids, h.mem_ids, hsame]
  rw [← List.length_map StoredEnvelope.id, hids, List.length_map]

end Ledger

namespace MemoryEvents

open EventService

variable {s : MemoryEvents} {c : Contents}

/-! ## What is found -/

theorem findEvents_answer (h : s.ledger.Represents c) (entity : EntityKey) (t : Timestamp) :
    ∃ events, findEvents registry entity t s = (.ok events, s) ∧
      (events.map StoredEnvelope.id).Nodup ∧
      ∀ r, r ∈ events ↔ c r.id = some r.envelope ∧ r.envelope.IsLiveEventAt entity t := by
  obtain ⟨events, hanswer, hids, -, hfound⟩ := query_answer h
    (.liveEvents entity { since := some t, upTo := some t }) .oldestFirst
  refine ⟨events, hanswer, hids, fun r => ?_⟩
  rw [hfound, EventQuery.matches_liveEvents_at]

theorem findSnapshots_answer (h : s.ledger.Represents c) (entity : EntityKey) (t : Timestamp) :
    ∃ snapshots, findSnapshots registry entity t s = (.ok snapshots, s) ∧
      (snapshots.map StoredEnvelope.id).Nodup ∧
      ∀ r, r ∈ snapshots ↔ c r.id = some r.envelope ∧ r.envelope.CapturesFrom entity t := by
  obtain ⟨all, hanswer, hids, -, hfound⟩ := query_answer h (EventQuery.snapshots.ofEntity entity)
    .oldestFirst
  refine ⟨all.filter (captures t), ?_, ?_, fun r => ?_⟩
  · rw [findSnapshots, Fallible.bind_of_ok hanswer]
    rfl
  · exact hids.sublist (List.filter_sublist.map _)
  · rw [List.mem_filter, hfound, EventQuery.matches_snapshots, captures, Option.any_eq_true]
    simp only [decide_eq_true_eq]
    constructor
    · rintro ⟨⟨hstands, hkind, hentity⟩, hcaptured⟩
      exact ⟨hstands, hkind, hentity, hcaptured⟩
    · rintro ⟨hstands, hkind, hentity, hcaptured⟩
      exact ⟨⟨hstands, hkind, hentity⟩, hcaptured⟩

/-- The latest snapshot of an entity is one that stands. -/
theorem latestSnapshot_answer (h : s.ledger.Represents c) (entity : EntityKey) :
    ∃ latest, latestSnapshot registry entity s = (.ok latest, s) ∧
      ∀ r, latest = some r →
        c r.id = some r.envelope ∧ r.envelope.kind = .snapshot ∧ r.envelope.entity = entity := by
  refine ⟨_, latestSnapshot_eq_scan h _, fun r hr => ?_⟩
  obtain ⟨hmem, -⟩ := StoredEnvelope.latest?_spec hr
  obtain ⟨hstored, hmatches⟩ := List.mem_filter.mp hmem
  exact ⟨(h.mem_allRecords r).mp hstored, (EventQuery.matches_snapshots entity _).mp hmatches⟩

/-! ## What is deleted -/

/-- To delete copies of events that stand as they were found leaves a tombstone of each. -/
theorem replaced_of_deleteEvents (h : Reached s c) {copies : List StoredEnvelope}
    (hstands : ∀ r ∈ copies, c r.id = some r.envelope)
    (hids : (copies.map StoredEnvelope.id).Nodup) (clock : Clock) :
    ∃ s' clock' c', deleteEvents registry copies (s, clock) = (.ok (), (s', clock')) ∧
      Reached s' c' ∧ s'.ledger.dispatched = s.ledger.dispatched ∧
      c.Replaced copies (fun e new => ∃ deletedAt, new = some (e.tombstone deletedAt)) c' := by
  induction copies generalizing s c clock with
  | nil => exact ⟨s, clock, c, rfl, h, rfl, Contents.replaced_nil⟩
  | cons r rest ih =>
      obtain ⟨hother, hids⟩ := List.nodup_cons.mp hids
      obtain ⟨s', clock', c', hdelete, hreached, hdispatched, hreplaced⟩ :=
        ih (h.replace r.id (some (r.envelope.tombstone clock.next)))
          (Contents.stands_of_replace hstands hother) hids clock.advance
      refine ⟨s', clock', c', ?_, hreached, ?_, ?_⟩
      · rw [deleteEvents_cons]
        exact hdelete
      · rw [hdispatched]
        exact Ledger.dispatched_replace _ _ _
      · exact hreplaced.cons (hstands r List.mem_cons_self) ⟨_, rfl⟩ hother

/-- To delete copies of snapshots leaves none of them. -/
theorem replaced_of_deleteSnapshots (h : Reached s c) {copies : List StoredEnvelope}
    (hstands : ∀ r ∈ copies, c r.id = some r.envelope)
    (hids : (copies.map StoredEnvelope.id).Nodup) :
    ∃ s' c', deleteSnapshots registry copies s = (.ok (), s') ∧
      Reached s' c' ∧ s'.ledger.dispatched = s.ledger.dispatched ∧
      c.Replaced copies (fun _ new => new = none) c' := by
  induction copies generalizing s c with
  | nil => exact ⟨s, c, rfl, h, rfl, Contents.replaced_nil⟩
  | cons r rest ih =>
      obtain ⟨hother, hids⟩ := List.nodup_cons.mp hids
      obtain ⟨s', c', hdelete, hreached, hdispatched, hreplaced⟩ :=
        ih (h.replace r.id none) (Contents.stands_of_replace hstands hother) hids
      refine ⟨s', c', ?_, hreached, ?_, ?_⟩
      · rw [deleteSnapshots, Fallible.bind_apply]
        exact hdelete
      · rw [hdispatched]
        exact Ledger.dispatched_replace _ _ _
      · exact hreplaced.cons (hstands r List.mem_cons_self) rfl hother

/-- Without a query events are counted. -/
theorem count_events (h : s.ledger.Represents c) :
    registry.count none s = (.ok (s.ledger.records .event).length, s) := by
  have hall : EventQuery.events.filter (s.ledger.records .event) = s.ledger.records .event := by
    refine List.filter_eq_self.mpr fun r hr => ?_
    have hkind := ((h.mem_records .event r).mp hr).2
    simp [EventQuery.matchesEnvelope, EventQuery.events, TimeRange.contains, hkind]
  show (Except.ok (EventQuery.events.filter (s.ledger.records .event)).length, s) = _
  rw [hall]

/--
In every state that a registry in memory comes to, for every entity, instant and clock: the service
finds the live events of the entity at the instant and the snapshots that capture an event of that
instant or a later one; to delete the events and then the snapshots succeeds and leaves, under the
same ids, tombstones of the events and none of the snapshots, while what else stood under an id
still stands there, the dispatched ids are the same and so is the number of events. Nothing that is
left would be found again, and the latest snapshot of the entity captures an earlier event, if any.
-/
theorem forgets_of_deleted (h : Reached s c) (entity : EntityKey) (t : Timestamp) (clock : Clock) :
    ∃ events snapshots s₁ s' clock',
      findEvents registry entity t s = (.ok events, s) ∧
      findSnapshots registry entity t s = (.ok snapshots, s) ∧
      deleteEvents registry events (s, clock) = (.ok (), (s₁, clock')) ∧
      deleteSnapshots registry snapshots s₁ = (.ok (), s') ∧
      (∀ r, r ∈ events ↔
        s.ledger.contents r.id = some r.envelope ∧ r.envelope.IsLiveEventAt entity t) ∧
      (∀ r, r ∈ snapshots ↔
        s.ledger.contents r.id = some r.envelope ∧ r.envelope.CapturesFrom entity t) ∧
      s.ledger.contents.Forgets entity t s'.ledger.contents ∧
      s'.ledger.dispatched = s.ledger.dispatched ∧
      (∃ n, registry.count none s = (.ok n, s) ∧ registry.count none s' = (.ok n, s')) ∧
      (∀ r ∈ s'.ledger.allRecords,
        ¬r.envelope.IsLiveEventAt entity t ∧ ¬r.envelope.CapturesFrom entity t) ∧
      (∃ latest, latestSnapshot registry entity s' = (.ok latest, s') ∧
        ∀ r, latest = some r → ∀ captured, r.envelope.capturedAt = some captured → captured < t) ∧
      ∃ c', Reached s' c' := by
  have hr := represents_of_reached h
  obtain ⟨events, hfindEvents, heventIds, hevents⟩ := findEvents_answer hr entity t
  obtain ⟨snapshots, hfindSnapshots, hsnapshotIds, hsnapshots⟩ := findSnapshots_answer hr entity t
  obtain ⟨s₁, clock', c₁, hdeleteEvents, h₁, hdispatched₁, hburied⟩ :=
    replaced_of_deleteEvents h (fun r hr => ((hevents r).mp hr).1) heventIds clock
  have hstands : ∀ r ∈ snapshots, c₁ r.id = some r.envelope := by
    intro r hr
    obtain ⟨hstood, hcaptures⟩ := (hsnapshots r).mp hr
    exact hburied.snapshot_stands hevents hstood hcaptures.kind
  obtain ⟨s', c', hdeleteSnapshots, h', hdispatched', hremoved⟩ :=
    replaced_of_deleteSnapshots h₁ hstands hsnapshotIds
  have hr' := represents_of_reached h'
  have hforgets := Contents.forgets_of_replaced hevents hsnapshots hburied hremoved
  obtain ⟨latest, hlatest, hstandsLatest⟩ := latestSnapshot_answer hr' entity
  refine ⟨events, snapshots, s₁, s', clock', hfindEvents, hfindSnapshots, hdeleteEvents,
    hdeleteSnapshots, ?_, ?_, ?_, hdispatched'.trans hdispatched₁, ?_, ?_, ⟨latest, hlatest, ?_⟩,
    c', h'⟩
  · rwa [hr.contents_eq]
  · rwa [hr.contents_eq]
  · rwa [hr.contents_eq, hr'.contents_eq]
  · refine ⟨_, count_events hr, ?_⟩
    rw [count_events hr', hr.length_records_eq hr' hforgets.event_iff]
  · intro r hmem
    exact hforgets.nothing_left ((hr'.mem_allRecords r).mp hmem)
  · intro r hsome captured hcaptured
    obtain ⟨hstands, hkind, hentity⟩ := hstandsLatest r hsome
    refine Int.not_le.mp fun hle => ?_
    exact (hforgets.nothing_left hstands).2 ⟨hkind, hentity, captured, hcaptured, hle⟩

theorem admissible_cart_event : Name.Admissible .eventType "Cart" :=
  ⟨by decide, by decide, by decide, by decide⟩

/-- A snapshot of the cart. -/
def cartSnapshot (capturedAt : Timestamp) : Envelope :=
  .snapshot cart ⟨"Cart", admissible_cart_event⟩ .null ⟨5⟩ capturedAt

/-- A cart with two events and a snapshot after each; the second event was dispatched. -/
def visitedCart : MemoryEvents :=
  ⟨.ofRecords [⟨.ofNat 1, cartEvent⟩, ⟨.ofNat 2, addition.stamped ⟨2⟩⟩,
    ⟨.ofNat 3, cartSnapshot ⟨1⟩⟩, ⟨.ofNat 4, cartSnapshot ⟨2⟩⟩] [.ofNat 2], ⟨.ofNat, 5⟩⟩

/-- The second event goes with the second snapshot. -/
theorem forgets_of_deleted_cart :
    let clock : Clock := { reading := fun n => ⟨n⟩ }
    ∃ c, Reached visitedCart c ∧ ∃ s₁ s' clock',
      deleteEvents registry [⟨.ofNat 2, addition.stamped ⟨2⟩⟩] (visitedCart, clock) =
        (.ok (), (s₁, clock')) ∧
      deleteSnapshots registry [⟨.ofNat 4, cartSnapshot ⟨2⟩⟩] s₁ = (.ok (), s') ∧
      visitedCart.ledger.contents.Forgets cart ⟨2⟩ s'.ledger.contents := by
  intro clock
  have h : Reached visitedCart _ := Reached.fromRecords _ _ _
  have hevents : findEvents registry cart ⟨2⟩ visitedCart =
      (.ok [⟨.ofNat 2, addition.stamped ⟨2⟩⟩], visitedCart) := rfl
  have hsnapshots : findSnapshots registry cart ⟨2⟩ visitedCart =
      (.ok [⟨.ofNat 4, cartSnapshot ⟨2⟩⟩], visitedCart) := rfl
  obtain ⟨events, snapshots, s₁, s', clock', hfindEvents, hfindSnapshots, hdeleteEvents,
    hdeleteSnapshots, -, -, hforgets, -⟩ :=
    forgets_of_deleted h cart ⟨2⟩ clock
  rw [hevents] at hfindEvents
  cases hfindEvents
  rw [hsnapshots] at hfindSnapshots
  cases hfindSnapshots
  exact ⟨_, h, s₁, s', clock', hdeleteEvents, hdeleteSnapshots, hforgets⟩

end MemoryEvents

end Chronicle
