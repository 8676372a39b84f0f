import Chronicle.Proofs.Journal

set_option autoImplicit false

/-!
# The event log of many clients

Clients with clocks of their own share a registry in memory, their calls interleaved in any order.
They delete what earlier calls handed them, be it stale by then. Main statement: each event that
was ever stored stays under its id as it was stored, until a call deletes it; from then on it is a
tombstone (`events_stay`).
-/

namespace Chronicle

/-- What a client asks of the event service. -/
inductive EventCall
  | store (events : List NewEvent)
  | storeSnapshot (n : NewSnapshot)
  | eventsOf (entity : EntityKey) (after : Option Timestamp)
  | latestSnapshot (entity : EntityKey)
  | search (s : EventSearch)
  | entityIds (entityType : EntityTypeName) (limit : Nat) (cursor : Option Nat)
  | markDispatched (s : StoredEnvelope)
  | findEvents (entity : EntityKey) (createdAt : Timestamp)
  | findSnapshots (entity : EntityKey) (createdAt : Timestamp)
  | deleteEvents (copies : List StoredEnvelope)
  | deleteSnapshots (copies : List StoredEnvelope)
  | health

/-- What the event service answers. -/
inductive EventReply
  | envelopes (rs : List StoredEnvelope)
  | envelope (r : StoredEnvelope)
  | latest (r : Option StoredEnvelope)
  | found (fs : List FoundEvent)
  | page (ids : Page EntityId)
  | verdict (value : Bool)
  | done
  | health (report : HealthReport)

namespace EventCall

open EventService

/-- Hands a call to the service. -/
def serve {σ : Type} (r : EventRegistry σ) : EventCall → Call (σ × Clock) EventReply
  | .store events => .envelopes <$> EventService.store r events
  | .storeSnapshot n => .envelope <$> EventService.storeSnapshot r n
  | .eventsOf entity after => .envelopes <$> (EventService.eventsOf r entity after).onFirst
  | .latestSnapshot entity => .latest <$> (EventService.latestSnapshot r entity).onFirst
  | .search s => .found <$> (EventService.search r s).onFirst
  | .entityIds entityType limit cursor =>
      .page <$> (EventService.entityIds r entityType limit cursor).onFirst
  | .markDispatched s => .verdict <$> (EventService.markDispatched r s).onFirst
  | .findEvents entity createdAt =>
      .envelopes <$> (EventService.findEvents r entity createdAt).onFirst
  | .findSnapshots entity createdAt =>
      .envelopes <$> (EventService.findSnapshots r entity createdAt).onFirst
  | .deleteEvents copies => (fun _ => .done) <$> EventService.deleteEvents r copies
  | .deleteSnapshots copies =>
      (fun _ => .done) <$> (EventService.deleteSnapshots r copies).onFirst
  | .health => .health <$> (EventService.health r).onFirst

/-- How many ids a call may take. -/
def stores : EventCall → Nat
  | .store events => events.length
  | .storeSnapshot _ => 1
  | _ => 0

end EventCall

/-- A call of one of the clients, and the reply to it. -/
structure Exchange (κ : Type) where
  client : κ
  call : EventCall
  reply : Except RegistryError EventReply

namespace Exchange

variable {κ : Type}

/-- The events that a client may delete once it has the reply: those stored or found for that. -/
def events (x : Exchange κ) : List StoredEnvelope :=
  match x.call, x.reply with
  | .store _, .ok (.envelopes rs) => rs
  | .findEvents _ _, .ok (.envelopes rs) => rs
  | _, _ => []

/-- The snapshots that a client may delete once it has the reply. -/
def snapshots (x : Exchange κ) : List StoredEnvelope :=
  match x.call, x.reply with
  | .findSnapshots _ _, .ok (.envelopes rs) => rs
  | _, _ => []

/-- The ids of the events that were deleted. -/
def deleted (x : Exchange κ) : List UniqueId :=
  match x.call with
  | .deleteEvents copies => copies.map StoredEnvelope.id
  | _ => []

end Exchange

/-- A client deletes nothing but what was handed out before for that. -/
def EventCall.Allowed {κ : Type} (log : List (Exchange κ)) : EventCall → Prop
  | .deleteEvents copies => ∀ s ∈ copies, s ∈ log.flatMap Exchange.events
  | .deleteSnapshots copies => ∀ s ∈ copies, s ∈ log.flatMap Exchange.snapshots
  | _ => True

/--
The calls of all clients so far, in their order, and the registry and the clocks that they leave.
The registry starts empty, and its ids are all different.
-/
inductive EventLog {κ : Type} [DecidableEq κ] (issue : Nat → UniqueId) (clocks : κ → Clock) :
    List (Exchange κ) → MemoryEvents → (κ → Clock) → Prop
  | start : EventLog issue clocks [] ⟨.empty, ⟨issue, 0⟩⟩ clocks
  | call {log : List (Exchange κ)} {m : MemoryEvents} {now : κ → Clock}
      (h : EventLog issue clocks log m now) (client : κ) (call : EventCall)
      (allowed : call.Allowed log) (fresh : (m.ids.taken call.stores).Nodup) :
      EventLog issue clocks
        (log ++ [⟨client, call, (call.serve MemoryEvents.registry (m, now client)).1⟩])
        (call.serve MemoryEvents.registry (m, now client)).2.1
        (Function.update now client (call.serve MemoryEvents.registry (m, now client)).2.2)

/-- What a journal has of an exchange. -/
structure Exchange.Recorded {κ : Type} (journal : List StoredEnvelope) (x : Exchange κ) :
    Prop where
  events : ∀ s ∈ x.events, s ∈ journal ∧ s.envelope.kind = .event
  snapshots : ∀ s ∈ x.snapshots, ∃ n ∈ journal, n.id = s.id ∧ n.envelope.kind = .snapshot
  stored : ∀ events, x.call = .store events → ∃ rs, x.reply = .ok (.envelopes rs) ∧
    List.Forall₂ (fun s e => ∃ createdAt, s.envelope = e.stamped createdAt) rs events

theorem Exchange.Recorded.mono {κ : Type} {journal journal' : List StoredEnvelope}
    {x : Exchange κ} (h : x.Recorded journal) (hsub : journal ⊆ journal') :
    x.Recorded journal' where
  events s hs := ⟨hsub (h.events s hs).1, (h.events s hs).2⟩
  snapshots s hs := by
    obtain ⟨n, hn, hrest⟩ := h.snapshots s hs
    exact ⟨n, hsub hn, hrest⟩
  stored := h.stored

namespace EventCall

open EventService

variable {κ : Type} {m : MemoryEvents} {journal : List StoredEnvelope} {buried : List UniqueId}

/-- What one call does: the journal grows, and ids are buried as the call deletes them. -/
structure Extends (journal : List StoredEnvelope) (buried : List UniqueId) (x : Exchange κ)
    (m' : MemoryEvents) (journal' : List StoredEnvelope) (buried' : List UniqueId) : Prop where
  journaled : m'.Journaled journal' buried'
  grows : journal ⊆ journal'
  recorded : x.Recorded journal'
  buried : ∀ id, id ∈ buried' ↔ id ∈ x.deleted ∨ id ∈ buried

/-- A call that hands out nothing to be deleted, and deletes no event. -/
theorem extends_quiet {journal' : List StoredEnvelope} (h : m.Journaled journal' buried)
    (hgrows : journal ⊆ journal') {x : Exchange κ} (hevents : x.events = [])
    (hsnapshots : x.snapshots = []) (hdeleted : x.deleted = [])
    (hstored : ∀ events, x.call ≠ .store events) :
    Extends journal buried x m journal' buried where
  journaled := h
  grows := hgrows
  recorded :=
    ⟨by simp [hevents], by simp [hsnapshots], fun events hx => absurd hx (hstored events)⟩
  buried := by simp [hdeleted]

/-- The registry in memory refuses no event of a batch. -/
theorem length_accepted (events : List NewEvent) (s : MemoryEvents × Clock) :
    (accepted MemoryEvents.registry events s).length = events.length := by
  induction events generalizing s with
  | nil => rfl
  | cons e rest ih =>
      rw [accepted, storeOne_apply]
      exact congrArg (· + 1) (ih _)

/-- A batch is stored as a whole. -/
theorem extends_store (h : m.Journaled journal buried) (events : List NewEvent)
    (fresh : (m.ids.taken events.length).Nodup) (client : κ) (clock : Clock) :
    Extends journal buried
      ⟨client, .store events, ((EventCall.store events).serve MemoryEvents.registry (m, clock)).1⟩
      ((EventCall.store events).serve MemoryEvents.registry (m, clock)).2.1
      (journal ++ accepted MemoryEvents.registry events (m, clock)) buried := by
  obtain ⟨-, hjournaled⟩ :=
    journaled_store MemoryEvents.backed events (s := m) trivial h fresh clock
  have hstamped := accepted_stamped (r := MemoryEvents.registry) events (m, clock)
  rw [length_accepted, List.take_length] at hstamped
  have hanswer : (EventService.store MemoryEvents.registry events (m, clock)).1 =
      .ok (accepted MemoryEvents.registry events (m, clock)) := by
    rcases store_answer (r := MemoryEvents.registry) events (m, clock) with ⟨hok, -⟩ | ⟨-, hlt⟩
    · exact hok
    · rw [length_accepted] at hlt
      exact absurd hlt (Nat.lt_irrefl _)
  rw [serve, Fallible.map_apply, hanswer]
  -- what is answered is what was added, so each copy handed out is an entry
  refine ⟨hjournaled, List.subset_append_left _ _, ⟨?_, ?_, ?_⟩, ?_⟩
  · exact fun s hs => ⟨List.mem_append_right _ hs, event_of_mem_accepted hs⟩
  · exact fun s hs => nomatch hs
  · rintro events' hcall
    cases hcall
    exact ⟨_, rfl, hstamped⟩
  · exact fun id => (or_iff_right (List.not_mem_nil (a := id))).symm

theorem extends_findEvents (h : m.Journaled journal buried) (entity : EntityKey)
    (createdAt : Timestamp) (client : κ) (clock : Clock) :
    Extends journal buried
      ⟨client, .findEvents entity createdAt,
        ((EventCall.findEvents entity createdAt).serve MemoryEvents.registry (m, clock)).1⟩
      m journal buried :=
  ⟨h, fun _ => id, ⟨fun _ hs => h.event_of_mem_liveEvents hs, fun _ hs => (nomatch hs),
      fun _ hx => (nomatch hx)⟩,
    fun id => (or_iff_right (List.not_mem_nil (a := id))).symm⟩

/-- The snapshots that are found were stored. -/
theorem extends_findSnapshots (h : m.Journaled journal buried) (entity : EntityKey)
    (createdAt : Timestamp) (client : κ) (clock : Clock) :
    Extends journal buried
      ⟨client, .findSnapshots entity createdAt,
        ((EventCall.findSnapshots entity createdAt).serve MemoryEvents.registry (m, clock)).1⟩
      m journal buried := by
  obtain ⟨c, hc, hj⟩ := h.contents
  refine ⟨h, fun _ => id, ⟨fun s hs => (nomatch hs), fun s hs => ?_, fun _ hx => (nomatch hx)⟩,
    fun id => (or_iff_right (List.not_mem_nil (a := id))).symm⟩
  obtain ⟨hstored, hmatch⟩ := h.of_mem_query (List.mem_of_mem_filter hs)
  have hkind := EventQuery.kind_of_matches hmatch
  obtain ⟨n, hn, hid, henvelope⟩ := hj.origin s.id s.envelope ((hc.mem_allRecords s).mp hstored)
  refine ⟨n, hn, hid, ?_⟩
  -- even a tombstone would have the kind of what it was made of
  rcases henvelope with henvelope | ⟨deletedAt, henvelope⟩
  · rw [henvelope] at hkind
    exact hkind
  · rw [henvelope] at hkind
    exact hkind

/-- The registry in memory deletes all copies that it is given. -/
theorem deleteEvents_isOk (copies : List StoredEnvelope) (s : MemoryEvents × Clock) :
    (EventService.deleteEvents MemoryEvents.registry copies s).1.isOk := by
  induction copies generalizing s with
  | nil => rfl
  | cons t rest ih =>
      rw [deleteEvents_cons]
      exact ih _

theorem extends_deleteEvents (h : m.Journaled journal buried) {copies : List StoredEnvelope}
    (hcopies : ∀ s ∈ copies, s ∈ journal ∧ s.envelope.kind = .event) (client : κ)
    (clock : Clock) :
    ∃ buried', Extends journal buried
      ⟨client, .deleteEvents copies,
        ((EventCall.deleteEvents copies).serve MemoryEvents.registry (m, clock)).1⟩
      ((EventCall.deleteEvents copies).serve MemoryEvents.registry (m, clock)).2.1
      journal buried' := by
  obtain ⟨-, buried', hjournaled, hall⟩ :=
    journaled_deleteEvents MemoryEvents.backed copies hcopies (s := m) trivial h clock
  rw [serve, Fallible.map_apply]
  exact ⟨buried', hjournaled, fun _ => id,
    ⟨fun s hs => (nomatch hs), fun s hs => (nomatch hs), fun _ hx => (nomatch hx)⟩,
    hall (deleteEvents_isOk _ _)⟩

/-- Whatever a client calls, the journal goes on. -/
theorem exists_extends (h : m.Journaled journal buried) {log : List (Exchange κ)}
    (hlog : ∀ x ∈ log, x.Recorded journal) {call : EventCall} (allowed : call.Allowed log)
    (fresh : (m.ids.taken call.stores).Nodup) (client : κ) (clock : Clock) :
    ∃ journal' buried', Extends journal buried
      ⟨client, call, (call.serve MemoryEvents.registry (m, clock)).1⟩
      (call.serve MemoryEvents.registry (m, clock)).2.1 journal' buried' := by
  have hquiet : ∀ {x : Exchange κ}, x.events = [] → x.snapshots = [] → x.deleted = [] →
      (∀ events, x.call ≠ .store events) → ∃ journal' buried',
        Extends journal buried x m journal' buried' :=
    fun hevents hsnapshots hdeleted hstored =>
      ⟨journal, buried, extends_quiet h (fun _ => id) hevents hsnapshots hdeleted hstored⟩
  -- a deletion is allowed only of copies that the log handed out, which are entries as they were
  cases call with
  | store events => exact ⟨_, _, extends_store h events fresh client clock⟩
  | storeSnapshot n =>
      obtain ⟨-, hjournaled⟩ :=
        journaled_storeSnapshot MemoryEvents.backed n (s := m) trivial h fresh clock
      exact ⟨_, buried, extends_quiet hjournaled (List.subset_append_left _ _) rfl rfl rfl
        fun _ hx => (nomatch hx)⟩
  | findEvents entity createdAt =>
      exact ⟨_, _, extends_findEvents h entity createdAt client clock⟩
  | findSnapshots entity createdAt =>
      exact ⟨_, _, extends_findSnapshots h entity createdAt client clock⟩
  | deleteEvents copies =>
      refine ⟨journal, extends_deleteEvents h (fun s hs => ?_) client clock⟩
      obtain ⟨x, hx, hsx⟩ := List.mem_flatMap.mp (allowed s hs)
      exact (hlog x hx).events s hsx
  | deleteSnapshots copies =>
      have hcopies : ∀ t ∈ copies, ∃ n ∈ journal, n.id = t.id ∧ n.envelope.kind = .snapshot := by
        intro s hs
        obtain ⟨x, hx, hsx⟩ := List.mem_flatMap.mp (allowed s hs)
        exact (hlog x hx).snapshots s hsx
      obtain ⟨-, hjournaled⟩ :=
        journaled_deleteSnapshots MemoryEvents.backed copies hcopies (s := m) trivial h
      have hserve : ((EventCall.deleteSnapshots copies).serve MemoryEvents.registry
          (m, clock)).2.1 = (EventService.deleteSnapshots MemoryEvents.registry copies m).2 := by
        rw [serve, Fallible.map_apply]
        rfl
      rw [hserve]
      exact ⟨journal, buried, extends_quiet hjournaled (fun _ => id) rfl rfl rfl
        fun _ hx => (nomatch hx)⟩
  | markDispatched s =>
      exact ⟨journal, buried, extends_quiet (h.mark s.id) (fun _ => id) rfl rfl rfl
        fun _ hx => (nomatch hx)⟩
  | eventsOf entity after => exact hquiet rfl rfl rfl fun _ hx => (nomatch hx)
  | latestSnapshot entity => exact hquiet rfl rfl rfl fun _ hx => (nomatch hx)
  | search s => exact hquiet rfl rfl rfl fun _ hx => (nomatch hx)
  | entityIds entityType limit cursor => exact hquiet rfl rfl rfl fun _ hx => (nomatch hx)
  | health => exact hquiet rfl rfl rfl fun _ hx => (nomatch hx)

end EventCall

namespace EventLog

open MemoryEvents

variable {κ : Type} [DecidableEq κ] {issue : Nat → UniqueId} {clocks now : κ → Clock}
  {log : List (Exchange κ)} {m : MemoryEvents}

/-- The registry holds what is left of a journal that has all that was handed out. -/
theorem exists_journal (h : EventLog issue clocks log m now) :
    ∃ journal buried, m.Journaled journal buried ∧ (∀ x ∈ log, x.Recorded journal) ∧
      ∀ id, id ∈ buried ↔ id ∈ log.flatMap Exchange.deleted := by
  -- by induction on the calls: entries of the journal never change, so copies do not go stale in it
  induction h with
  | start => exact ⟨[], [], MemoryEvents.journaled_empty issue, by simp, by simp⟩
  | @call log m now _ client call allowed fresh ih =>
      obtain ⟨journal, buried, hjournaled, hlog, hburied⟩ := ih
      obtain ⟨journal', buried', hextends⟩ :=
        EventCall.exists_extends hjournaled hlog allowed fresh client (now client)
      refine ⟨journal', buried', hextends.journaled, fun x hx => ?_, fun id => ?_⟩
      · rcases List.mem_append.mp hx with hx | hx
        · exact (hlog x hx).mono hextends.grows
        · rw [List.mem_singleton.mp hx]
          exact hextends.recorded
      · rw [hextends.buried, hburied, List.flatMap_append, List.mem_append, or_comm]
        simp

/--
Whatever the clients call, in whatever order, a store answers its events, each with the stamp of
its creation; and from then on every one of them stands among the events under its id: as it was
stored if no call deleted it, and else without payload and with a time of deletion, but with all
else as it was. Nothing takes a deletion back, be it another one of a stale copy.
-/
theorem events_stay (h : EventLog issue clocks log m now) :
    ∀ x ∈ log, ∀ events, x.call = .store events →
      ∃ stored, x.reply = .ok (.envelopes stored) ∧
        List.Forall₂ (fun s e => ∃ createdAt, s.envelope = e.stamped createdAt) stored events ∧
        ∀ s ∈ stored,
          (s.id ∉ log.flatMap Exchange.deleted →
            OrderedMap.find? s.id m.ledger.events.items = some s.envelope) ∧
          (s.id ∈ log.flatMap Exchange.deleted → ∃ deletedAt,
            OrderedMap.find? s.id m.ledger.events.items =
              some { s.envelope with value := .emptyObject, deletedAt := some deletedAt }) := by
  obtain ⟨journal, buried, hjournaled, hlog, hburied⟩ := h.exists_journal
  obtain ⟨c, hc, hj⟩ := hjournaled.contents
  intro x hx events hcall
  obtain ⟨stored, hreply, hstamped⟩ := (hlog x hx).stored events hcall
  refine ⟨stored, hreply, hstamped, fun s hs => ?_⟩
  have hevents : x.events = stored := by
    rw [Exchange.events, hcall, hreply]
  obtain ⟨hs, hkind⟩ := (hlog x hx).events s (hevents ▸ hs)
  have hfound := hc.find?_eq_some_iff .event s.id
  constructor
  · intro hkept
    exact (hfound _).mpr ⟨hj.kept s hs hkind fun hid => hkept ((hburied _).mp hid), hkind⟩
  · intro hdeleted
    obtain ⟨deletedAt, htombstone⟩ := hj.tombstone s hs hkind ((hburied _).mpr hdeleted)
    exact ⟨deletedAt, (hfound _).mpr ⟨htombstone, hkind⟩⟩

/-! ## An event that is deleted twice -/

/-- Two clients with the same wall clock. -/
def twoClocks : Bool → Clock := fun _ => { reading := fun n => ⟨n⟩ }

/-- The addition as its client stored it first. -/
def storedAddition : StoredEnvelope := ⟨.ofNat 0, addition.stamped ⟨0⟩⟩

/-- What one client stored the other finds; both delete it, the second by a copy from before. -/
theorem events_stay_deletedTwice :
    ∃ log m now, EventLog UniqueId.ofNat twoClocks log m now ∧
      log.map Exchange.client = [true, false, true, false] ∧
      ∃ deletedAt, OrderedMap.find? (.ofNat 0) m.ledger.events.items =
        some { addition.stamped ⟨0⟩ with value := .emptyObject, deletedAt := some deletedAt } := by
  have h₀ : EventLog UniqueId.ofNat twoClocks [] ⟨.empty, ⟨.ofNat, 0⟩⟩ twoClocks := .start
  have h₁ := h₀.call true (.store [addition]) trivial (by decide +kernel)
  have h₂ := h₁.call false (.findEvents cart ⟨0⟩) trivial (by decide +kernel)
  have h₃ := h₂.call true (.deleteEvents [storedAddition]) (fun s hs => List.mem_append_left _ hs)
    (by decide +kernel)
  have h₄ := h₃.call false (.deleteEvents [storedAddition])
    (fun s hs => List.mem_append_right _ hs) (by decide +kernel)
  obtain ⟨stored, hreply, -, hstays⟩ := events_stay h₄
    ⟨true, .store [addition], .ok (.envelopes [storedAddition])⟩ List.mem_cons_self [addition] rfl
  cases hreply
  exact ⟨_, _, _, h₄, rfl, (hstays storedAddition List.mem_cons_self).2 List.mem_cons_self⟩

end EventLog

end Chronicle
