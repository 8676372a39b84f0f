import Chronicle.Contract.Events
import Chronicle.Proofs.Pile

set_option autoImplicit false

/-!
# Event registries pass their contract

The scenarios for event registries see nothing of a registry but its answers. Main statement:
whatever registry answers as the one in memory does, up to the choice of ids, passes every
scenario (`EventScenario.run_eq_ok`).
-/

namespace Chronicle.Contract

open Trial

namespace EventScenario

/-! ## What the scenarios ask -/

section Asking

variable {σ τ : Type} (r : EventRegistry σ) (r' : EventRegistry τ)

theorem alike_store (e : Envelope) :
    Alike (EventRequest.ask r) (EventRequest.ask r') 1 (store r e) (store r' e) :=
  alike_call (EventRequest.ask r) (EventRequest.ask r') (.store e)
    (fun _ _ => EventAnswer.id.inj) rfl rfl "store"

theorem alike_query (q : EventQuery) (order : TimeOrder) (limit : Option Nat) :
    Alike (EventRequest.ask r) (EventRequest.ask r') 1 (.call "query" (r.query q order limit))
      (.call "query" (r'.query q order limit)) :=
  alike_call (EventRequest.ask r) (EventRequest.ask r') (.query q order limit)
    (fun _ _ => EventAnswer.records.inj) rfl rfl "query"

theorem alike_queryIds (q : EventQuery) (order : TimeOrder) (limit : Option Nat) :
    Alike (EventRequest.ask r) (EventRequest.ask r') 1 (queryIds r q order limit)
      (queryIds r' q order limit) :=
  (alike_query r r' q order limit).bind fun found => alike_done (found.map StoredEnvelope.id)

theorem alike_latestSnapshot (q : EventQuery) :
    Alike (EventRequest.ask r) (EventRequest.ask r') 1
      (.call "query_latest_snapshot" (r.latestSnapshot q))
      (.call "query_latest_snapshot" (r'.latestSnapshot q)) :=
  alike_call (EventRequest.ask r) (EventRequest.ask r') (.latestSnapshot q)
    (fun _ _ => EventAnswer.snapshot.inj) rfl rfl _

theorem alike_countOf (q : Option EventQuery) :
    Alike (EventRequest.ask r) (EventRequest.ask r') 1 (countOf r q) (countOf r' q) :=
  alike_call (EventRequest.ask r) (EventRequest.ask r') (.count q)
    (fun _ _ => EventAnswer.number.inj) rfl rfl "count"

theorem alike_markDispatched (id : UniqueId) :
    Alike (EventRequest.ask r) (EventRequest.ask r') 1
      (.call "store_dispatched" (r.markDispatched id))
      (.call "store_dispatched" (r'.markDispatched id)) :=
  alike_call (EventRequest.ask r) (EventRequest.ask r') (.markDispatched id)
    (fun _ _ => EventAnswer.verdict.inj) rfl rfl _

theorem alike_replace (id : UniqueId) (replacement : Option Envelope) :
    Alike (EventRequest.ask r) (EventRequest.ask r') 1
      (.call "replace_or_delete_item" (r.replace id replacement))
      (.call "replace_or_delete_item" (r'.replace id replacement)) :=
  alike_call (EventRequest.ask r) (EventRequest.ask r') (.replace id replacement)
    (fun _ _ => EventAnswer.verdict.inj) rfl rfl _

theorem alike_deleteAll :
    Alike (EventRequest.ask r) (EventRequest.ask r') 1 (.call "delete_all" r.deleteAll)
      (.call "delete_all" r'.deleteAll) :=
  alike_call (EventRequest.ask r) (EventRequest.ask r') .deleteAll
    (fun _ _ => EventAnswer.number.inj) rfl rfl _

/-- Outcomes are looked at without asking anything more. -/
theorem alike_firstDispatches (outcomes : List (Except RegistryError Bool)) :
    Alike (EventRequest.ask r) (EventRequest.ask r') 0 (firstDispatches outcomes)
      (firstDispatches outcomes) := by
  induction outcomes with
  | nil => exact alike_done 0
  | cons outcome rest ih =>
      cases outcome with
      | error e => exact alike_fail _
      | ok first => exact ih.bind fun more => alike_done _

theorem alike_creationOrder :
    Alike (EventRequest.ask r) (EventRequest.ask r') 6 (creationOrderTrial r)
      (creationOrderTrial r') := by
  refine (alike_store r r' _).bind fun a => ?_
  refine (alike_store r r' _).bind fun _ => ?_
  refine (alike_store r r' _).bind fun b => ?_
  refine (alike_queryIds r r' _ _ _).bind fun ascending => ?_
  refine (alike_expect _ _).bind fun _ => ?_
  refine (alike_queryIds r r' _ _ _).bind fun later => ?_
  refine (alike_expect _ _).bind fun _ => ?_
  refine (alike_queryIds r r' _ _ _).bind fun newest => ?_
  exact alike_expect _ _

theorem alike_latestSnapshotTrial :
    Alike (EventRequest.ask r) (EventRequest.ask r') 6 (latestSnapshotTrial r)
      (latestSnapshotTrial r') := by
  refine (alike_latestSnapshot r r' _).bind fun absent => ?_
  refine (alike_expect _ _).bind fun _ => ?_
  refine (alike_store r r' _).bind fun _ => ?_
  refine (alike_store r r' _).bind fun latest => ?_
  refine (alike_store r r' _).bind fun _ => ?_
  refine (alike_store r r' _).bind fun _ => ?_
  refine (alike_latestSnapshot r r' _).bind fun found => ?_
  exact alike_expect _ _

theorem alike_dispatchedOnce (fresh : Nat → UniqueId) :
    Alike (EventRequest.ask r) (EventRequest.ask r') 18 (dispatchedOnceTrial r fresh)
      (dispatchedOnceTrial r' fresh) := by
  refine (alike_markDispatched r r' _).bind fun first => ?_
  refine (alike_markDispatched r r' _).bind fun second => ?_
  refine (alike_expect _ _).bind fun _ => ?_
  have hmark := alike_attempt (EventRequest.ask r) (EventRequest.ask r')
    (.markDispatched (fresh 1)) (fun _ _ => EventAnswer.verdict.inj) rfl rfl
  refine (alike_attemptAll_replicate 16 hmark).bind fun outcomes => ?_
  refine (alike_firstDispatches r r' outcomes).bind fun winners => ?_
  exact alike_expect _ _

theorem alike_deletion (fresh : Nat → UniqueId) :
    Alike (EventRequest.ask r) (EventRequest.ask r') 8 (deletionTrial r fresh)
      (deletionTrial r' fresh) := by
  refine (alike_store r r' _).bind fun eventId => ?_
  refine (alike_store r r' _).bind fun snapshotId => ?_
  refine (alike_replace r r' _ _).bind fun replaced => ?_
  refine (alike_expect _ _).bind fun _ => ?_
  refine (alike_queryIds r r' _ _ _).bind fun live => ?_
  refine (alike_expect _ _).bind fun _ => ?_
  refine (alike_query r r' _ _ _).bind fun found => ?_
  refine (alike_expect _ _).bind fun _ => ?_
  refine (alike_replace r r' _ _).bind fun removed => ?_
  refine (alike_expect _ _).bind fun _ => ?_
  refine (alike_countOf r r' _).bind fun snapshots => ?_
  refine (alike_expect _ _).bind fun _ => ?_
  refine (alike_replace r r' _ _).bind fun missing => ?_
  exact alike_expect _ _

theorem alike_typeAndTime :
    Alike (EventRequest.ask r) (EventRequest.ask r') 9 (typeAndTimeTrial r)
      (typeAndTimeTrial r') := by
  refine (alike_store r r' _).bind fun _ => ?_
  refine (alike_store r r' _).bind fun removed => ?_
  refine (alike_store r r' _).bind fun added => ?_
  refine (alike_store r r' _).bind fun _ => ?_
  refine (alike_store r r' _).bind fun _ => ?_
  refine (alike_queryIds r r' _ _ _).bind fun within => ?_
  refine (alike_expect _ _).bind fun _ => ?_
  refine (alike_countOf r r' _).bind fun typed => ?_
  refine (alike_expect _ _).bind fun _ => ?_
  refine (alike_countOf r r' _).bind fun total => ?_
  refine (alike_queryIds r r' _ _ _).bind fun listed => ?_
  exact alike_expect _ _

theorem alike_deleteAllTrial :
    Alike (EventRequest.ask r) (EventRequest.ask r') 7 (deleteAllTrial r) (deleteAllTrial r') := by
  refine (alike_store r r' _).bind fun eventId => ?_
  refine (alike_store r r' _).bind fun _ => ?_
  refine (alike_store r r' _).bind fun _ => ?_
  refine (alike_markDispatched r r' _).bind fun _ => ?_
  refine (alike_deleteAll r r').bind fun removed => ?_
  refine (alike_expect _ _).bind fun _ => ?_
  refine (alike_countOf r r' _).bind fun remaining => ?_
  refine (alike_expect _ _).bind fun _ => ?_
  refine (alike_queryIds r r' _ _ _).bind fun found => ?_
  exact alike_expect _ _

/-- No scenario asks more than eighteen times. -/
theorem alike_trial (fresh : Nat → UniqueId) (scenario : EventScenario) :
    Alike (EventRequest.ask r) (EventRequest.ask r') 18 (trial r fresh scenario)
      (trial r' fresh scenario) := by
  cases scenario with
  | creationOrder => exact (alike_creationOrder r r').mono (by decide)
  | latestSnapshot => exact (alike_latestSnapshotTrial r r').mono (by decide)
  | dispatchedOnce => exact alike_dispatchedOnce r r' fresh
  | deletion => exact (alike_deletion r r' fresh).mono (by decide)
  | typeAndTime => exact (alike_typeAndTime r r').mono (by decide)
  | deleteAll => exact (alike_deleteAllTrial r r').mono (by decide)

end Asking

/-! ## What comes of them on a pile -/

section OnPile

variable (ids : IdSupply)

theorem succeeds_creationOrder :
    Succeeds (creationOrderTrial Pile.registry) (.bare ids) := by
  refine .bind rfl ?_
  refine .bind rfl ?_
  refine .bind rfl ?_
  -- the times of creation differ, so that no two ids have to be compared
  refine .bind rfl (.expect_bind (beq_of_eq rfl) ?_)
  refine .bind rfl (.expect_bind (beq_of_eq rfl) ?_)
  exact .bind rfl (.expect (beq_of_eq rfl) _ _)

theorem succeeds_latestSnapshot :
    Succeeds (latestSnapshotTrial Pile.registry) (.bare ids) := by
  -- nothing is found before something is stored
  refine .bind rfl (.expect_bind rfl ?_)
  refine .bind rfl ?_
  refine .bind rfl ?_
  refine .bind rfl ?_
  refine .bind rfl ?_
  exact .bind rfl (.expect (beq_of_eq rfl) _ _)

theorem succeeds_typeAndTime :
    Succeeds (typeAndTimeTrial Pile.registry) (.bare ids) := by
  refine .bind rfl ?_
  refine .bind rfl ?_
  refine .bind rfl ?_
  refine .bind rfl ?_
  refine .bind rfl ?_
  refine .bind rfl (.expect_bind (beq_of_eq rfl) ?_)
  refine .bind rfl (.expect_bind rfl ?_)
  exact .bind rfl (.bind rfl (.expect rfl _ _))

theorem succeeds_deleteAll :
    Succeeds (deleteAllTrial Pile.registry) (.bare ids) := by
  refine .bind rfl ?_
  refine .bind rfl ?_
  refine .bind rfl ?_
  refine .bind rfl ?_
  -- the two events and the snapshot are counted, the mark is not
  refine .bind rfl (.expect_bind rfl ?_)
  refine .bind rfl (.expect_bind rfl ?_)
  exact .bind rfl (.expect rfl _ _)

/-- Who asks for an id that is marked is told so, however many ask. -/
theorem attemptAll_marked {p : Pile} {id : UniqueId} (h : id ∈ p.marks) (n : Nat) :
    attemptAll (List.replicate n (Pile.registry.markDispatched id)) p =
      (.ok (List.replicate n (.ok false)), p) := by
  induction n with
  | zero => rfl
  | succ n ih =>
      have hsame : Pile.registry.markDispatched id p = (.ok false, p) := by
        simp [Pile.registry, h]
      have hfirst : attempt (Pile.registry.markDispatched id) p = (.ok (.ok false), p) := by
        rw [attempt, hsame]
      rw [List.replicate_succ, attemptAll, Fallible.bind_of_ok hfirst, Fallible.bind_of_ok ih]
      rfl

theorem firstDispatches_marked (n : Nat) :
    (firstDispatches (List.replicate n (.ok false)) : Trial Pile Nat) = .done 0 := by
  induction n with
  | zero => rfl
  | succ n ih =>
      rw [List.replicate_succ, firstDispatches, ih]
      rfl

/-- Of those who ask for an id that is not marked, the first alone is told so. -/
theorem attemptAll_unmarked {p : Pile} {id : UniqueId} (h : id ∉ p.marks) (n : Nat) :
    attemptAll (List.replicate (n + 1) (Pile.registry.markDispatched id)) p =
      (.ok (.ok true :: List.replicate n (.ok false)), { p with marks := id :: p.marks }) := by
  have hfirst : attempt (Pile.registry.markDispatched id) p =
      (.ok (.ok true), { p with marks := id :: p.marks }) := by
    simp [attempt, Pile.registry, h]
  rw [List.replicate_succ, attemptAll, Fallible.bind_of_ok hfirst,
    Fallible.bind_of_ok (attemptAll_marked List.mem_cons_self n)]
  rfl

theorem succeeds_dispatchedOnce {fresh : Nat → UniqueId} (h : fresh 0 ≠ fresh 1) :
    Succeeds (dispatchedOnceTrial Pile.registry fresh) (.bare ids) := by
  have hfirst : call "store_dispatched" (Pile.registry.markDispatched (fresh 0)) (.bare ids) =
      (.ok true, ⟨[], [fresh 0], ids⟩) := rfl
  have hsecond : call "store_dispatched" (Pile.registry.markDispatched (fresh 0))
      ⟨[], [fresh 0], ids⟩ = (.ok false, ⟨[], [fresh 0], ids⟩) := by
    simp [call, Pile.registry]
  have hunmarked : fresh 1 ∉ [fresh 0] := by simpa using h.symm
  have hwinners : (firstDispatches (.ok true :: List.replicate 15 (.ok false)) : Trial Pile Nat) =
      .done 1 := by
    rw [firstDispatches, firstDispatches_marked]
    rfl
  refine .bind hfirst ?_
  refine .bind hsecond (.expect_bind rfl ?_)
  -- the other id is still new to the registry, and to the first of the tasks alone
  refine .bind (attemptAll_unmarked hunmarked 15) ?_
  rw [hwinners]
  exact .bind rfl (.expect rfl _ _)

/-- The event and the snapshot stand under different ids, and nothing under the fresh one. -/
theorem succeeds_deletion {fresh : Nat → UniqueId}
    (h : (ids.upcoming 2 ++ [fresh 0]).Nodup) :
    Succeeds (deletionTrial Pile.registry fresh) (.bare ids) := by
  let event := cartEvent productAdded cart1 (moment 5 1 10 0)
  let gone := event.tombstone (moment 5 2 0 0)
  let snapshot := cartSnapshot cart1 (moment 5 1 10 0)
  let later := ids.advance.advance
  have hids : ([ids.next, ids.advance.next] ++ [fresh 0]).Nodup := h
  have hother : ids.advance.next ≠ ids.next := by
    rintro heq
    simp [heq] at hids
  have hfresh : ids.next ≠ fresh 0 := by
    rintro heq
    simp [heq] at hids
  have hreplaced : call "replace_or_delete_item" (Pile.registry.replace ids.next (some gone))
      ⟨[⟨ids.next, event⟩, ⟨ids.advance.next, snapshot⟩], [], later⟩ =
        (.ok true, ⟨[⟨ids.next, gone⟩, ⟨ids.advance.next, snapshot⟩], [], later⟩) := by
    simp [call, Pile.registry, Pile.replaced, hother]
  have hfound : call "query" (Pile.registry.query (EventQuery.events.ofEntity cart1) .oldestFirst
      none) ⟨[⟨ids.next, gone⟩, ⟨ids.advance.next, snapshot⟩], [], later⟩ =
        (.ok [⟨ids.next, gone⟩],
          ⟨[⟨ids.next, gone⟩, ⟨ids.advance.next, snapshot⟩], [], later⟩) := rfl
  have hremoved : call "replace_or_delete_item" (Pile.registry.replace ids.advance.next none)
      ⟨[⟨ids.next, gone⟩, ⟨ids.advance.next, snapshot⟩], [], later⟩ =
        (.ok true, ⟨[⟨ids.next, gone⟩], [], later⟩) := by
    simp [call, Pile.registry, Pile.replaced, hother.symm]
  have hmissing : call "replace_or_delete_item" (Pile.registry.replace (fresh 0) none)
      ⟨[⟨ids.next, gone⟩], [], later⟩ = (.ok false, ⟨[⟨ids.next, gone⟩], [], later⟩) := by
    simp [call, Pile.registry, Pile.replaced, hfresh]
  have hgone : (gone.isDeleted && gone.value.same .emptyObject) = true := rfl
  refine .bind rfl ?_
  refine .bind rfl ?_
  -- the tombstone takes the place of the event
  refine .bind hreplaced (.expect_bind rfl ?_)
  refine .bind rfl (.expect_bind rfl ?_)
  refine .bind hfound (.expect_bind ?_ ?_)
  · simpa [Pile.bare] using hgone
  · refine .bind hremoved (.expect_bind rfl ?_)
    refine .bind rfl (.expect_bind rfl ?_)
    exact .bind hmissing (.expect rfl _ _)

/-- Every scenario succeeds on a pile that starts bare. -/
theorem succeeds_trial {fresh : Nat → UniqueId} (h : (ids.upcoming 2 ++ [fresh 0, fresh 1]).Nodup)
    (scenario : EventScenario) :
    Succeeds (trial Pile.registry fresh scenario) (.bare ids) := by
  cases scenario with
  | creationOrder => exact succeeds_creationOrder ids
  | latestSnapshot => exact succeeds_latestSnapshot ids
  | dispatchedOnce =>
      have hfresh : fresh 0 ≠ fresh 1 := by simpa using h.of_append_right
      exact succeeds_dispatchedOnce ids hfresh
  | deletion =>
      refine succeeds_deletion ids (h.sublist ?_)
      exact (List.Sublist.cons_cons _ (List.nil_sublist _)).append_left _
  | typeAndTime => exact succeeds_typeAndTime ids
  | deleteAll => exact succeeds_deleteAll ids

end OnPile

/-- A registry that answers as the one in memory passes every scenario. -/
theorem run_eq_ok {σ : Type} {r : EventRegistry σ} {start : σ} {fresh : Nat → UniqueId}
    (h : r.LikeMemory start fresh) (scenario : EventScenario) :
    run r fresh start scenario = .ok () := by
  -- what the scenario asks of the registry it would ask of a pile with the same ids
  obtain ⟨requests, hlength, -, hend⟩ := alike_trial r Pile.registry fresh scenario start
  have hroom : EventRequest.stores requests + 2 + 2 ≤ Word.limit 128 := by
    have hstores : EventRequest.stores requests ≤ requests.length := List.countP_le_length
    have hlimit : 18 + 2 + 2 ≤ Word.limit 128 := by decide
    omega
  obtain ⟨ids, hdistinct, hanswers⟩ := h.answers_eq_pile requests 2 hroom
  have hsucceeds := succeeds_trial ids hdistinct scenario
  rw [Succeeds, hend _ hanswers] at hsucceeds
  unfold run
  cases htrial : (trial r fresh scenario start).1 with
  | ok u => rfl
  | error detail => rw [htrial] at hsucceeds; cases hsucceeds

end EventScenario

end Chronicle.Contract
