import Chronicle.Contract.ReadModels
import Chronicle.Proofs.Clients
import Chronicle.Proofs.ReadModelSession

set_option autoImplicit false

/-!
# Read model registries pass their contract

The scenarios for read model registries see nothing of a registry but its answers. Main
statement: whatever registry answers as the one in memory does passes every scenario
(`ReadModelScenario.run_eq_ok`).
-/

namespace Chronicle

/-- From the state, every list of requests is answered as by a registry in memory. -/
def ReadModelRegistry.LikeMemory {σ : Type} (r : ReadModelRegistry σ) (start : σ) : Prop :=
  ∀ requests, Fallible.answers (ReadModelRequest.serve r) requests start =
    Fallible.answers (ReadModelRequest.serve Shelf.registry) requests .empty

namespace Contract.ReadModelScenario

open Trial

/-! ## What the scenarios ask -/

section Asking

variable {σ τ : Type} (r : ReadModelRegistry σ) (r' : ReadModelRegistry τ)

theorem alike_attempt_store (m : ReadModel) (expected : Nat) :
    Alike (ReadModelRequest.serve r) (ReadModelRequest.serve r') 1
      (.attempt (r.store m expected)) (.attempt (r'.store m expected)) :=
  alike_attempt _ _ (.store m expected) (fun _ _ => ReadModelAnswer.stored.inj) rfl rfl

theorem alike_store (m : ReadModel) (expected : Nat) :
    Alike (ReadModelRequest.serve r) (ReadModelRequest.serve r') 1 (store r m expected)
      (store r' m expected) := by
  have hcall := alike_call (ReadModelRequest.serve r) (ReadModelRequest.serve r')
    (.store m expected) (fun _ _ => ReadModelAnswer.stored.inj) rfl rfl "store"
  exact hcall.bind fun _ => alike_done ()

theorem alike_query (q : ReadModelQuery) :
    Alike (ReadModelRequest.serve r) (ReadModelRequest.serve r') 1 (.call "query" (r.query q))
      (.call "query" (r'.query q)) :=
  alike_call (ReadModelRequest.serve r) (ReadModelRequest.serve r') (.query q)
    (fun _ _ => ReadModelAnswer.readModels.inj) rfl rfl "query"

theorem alike_queryIds (q : ReadModelQuery) :
    Alike (ReadModelRequest.serve r) (ReadModelRequest.serve r') 1 (queryIds r q)
      (queryIds r' q) :=
  (alike_query r r' q).bind fun found => alike_done (found.map fun m => m.id.text)

theorem alike_count (q : Option ReadModelQuery) :
    Alike (ReadModelRequest.serve r) (ReadModelRequest.serve r') 1 (.call "count" (r.count q))
      (.call "count" (r'.count q)) :=
  alike_call (ReadModelRequest.serve r) (ReadModelRequest.serve r') (.count q)
    (fun _ _ => ReadModelAnswer.number.inj) rfl rfl "count"

theorem alike_deleteById (id : ReadModelId) (typeName : ReadModelTypeName) :
    Alike (ReadModelRequest.serve r) (ReadModelRequest.serve r') 1
      (.call "delete_by_id" (r.deleteById id typeName))
      (.call "delete_by_id" (r'.deleteById id typeName)) :=
  alike_call (ReadModelRequest.serve r) (ReadModelRequest.serve r') (.deleteById id typeName)
    (fun _ _ => ReadModelAnswer.number.inj) rfl rfl "delete_by_id"

theorem alike_deleteAll :
    Alike (ReadModelRequest.serve r) (ReadModelRequest.serve r') 1
      (.call "delete_all" r.deleteAll) (.call "delete_all" r'.deleteAll) :=
  alike_call (ReadModelRequest.serve r) (ReadModelRequest.serve r') .deleteAll
    (fun _ _ => ReadModelAnswer.number.inj) rfl rfl "delete_all"

theorem alike_storeAll (ms : List ReadModel) :
    Alike (ReadModelRequest.serve r) (ReadModelRequest.serve r') ms.length (storeAll r ms)
      (storeAll r' ms) := by
  induction ms with
  | nil => exact alike_done ()
  | cons m rest ih => exact (alike_store r r' m 0).bind fun _ => ih

/-- Outcomes are looked at without asking anything more. -/
theorem alike_expectConflict (outcome : Except RegistryError StoredReadModel) :
    Alike (ReadModelRequest.serve r) (ReadModelRequest.serve r') 0 (expectConflict outcome)
      (expectConflict outcome) := by
  cases outcome with
  | ok s => exact alike_fail _
  | error e =>
      rw [expectConflict, expectConflict]
      by_cases h : e.isConflict
      · rw [if_pos h, if_pos h]
        exact alike_done ()
      · rw [if_neg h, if_neg h]
        exact alike_fail _

theorem alike_winnersAmong (outcomes : List (Except RegistryError StoredReadModel)) :
    Alike (ReadModelRequest.serve r) (ReadModelRequest.serve r') 0 (winnersAmong outcomes)
      (winnersAmong outcomes) := by
  induction outcomes with
  | nil => exact alike_done 0
  | cons outcome rest ih =>
      cases outcome with
      | ok s => exact ih.bind fun more => alike_done (more + 1)
      | error e =>
          rw [winnersAmong, winnersAmong]
          by_cases h : e.isConflict
          · rw [if_pos h, if_pos h]
            exact ih
          · rw [if_neg h, if_neg h]
            exact alike_fail _

theorem alike_versions :
    Alike (ReadModelRequest.serve r) (ReadModelRequest.serve r') 6 (versionsTrial r)
      (versionsTrial r') := by
  refine (alike_store r r' _ _).bind fun _ => ?_
  refine (alike_store r r' _ _).bind fun _ => ?_
  refine (alike_attempt_store r r' _ _).bind fun stale => ?_
  refine (alike_expectConflict r r' stale).bind fun _ => ?_
  refine (alike_attempt_store r r' _ _).bind fun missing => ?_
  refine (alike_expectConflict r r' missing).bind fun _ => ?_
  refine (alike_attempt_store r r' _ _).bind fun unversioned => ?_
  refine (alike_expect _ _).bind fun _ => ?_
  refine (alike_query r r' _).bind fun found => ?_
  exact alike_expect _ _

theorem alike_firstVersion :
    Alike (ReadModelRequest.serve r) (ReadModelRequest.serve r') 6 (firstVersionTrial r)
      (firstVersionTrial r') := by
  refine (alike_store r r' _ _).bind fun _ => ?_
  refine (alike_store r r' _ _).bind fun _ => ?_
  refine (alike_deleteAll r r').bind fun _ => ?_
  refine (alike_store r r' _ _).bind fun _ => ?_
  refine (alike_store r r' _ _).bind fun _ => ?_
  refine (alike_query r r' _).bind fun found => ?_
  exact alike_expect _ _

theorem alike_singleWinner :
    Alike (ReadModelRequest.serve r) (ReadModelRequest.serve r') 9 (singleWinnerTrial r)
      (singleWinnerTrial r') := by
  refine (alike_store r r' _ _).bind fun _ => ?_
  have hwriters := alike_attemptAll (List.range 8) fun writer =>
    alike_attempt_store r r' (document userType user1 [("writer", .ofNat writer)] 2) 1
  refine hwriters.bind fun outcomes => ?_
  refine (alike_winnersAmong r r' outcomes).bind fun winners => ?_
  exact alike_expect _ _

theorem alike_pipeline :
    Alike (ReadModelRequest.serve r) (ReadModelRequest.serve r') 11 (pipelineTrial r)
      (pipelineTrial r') := by
  refine (alike_storeAll r r' people).bind fun _ => ?_
  refine (alike_queryIds r r' _).bind fun sorted => ?_
  refine (alike_expect _ _).bind fun _ => ?_
  refine (alike_queryIds r r' _).bind fun paged => ?_
  refine (alike_expect _ _).bind fun _ => ?_
  refine (alike_count r r' _).bind fun counted => ?_
  refine (alike_expect _ _).bind fun _ => ?_
  refine (alike_queryIds r r' _).bind fun valued => ?_
  refine (alike_expect _ _).bind fun _ => ?_
  refine (alike_query r r' _).bind fun projected => ?_
  exact alike_expect _ _

theorem alike_projection :
    Alike (ReadModelRequest.serve r) (ReadModelRequest.serve r') 2 (projectionTrial r)
      (projectionTrial r') := by
  refine (alike_store r r' _ _).bind fun _ => ?_
  refine (alike_query r r' _).bind fun found => ?_
  exact alike_expect _ _

theorem alike_deletion :
    Alike (ReadModelRequest.serve r) (ReadModelRequest.serve r') 6 (deletionTrial r)
      (deletionTrial r') := by
  refine (alike_deleteById r r' _ _).bind fun missing => ?_
  refine (alike_expect _ _).bind fun _ => ?_
  refine (alike_store r r' _ _).bind fun _ => ?_
  refine (alike_store r r' _ _).bind fun _ => ?_
  refine (alike_deleteById r r' _ _).bind fun removed => ?_
  refine (alike_expect _ _).bind fun _ => ?_
  refine (alike_queryIds r r' _).bind fun remaining => ?_
  refine (alike_expect _ _).bind fun _ => ?_
  refine (alike_deleteAll r r').bind fun cleared => ?_
  exact alike_expect _ _

/-- No scenario asks more than eleven times. -/
theorem alike_trial (scenario : ReadModelScenario) :
    Alike (ReadModelRequest.serve r) (ReadModelRequest.serve r') 11 (trial r scenario)
      (trial r' scenario) := by
  cases scenario with
  | versions => exact (alike_versions r r').mono (by decide)
  | firstVersion => exact (alike_firstVersion r r').mono (by decide)
  | singleWinner => exact (alike_singleWinner r r').mono (by decide)
  | pipeline => exact alike_pipeline r r'
  | projection => exact (alike_projection r r').mono (by decide)
  | deletion => exact (alike_deletion r r').mono (by decide)

end Asking

/-! ## What comes of them in memory -/

theorem succeeds_versions : Succeeds (versionsTrial Shelf.registry) .empty := by
  refine .bind rfl ?_
  refine .bind rfl ?_
  -- a store of a version that is no longer stored, and one of a document that is not
  refine .bind rfl (.bind rfl ?_)
  refine .bind rfl (.bind rfl ?_)
  refine .bind rfl (.expect_bind rfl ?_)
  exact .bind rfl (.expect rfl _ _)

theorem succeeds_firstVersion : Succeeds (firstVersionTrial Shelf.registry) .empty := by
  refine .bind rfl ?_
  refine .bind rfl ?_
  refine .bind rfl ?_
  refine .bind rfl ?_
  refine .bind rfl ?_
  exact .bind rfl (.expect rfl _ _)

theorem succeeds_singleWinner : Succeeds (singleWinnerTrial Shelf.registry) .empty := by
  refine .bind rfl ?_
  refine .bind rfl ?_
  refine .bind rfl ?_
  exact .expect rfl _ _

theorem succeeds_deletion : Succeeds (deletionTrial Shelf.registry) .empty := by
  refine .bind rfl (.expect_bind rfl ?_)
  refine .bind rfl ?_
  refine .bind rfl ?_
  refine .bind rfl (.expect_bind rfl ?_)
  refine .bind rfl (.expect_bind rfl ?_)
  exact .bind rfl (.expect rfl _ _)

/-- What the projection selects of the order: a missing field is left out, each item is kept. -/
theorem apply_sampleOrder :
    Projection.apply (.parse ["id", "items[].qty", "address.city", "missing.field"])
      sampleOrder.value = sampleSelection := by
  have hpaths : Projection.parse ["id", "items[].qty", "address.city", "missing.field"] =
      [[.key "id"], [.key "items", .each, .key "qty"], [.key "address", .key "city"],
        [.key "missing", .key "field"]] := by decide
  have hvalue : sampleOrder.value =
      .object
        [("id", .string "o1"),
          ("items", .array
            [.object [("sku", .string "A"), ("qty", .ofNat 1)],
              .object [("sku", .string "B")],
              .object [("sku", .string "C"), ("qty", .ofNat 3)]]),
          ("address", .object [("city", .string "Oslo"), ("zip", .string "0150")]),
          ("_metadata", .object [("version", .ofNat 1)])] := rfl
  rw [hpaths, hvalue]
  simp [Projection.apply, FieldPath.select, FieldPath.selectEach, Fields.get?, Json.emptyObject]
  rfl

theorem succeeds_projection : Succeeds (projectionTrial Shelf.registry) .empty := by
  refine .bind rfl ?_
  refine .bind rfl (.expect ?_ _ _)
  show (Projection.apply (.parse ["id", "items[].qty", "address.city", "missing.field"])
    sampleOrder.value).same sampleSelection = true
  rw [apply_sampleOrder]
  rfl

/-- Of a document without the missing field, a projection onto that and the id selects the id. -/
theorem apply_id {rest : Fields} (h : Fields.get? "missing" rest = none) (id : String) :
    Projection.apply (.parse ["id", "missing"]) (.object (("id", .string id) :: rest)) =
      .object [("id", .string id)] := by
  have hpaths : Projection.parse ["id", "missing"] = [[.key "id"], [.key "missing"]] := by decide
  rw [hpaths]
  simp [Projection.apply, FieldPath.select, Fields.get?, h]
  rfl

theorem succeeds_pipeline : Succeeds (pipelineTrial Shelf.registry) .empty := by
  refine .bind rfl ?_
  refine .bind rfl (.expect_bind rfl ?_)
  refine .bind rfl (.expect_bind rfl ?_)
  refine .bind rfl (.expect_bind rfl ?_)
  refine .bind rfl (.expect_bind rfl ?_)
  refine .bind rfl (.expect ?_ _ _)
  -- the page holds two users, of whom the projection leaves the id
  let rest : Fields :=
    [("age", .ofNat 30), ("tags", .array [.string "x"]),
      ("_metadata", .object [("version", .ofNat 1)])]
  have hrest : Fields.get? "missing" rest = none := by decide
  show Json.sameItems
    [Projection.apply (.parse ["id", "missing"]) (.object (("id", .string "a") :: rest)),
      Projection.apply (.parse ["id", "missing"]) (.object (("id", .string "c") :: rest))]
    _ = true
  rw [apply_id hrest, apply_id hrest]
  rfl

theorem succeeds_trial (scenario : ReadModelScenario) :
    Succeeds (trial Shelf.registry scenario) .empty := by
  cases scenario with
  | versions => exact succeeds_versions
  | firstVersion => exact succeeds_firstVersion
  | singleWinner => exact succeeds_singleWinner
  | pipeline => exact succeeds_pipeline
  | projection => exact succeeds_projection
  | deletion => exact succeeds_deletion

/-- A registry that answers as the one in memory passes every scenario. -/
theorem run_eq_ok {σ : Type} {r : ReadModelRegistry σ} {start : σ} (h : r.LikeMemory start)
    (scenario : ReadModelScenario) : run r start scenario = .ok () := by
  have hsucceeds := succeeds_trial scenario
  rw [Succeeds, ← (alike_trial r Shelf.registry scenario).result h] at hsucceeds
  unfold run
  cases htrial : (trial r scenario start).1 with
  | ok u => rfl
  | error detail => rw [htrial] at hsucceeds; cases hsucceeds

end Contract.ReadModelScenario

end Chronicle
