import Chronicle.Contract.Notation
import Chronicle.Contract.Trial
import Chronicle.Filter.Canonical

set_option autoImplicit false

/-!
# The contract of read model registries

Six scenarios that every read model registry must pass, each run on a registry with nothing in it.
-/

namespace Chronicle.Contract

/-- The type of users. -/
def userType : ReadModelTypeName := ⟨"User", by decide, by decide, by decide, by decide⟩

/-- The type of administrators. -/
def adminType : ReadModelTypeName := ⟨"Admin", by decide, by decide, by decide, by decide⟩

/-- The type of orders. -/
def orderType : ReadModelTypeName := ⟨"Order", by decide, by decide, by decide, by decide⟩

/-- The id of the first user. -/
def user1 : ReadModelId := ⟨"u1", by decide, by decide, by decide, by decide⟩

/-- The id of the second user. -/
def user2 : ReadModelId := ⟨"u2", by decide, by decide, by decide, by decide⟩

/-- The id of the order. -/
def order1 : ReadModelId := ⟨"o1", by decide, by decide, by decide, by decide⟩

/-- A read model with some fields besides its id, and a version. -/
def document (typeName : ReadModelTypeName) (id : ReadModelId) (fields : Fields)
    (version : Nat) : ReadModel :=
  { typeName, id, value := Json.object (("id", .string id.text) :: fields) : ReadModel }.withVersion
    version

/-- The read models that a query is tried on: users of several ages, and an administrator. -/
def people : List ReadModel :=
  let user (id : ReadModelId) (age : Nat) : ReadModel :=
    document userType id [("age", .ofNat age), ("tags", .array [.string "x"])] 1
  [user ⟨"e", by decide, by decide, by decide, by decide⟩ 30,
    user ⟨"c", by decide, by decide, by decide, by decide⟩ 30,
    user ⟨"a", by decide, by decide, by decide, by decide⟩ 30,
    user ⟨"b", by decide, by decide, by decide, by decide⟩ 40,
    user ⟨"d", by decide, by decide, by decide, by decide⟩ 20,
    document adminType ⟨"z", by decide, by decide, by decide, by decide⟩ [("age", .ofNat 50)] 1]

/-- The order that a projection is tried on. -/
def sampleOrder : ReadModel :=
  document orderType order1
    [("items", .array
        [.object [("sku", .string "A"), ("qty", .ofNat 1)],
          .object [("sku", .string "B")],
          .object [("sku", .string "C"), ("qty", .ofNat 3)]]),
      ("address", .object [("city", .string "Oslo"), ("zip", .string "0150")])]
    1

/-- What the projection selects of it. -/
def sampleSelection : Json :=
  .object
    [("id", .string "o1"),
      ("items", .array
        [.object [("qty", .ofNat 1)], .object [], .object [("qty", .ofNat 3)]]),
      ("address", .object [("city", .string "Oslo")])]

/-- The scenarios for read model registries. -/
inductive ReadModelScenario
  | versions
  | firstVersion
  | singleWinner
  | pipeline
  | projection
  | deletion
deriving DecidableEq

namespace ReadModelScenario

/-- The name of a scenario. -/
def name : ReadModelScenario → String
  | versions => "version_monotonicity"
  | firstVersion => "version_one_always_inserts"
  | singleWinner => "concurrent_writers_single_winner"
  | pipeline => "query_pipeline"
  | projection => "projection_shapes"
  | deletion => "delete_by_id_is_lenient"

/-- All scenarios. -/
def all : List ReadModelScenario :=
  [versions, firstVersion, singleWinner, pipeline, projection, deletion]

variable {σ : Type} (r : ReadModelRegistry σ)

/-- Stores a read model. -/
def store (m : ReadModel) (expected : Nat) : Trial σ Unit := do
  let _ ← Trial.call "store" (r.store m expected)
  return ()

/-- Stores read models one after another. -/
def storeAll : List ReadModel → Trial σ Unit
  | [] => return ()
  | m :: rest => do
      store r m 0
      storeAll rest

/-- The ids that a query finds. -/
def queryIds (q : ReadModelQuery) : Trial σ (List String) := do
  let found ← Trial.call "query" (r.query q)
  return found.map fun m => m.id.text

/-- Some ids, as failures show them. -/
def showIds (ids : List String) : String := Notation.list (ids.map Notation.text)

/-- Expects that a write is refused because of a conflict. -/
def expectConflict : Except RegistryError StoredReadModel → Trial σ Unit
  | .ok s =>
      .fail ("expected a concurrency conflict but stored " ++ s.uniqueKey)
  | .error e => if e.isConflict then .done () else .fail (Trial.unexpected "store" e)

/-- A stale write is refused, and so is version 0. -/
def versionsTrial : Trial σ Unit := do
  store r (document userType user1 [] 1) 0
  store r (document userType user1 [] 2) 1
  expectConflict (← Trial.attempt (r.store (document userType user1 [] 2) 1))
  expectConflict (← Trial.attempt (r.store (document userType user2 [] 3) 2))
  let unversioned ← Trial.attempt
    (r.store (document userType user1 [("reset", .bool true)] 0) 2)
  let refused :=
    match unversioned with
    | .error (.invalidReadModel _) => true
    | _ => false
  Trial.expect refused
    ("expected version 0 to be rejected, observed " ++ Notation.outcome unversioned)
  let found ← Trial.call "query" (r.query (.ofType userType))
  let versions := found.map ReadModel.version
  Trial.expect (versions == [2])
    ("expected u1 to stay at version 2, observed " ++
      Notation.list (versions.map Text.numeral))

/-- A write of version 1 never conflicts. -/
def firstVersionTrial : Trial σ Unit := do
  let numbered (n version : Nat) : ReadModel :=
    document userType user1 [("n", .ofNat n)] version
  store r (numbered 1 1) 0
  store r (numbered 2 2) 1
  let _ ← Trial.call "delete_all" r.deleteAll
  store r (numbered 3 1) 7
  store r (numbered 4 1) 0
  let found ← Trial.call "query" (r.query (.ofType userType))
  let latest := found.head?.map fun m => (m.value.get? "n").getD .null
  Trial.expect (found.length == 1 && latest.any fun n => n.same (.ofNat 4))
    ("expected the last version 1 write to win, observed " ++
      Notation.list (found.map Notation.readModel))

/-- The number of writers that succeeded; a failure other than a conflict ends the trial. -/
def winnersAmong : List (Except RegistryError StoredReadModel) → Trial σ Nat
  | [] => return 0
  | .ok _ :: rest => do
      let more ← winnersAmong rest
      return more + 1
  | .error e :: rest =>
      if e.isConflict then winnersAmong rest else .fail (Trial.unexpected "store" e)

/-- Of several writers that replace one version, exactly one succeeds. -/
def singleWinnerTrial : Trial σ Unit := do
  store r (document userType user1 [] 1) 0
  let writers := (List.range 8).map fun writer =>
    r.store (document userType user1 [("writer", .ofNat writer)] 2) 1
  let winners ← winnersAmong (← Trial.attemptAll writers)
  Trial.expect (winners == 1)
    ("expected exactly one winning writer, observed " ++ Text.numeral winners)

/-- Match, sort, skip, limit and projection run in this order. -/
def pipelineTrial : Trial σ Unit := do
  storeAll r people
  let q : ReadModelQuery :=
    { typeName := some userType,
      filter := some (.ofJson (.object [("age", .object [("gte", .ofNat 25)])])),
      sortBy := [⟨.parse "age", .descending⟩, ⟨.parse "id", .ascending⟩] }
  let sorted ← queryIds r q
  Trial.expect (sorted == ["b", "a", "c", "e"])
    ("expected age DESC then id ASC, observed " ++ showIds sorted)
  let page : ReadModelQuery := { q with skip := some 1, limit := some 2 }
  let paged ← queryIds r page
  Trial.expect (paged == ["a", "c"])
    ("expected skip before limit, observed " ++ showIds paged)
  let counted ← Trial.call "count" (r.count (some page))
  Trial.expect (counted == 4)
    ("expected count to ignore pagination, observed " ++ Text.numeral counted)
  let valued ← queryIds r { valueEquals := [(.parse "age", .ofNat 40)] }
  Trial.expect (valued == ["b"])
    ("expected value equality to select b, observed " ++ showIds valued)
  let projected ← Trial.call "query"
    (r.query { page with projection := some (.parse ["id", "missing"]) })
  let values := projected.map ReadModel.value
  Trial.expect
    (Json.sameItems values [.object [("id", .string "a")], .object [("id", .string "c")]])
    ("expected projected ids only, observed " ++ Notation.list (values.map Notation.value))

/-- A projection leaves missing fields out and keeps the elements of arrays. -/
def projectionTrial : Trial σ Unit := do
  store r sampleOrder 0
  let q : ReadModelQuery :=
    { typeName := some orderType, id := some order1,
      projection := some (.parse ["id", "items[].qty", "address.city", "missing.field"]) }
  let found ← Trial.call "query" (r.query q)
  let observed := found.head?.map ReadModel.value
  Trial.expect (observed.any fun v => v.same sampleSelection)
    ("expected " ++ sampleSelection.text ++ ", observed " ++
      Notation.option (observed.map Notation.value))

/-- Deleting what is not there counts nothing and is no failure. -/
def deletionTrial : Trial σ Unit := do
  let missing ← Trial.call "delete_by_id" (r.deleteById user1 userType)
  Trial.expect (missing == 0) ("expected 0 for a miss, observed " ++ Text.numeral missing)
  store r (document userType user1 [] 1) 0
  store r (document userType user2 [] 1) 0
  let removed ← Trial.call "delete_by_id" (r.deleteById user1 userType)
  Trial.expect (removed == 1) ("expected 1 for a hit, observed " ++ Text.numeral removed)
  let remaining ← queryIds r (.ofType userType)
  Trial.expect (remaining == ["u2"])
    ("expected only u2 to remain, observed " ++ showIds remaining)
  let cleared ← Trial.call "delete_all" r.deleteAll
  Trial.expect (cleared == 1)
    ("expected delete_all to remove 1, observed " ++ Text.numeral cleared)

/-- The trial of a scenario. -/
def trial : ReadModelScenario → Trial σ Unit
  | versions => versionsTrial r
  | firstVersion => firstVersionTrial r
  | singleWinner => singleWinnerTrial r
  | pipeline => pipelineTrial r
  | projection => projectionTrial r
  | deletion => deletionTrial r

/-- Runs a scenario from a state of the registry. -/
def run (start : σ) (scenario : ReadModelScenario) : Except ContractFailure Unit :=
  match (trial r scenario start).1 with
  | .ok () => .ok ()
  | .error detail => .error ⟨scenario.name, detail⟩

end ReadModelScenario

end Chronicle.Contract
