import Chronicle.Contract.Notation
import Chronicle.Contract.Trial
import Chronicle.Timestamp.Calendar

set_option autoImplicit false

/-!
# The contract of event registries

Six scenarios that every event registry must pass, each run on a registry with nothing in it.
-/

namespace Chronicle.Contract

/-- A moment of the year 2024. -/
def moment (month day hour minute : Nat) : Timestamp :=
  .ofLocal ((Calendar.dayOf? 2024 month day).getD 0) hour minute 0 0 0

/-- The text of a moment without decimals. -/
def momentText (t : Timestamp) : String := String.ofList (t.spellSeconds ++ ['Z'])

/-- The entity type of all the scenarios. -/
def cartType : EntityTypeName := ⟨"Cart", by decide, by decide, by decide, by decide⟩

/-- The cart numbered one. -/
def cart1 : EntityKey := ⟨cartType, ⟨"1", by decide, by decide, by decide, by decide⟩⟩

/-- The cart numbered two. -/
def cart2 : EntityKey := ⟨cartType, ⟨"2", by decide, by decide, by decide, by decide⟩⟩

/-- The cart numbered three. -/
def cart3 : EntityKey := ⟨cartType, ⟨"3", by decide, by decide, by decide, by decide⟩⟩

/-- The event type of an added product. -/
def productAdded : EventTypeName :=
  ⟨"ProductAdded", by decide, by decide, by decide, by decide⟩

/-- The event type of a removed product. -/
def productRemoved : EventTypeName :=
  ⟨"ProductRemoved", by decide, by decide, by decide, by decide⟩

/-- The type of a cart's snapshot. -/
def cartSnapshotType : EventTypeName := ⟨"Cart", by decide, by decide, by decide, by decide⟩

/-- An event of a cart. -/
def cartEvent (typeName : EventTypeName) (cart : EntityKey) (createdAt : Timestamp) : Envelope :=
  .event cart typeName
    (.object [("cart", .string cart.entityId.text), ("at", .string (momentText createdAt))])
    createdAt

/-- A snapshot of a cart. -/
def cartSnapshot (cart : EntityKey) (capturedAt : Timestamp) : Envelope :=
  .snapshot cart cartSnapshotType
    (.object [("cart", .string cart.entityId.text), ("upTo", .string (momentText capturedAt))])
    capturedAt capturedAt

/-- The scenarios for event registries. -/
inductive EventScenario
  | creationOrder
  | latestSnapshot
  | dispatchedOnce
  | deletion
  | typeAndTime
  | deleteAll
deriving DecidableEq

namespace EventScenario

/-- The name of a scenario. -/
def name : EventScenario → String
  | creationOrder => "entity_events_in_creation_order"
  | latestSnapshot => "latest_snapshot_selection"
  | dispatchedOnce => "dispatched_at_most_once"
  | deletion => "soft_and_hard_delete"
  | typeAndTime => "type_and_time_filters"
  | deleteAll => "delete_all_resets_registry"

/-- All scenarios. -/
def all : List EventScenario :=
  [creationOrder, latestSnapshot, dispatchedOnce, deletion, typeAndTime, deleteAll]

variable {σ : Type} (r : EventRegistry σ)

/-- Stores an envelope. -/
def store (e : Envelope) : Trial σ UniqueId := .call "store" (r.store e)

/-- The ids that a query finds. -/
def queryIds (q : EventQuery) (order : TimeOrder) (limit : Option Nat) :
    Trial σ (List UniqueId) := do
  let found ← Trial.call "query" (r.query q order limit)
  return found.map StoredEnvelope.id

/-- The number of envelopes that a query matches. -/
def countOf (q : Option EventQuery) : Trial σ Nat := .call "count" (r.count q)

/-- Some ids, as failures show them. -/
def showIds (ids : List UniqueId) : String := Notation.list (ids.map Notation.id)

/-- Queries of an entity answer in creation order and keep to bounds and limit. -/
def creationOrderTrial : Trial σ Unit := do
  let t1 := moment 5 1 10 0
  let t2 := moment 5 1 11 0
  let a ← store r (cartEvent productAdded cart1 t1)
  let _ ← store r (cartEvent productAdded cart2 (moment 5 1 10 30))
  let b ← store r (cartEvent productAdded cart1 t2)
  let q := EventQuery.events.ofEntity cart1
  let ascending ← queryIds r q .oldestFirst none
  Trial.expect (ascending == [a, b])
    ("expected [A, B] ascending, observed " ++ showIds ascending)
  let later ← queryIds r { q with createdAt := { after := some t1 } } .oldestFirst none
  Trial.expect (later == [b]) ("expected only B after T1, observed " ++ showIds later)
  let newest ← queryIds r q .newestFirst (some 1)
  Trial.expect (newest == [b]) ("expected newest event B, observed " ++ showIds newest)

/-- The latest snapshot is the one that captures the latest event. -/
def latestSnapshotTrial : Trial σ Unit := do
  let q := EventQuery.snapshots.ofEntity cart1
  let absent ← Trial.call "query_latest_snapshot" (r.latestSnapshot q)
  Trial.expect absent.isNone
    ("expected no snapshot before any was stored, observed " ++
      Notation.option (absent.map Notation.stored))
  let _ ← store r (cartSnapshot cart1 (moment 5 2 0 0))
  let latest ← store r (cartSnapshot cart1 (moment 5 3 0 0))
  let _ ← store r (cartSnapshot cart1 (moment 5 1 0 0))
  let _ ← store r (cartSnapshot cart2 (moment 6 1 0 0))
  let found ← Trial.call "query_latest_snapshot" (r.latestSnapshot q)
  let found := found.map StoredEnvelope.id
  Trial.expect (found == some latest)
    ("expected snapshot " ++ latest.text ++ ", observed " ++
      Notation.option (found.map Notation.id))

/-- The number of outcomes that report the first dispatch; a failure among them ends the trial. -/
def firstDispatches : List (Except RegistryError Bool) → Trial σ Nat
  | [] => return 0
  | .error e :: _ => .fail (Trial.unexpected "store_dispatched" e)
  | .ok first :: rest => do
      let more ← firstDispatches rest
      return if first then more + 1 else more

/-- An id is new to the dispatch marks exactly once, however many ask. -/
def dispatchedOnceTrial (fresh : Nat → UniqueId) : Trial σ Unit := do
  let first ← Trial.call "store_dispatched" (r.markDispatched (fresh 0))
  let second ← Trial.call "store_dispatched" (r.markDispatched (fresh 0))
  Trial.expect (first && !second)
    ("expected true then false, observed " ++ Notation.flag first ++ " then " ++
      Notation.flag second)
  let outcomes ← Trial.attemptAll (List.replicate 16 (r.markDispatched (fresh 1)))
  let winners ← firstDispatches outcomes
  Trial.expect (winners == 1)
    ("expected exactly one first-time dispatch, observed " ++ Text.numeral winners)

/-- A tombstone can still be found; what is removed cannot. -/
def deletionTrial (fresh : Nat → UniqueId) : Trial σ Unit := do
  let t := moment 5 1 10 0
  let event := cartEvent productAdded cart1 t
  let eventId ← store r event
  let snapshotId ← store r (cartSnapshot cart1 t)
  let replaced ← Trial.call "replace_or_delete_item"
    (r.replace eventId (some (event.tombstone (moment 5 2 0 0))))
  Trial.expect replaced "expected the event to be replaced"
  let q := EventQuery.events.ofEntity cart1
  let live ← queryIds r q.live .oldestFirst none
  Trial.expect live.isEmpty
    ("expected tombstoned event to be excluded, observed " ++ showIds live)
  let found ← Trial.call "query" (r.query q .oldestFirst none)
  let tombstoned := found.head?.any fun s =>
    s.id == eventId && s.envelope.isDeleted && s.envelope.value.same .emptyObject
  Trial.expect (found.length == 1 && tombstoned)
    ("expected one tombstone with an empty payload, observed " ++
      Notation.list (found.map Notation.stored))
  let removed ← Trial.call "replace_or_delete_item" (r.replace snapshotId none)
  Trial.expect removed "expected the snapshot to be removed"
  let snapshots ← countOf r (some .snapshots)
  Trial.expect (snapshots == 0)
    ("expected no snapshots after hard delete, observed " ++ Text.numeral snapshots)
  let missing ← Trial.call "replace_or_delete_item" (r.replace (fresh 0) none)
  Trial.expect (!missing) "expected unknown id to report false"

/-- Conditions on type and time narrow queries and counts; a count without a query counts events. -/
def typeAndTimeTrial : Trial σ Unit := do
  let _ ← store r (cartEvent productAdded cart1 (moment 5 1 0 0))
  let removed ← store r (cartEvent productRemoved cart1 (moment 5 2 0 0))
  let added ← store r (cartEvent productAdded cart2 (moment 5 3 0 0))
  let _ ← store r (cartEvent productAdded cart3 (moment 5 4 0 0))
  let _ ← store r (cartSnapshot cart1 (moment 5 2 0 0))
  let window : EventQuery :=
    { entityType := some cartType,
      createdAt := { since := some (moment 5 2 0 0), before := some (moment 5 4 0 0) } }
  let within ← queryIds r window .oldestFirst none
  Trial.expect (within == [removed, added])
    ("expected the two events inside the window, observed " ++ showIds within)
  let typed ← countOf r (some { window with typeName := some productAdded })
  Trial.expect (typed == 1)
    ("expected one ProductAdded in the window, observed " ++ Text.numeral typed)
  let total ← countOf r none
  let listed ← queryIds r .events .oldestFirst none
  Trial.expect (total == 4 && listed.length == 4)
    ("expected an unfiltered count of 4 events like query, observed " ++
      Text.numeral total ++ " and " ++ Text.numeral listed.length)

/-- Deleting everything empties every collection and answers what was removed. -/
def deleteAllTrial : Trial σ Unit := do
  let eventId ← store r (cartEvent productAdded cart1 (moment 5 1 0 0))
  let _ ← store r (cartEvent productAdded cart2 (moment 5 2 0 0))
  let _ ← store r (cartSnapshot cart1 (moment 5 1 0 0))
  let _ ← Trial.call "store_dispatched" (r.markDispatched eventId)
  let removed ← Trial.call "delete_all" r.deleteAll
  Trial.expect (removed == 3)
    ("expected 3 removed envelopes, observed " ++ Text.numeral removed)
  let remaining ← countOf r none
  Trial.expect (remaining == 0)
    ("expected an empty registry, observed " ++ Text.numeral remaining)
  let found ← queryIds r (EventQuery.events.ofEntity cart1) .oldestFirst none
  Trial.expect found.isEmpty ("expected no indexed events, observed " ++ showIds found)

/-- The trial of a scenario; `fresh` are ids that the registry does not hand out. -/
def trial (fresh : Nat → UniqueId) : EventScenario → Trial σ Unit
  | creationOrder => creationOrderTrial r
  | latestSnapshot => latestSnapshotTrial r
  | dispatchedOnce => dispatchedOnceTrial r fresh
  | deletion => deletionTrial r fresh
  | typeAndTime => typeAndTimeTrial r
  | deleteAll => deleteAllTrial r

/-- Runs a scenario from a state of the registry. -/
def run (fresh : Nat → UniqueId) (start : σ) (scenario : EventScenario) :
    Except ContractFailure Unit :=
  match (trial r fresh scenario start).1 with
  | .ok () => .ok ()
  | .error detail => .error ⟨scenario.name, detail⟩

end EventScenario

end Chronicle.Contract
