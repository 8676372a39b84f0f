import Chronicle.Health
import Chronicle.Registry.Basic
import Chronicle.Service.Clock
import Chronicle.Service.Paging

set_option autoImplicit false

/-!
# The event service

What handlers of a framework ask of an event registry: storing events stamped by a clock, reading
those of an entity, paging through entities, and deleting events with the snapshots made of them.
-/

namespace Chronicle

/-- An event that is not stamped yet. -/
structure NewEvent where
  entity : EntityKey
  typeName : EventTypeName
  value : Json
  requestId : Option String

/-- A snapshot that is not stamped yet. -/
structure NewSnapshot where
  entity : EntityKey
  typeName : EventTypeName
  value : Json
  capturedAt : Timestamp

/-- What a search for events asks for; absent conditions do not bind. -/
structure EventSearch where
  entityType : Option EntityTypeName := none
  entityId : Option EntityId := none
  typeName : Option EventTypeName := none
  since : Option Timestamp := none
  upTo : Option Timestamp := none
  limit : Option Nat := none

/-- An event as a search answers it. -/
structure FoundEvent where
  requestId : Option String
  typeName : EventTypeName
  entityType : EntityTypeName
  entityId : EntityId
  createdAt : Timestamp
  value : Json
  deletedAt : Option Timestamp

namespace FoundEvent

/-- What a search answers for a stored event. -/
def ofStored (s : StoredEnvelope) : FoundEvent where
  requestId := s.envelope.requestId
  typeName := s.envelope.typeName
  entityType := s.envelope.entityType
  entityId := s.envelope.entityId
  createdAt := s.envelope.createdAt
  value := s.envelope.value
  deletedAt := s.envelope.deletedAt

/-- The record of a found event; absent options are left out. -/
def toJson (f : FoundEvent) : Json :=
  .object <|
    Fields.ofOption "requestID" (f.requestId.map .string) ++
    [("type", .string f.typeName.text),
      ("entity", .string f.entityType.text),
      ("entityID", .string f.entityId.text),
      ("createdAt", Envelope.instant f.createdAt),
      ("value", f.value)] ++
    Fields.ofOption "deletedAt" (f.deletedAt.map Envelope.instant)

end FoundEvent

namespace EventService

variable {σ : Type}

/-- The next instant of the clock. -/
def tick : Call (σ × Clock) Timestamp := fun s => (.ok s.2.next, (s.1, s.2.advance))

/-- Stamps an event and stores it. -/
def storeOne (r : EventRegistry σ) (e : NewEvent) : Call (σ × Clock) StoredEnvelope := do
  let envelope := Envelope.event e.entity e.typeName e.value (← tick)
  let envelope := { envelope with requestId := e.requestId }
  let id ← (r.store envelope).onFirst
  return { id, envelope }

/-- Stamps and stores events in order; the first failure ends it. -/
def store (r : EventRegistry σ) : List NewEvent → Call (σ × Clock) (List StoredEnvelope)
  | [] => return []
  | e :: rest => do
      let stored ← storeOne r e
      let more ← store r rest
      return stored :: more

/-- Stores a snapshot, created and persisted at the same instant. -/
def storeSnapshot (r : EventRegistry σ) (s : NewSnapshot) :
    Call (σ × Clock) StoredEnvelope := do
  let now ← tick
  let envelope :=
    (Envelope.snapshot s.entity s.typeName s.value now s.capturedAt).withPersistedAt now
  let id ← (r.store envelope).onFirst
  return { id, envelope }

/-- The live events of an entity, oldest first; those after an instant if one is given. -/
def eventsOf (r : EventRegistry σ) (entity : EntityKey) (after : Option Timestamp) :
    Call σ (List StoredEnvelope) :=
  r.query { (EventQuery.events.ofEntity entity).live with createdAt := { after } }
    .oldestFirst none

/-- The snapshot of an entity that captures its latest event. -/
def latestSnapshot (r : EventRegistry σ) (entity : EntityKey) :
    Call σ (Option StoredEnvelope) :=
  r.latestSnapshot (EventQuery.snapshots.ofEntity entity)

/-- The events that a search asks for, newest first. -/
def search (r : EventRegistry σ) (s : EventSearch) : Call σ (List FoundEvent) := do
  let q : EventQuery :=
    { entityType := s.entityType, entityId := s.entityId, typeName := s.typeName,
      createdAt := { since := s.since, upTo := s.upTo } }
  let found ← r.query q .newestFirst s.limit
  return found.map FoundEvent.ofStored

/-- The elements of a list without repetitions, each at its first place, none of them in `seen`. -/
def distinctFrom {α : Type} [BEq α] (seen : List α) : List α → List α
  | [] => []
  | a :: rest =>
      if seen.contains a then distinctFrom seen rest else a :: distinctFrom (a :: seen) rest

/-- A page of the ids of live entities of a type, the most recently active first. -/
def entityIds (r : EventRegistry σ) (entityType : EntityTypeName) (limit : Nat)
    (cursor : Option Nat) : Call σ (Page EntityId) := do
  let events ← r.query { EventQuery.events.live with entityType := some entityType }
    .newestFirst none
  let offset := cursor.getD 0
  let ids := distinctFrom [] (events.map fun s => s.envelope.entityId)
  return .ofRest offset limit (ids.drop offset)

/-- Marks an event as dispatched; true only the first time. -/
def markDispatched (r : EventRegistry σ) (s : StoredEnvelope) : Call σ Bool :=
  r.markDispatched s.id

/-- The live events of an entity that were created at an instant. -/
def findEvents (r : EventRegistry σ) (entity : EntityKey) (createdAt : Timestamp) :
    Call σ (List StoredEnvelope) :=
  r.query
    { (EventQuery.events.ofEntity entity).live with
      createdAt := { since := some createdAt, upTo := some createdAt } }
    .oldestFirst none

/-- Whether the snapshot captures an event created at the instant. -/
def captures (createdAt : Timestamp) (s : StoredEnvelope) : Bool :=
  s.envelope.capturedAt.any fun captured => createdAt ≤ captured

/-- The snapshots of an entity that capture an event created at an instant. -/
def findSnapshots (r : EventRegistry σ) (entity : EntityKey) (createdAt : Timestamp) :
    Call σ (List StoredEnvelope) := do
  let snapshots ← r.query (EventQuery.snapshots.ofEntity entity) .oldestFirst none
  return snapshots.filter (captures createdAt)

/-- Turns events into tombstones where they stand. -/
def deleteEvents (r : EventRegistry σ) : List StoredEnvelope → Call (σ × Clock) Unit
  | [] => return ()
  | s :: rest => do
      let deletedAt ← tick
      let _ ← (r.replace s.id (some (s.envelope.tombstone deletedAt))).onFirst
      deleteEvents r rest

/-- Removes snapshots. -/
def deleteSnapshots (r : EventRegistry σ) : List StoredEnvelope → Call σ Unit
  | [] => return ()
  | s :: rest => do
      let _ ← r.replace s.id none
      deleteSnapshots r rest

/-- The report of the registry's health. -/
def health (r : EventRegistry σ) : Call σ HealthReport := do
  let urls ← Fallible.read r.urls
  if ← r.isUp then
    match ← r.details.outcome with
    | .ok details => return .up details urls
    | .error e => return .down e.message urls
  else return .down "event registry is down" urls

end EventService

end Chronicle
