import Chronicle.Json.Record

set_option autoImplicit false

/-!
# Event envelopes

An envelope is a domain event, or a snapshot of an entity, with what is recorded about it. Its
payload and entity never change once it is stored; the one change is that to a tombstone.
-/

namespace Chronicle

/-- What an envelope holds. -/
inductive EnvelopeKind
  | event
  | snapshot
deriving DecidableEq

namespace EnvelopeKind

/-- The word of a kind. -/
def word : EnvelopeKind → String
  | event => "event"
  | snapshot => "snapshot"

/-- The kind of a word. -/
def ofWord? (word : String) : Option EnvelopeKind :=
  if word = "event" then some event
  else if word = "snapshot" then some snapshot
  else none

end EnvelopeKind

/-- The entity that an envelope belongs to. -/
structure EntityKey where
  entityType : EntityTypeName
  entityId : EntityId
deriving DecidableEq

namespace EntityKey

/-- Keys are ordered by entity type, then by entity id. -/
instance : Ord EntityKey :=
  ⟨fun a b => (compare a.entityType b.entityType).then (compare a.entityId b.entityId)⟩

instance : Std.TransOrd EntityKey :=
  inferInstanceAs (Std.TransCmp
    (compareLex (compareOn EntityKey.entityType) (compareOn EntityKey.entityId)))

instance : Std.LawfulEqOrd EntityKey where
  eq_of_compare {a b} h := by
    obtain ⟨ht, hi⟩ := Ordering.then_eq_eq.mp h
    cases a
    cases b
    cases Std.LawfulEqOrd.eq_of_compare ht
    cases Std.LawfulEqOrd.eq_of_compare hi
    rfl

end EntityKey

/-- An event or a snapshot with its metadata. -/
structure Envelope where
  kind : EnvelopeKind
  entityType : EntityTypeName
  entityId : EntityId
  /-- The event type; for a snapshot the name of the entity type. -/
  typeName : EventTypeName
  value : Json
  createdAt : Timestamp
  requestId : Option String
  /-- When the envelope became a tombstone. -/
  deletedAt : Option Timestamp
  /-- For a snapshot, the creation time of the last event in it. -/
  capturedAt : Option Timestamp
  /-- For a snapshot, when it was persisted. -/
  persistedAt : Option Timestamp

/-- An envelope and the id under which it is stored. -/
structure StoredEnvelope where
  id : UniqueId
  envelope : Envelope

namespace Envelope

/-- A domain event. -/
def event (entity : EntityKey) (typeName : EventTypeName) (value : Json)
    (createdAt : Timestamp) : Envelope where
  kind := .event
  entityType := entity.entityType
  entityId := entity.entityId
  typeName := typeName
  value := value
  createdAt := createdAt
  requestId := none
  deletedAt := none
  capturedAt := none
  persistedAt := none

/-- A snapshot of an entity with its events up to `capturedAt`. -/
def snapshot (entity : EntityKey) (typeName : EventTypeName) (value : Json)
    (createdAt capturedAt : Timestamp) : Envelope :=
  { event entity typeName value createdAt with kind := .snapshot, capturedAt := some capturedAt }

/-- The entity that the envelope belongs to. -/
def entity (e : Envelope) : EntityKey := ⟨e.entityType, e.entityId⟩

/-- The envelope with the request that caused it. -/
def withRequest (e : Envelope) (requestId : String) : Envelope :=
  { e with requestId := some requestId }

/-- The envelope with the time at which it was persisted. -/
def withPersistedAt (e : Envelope) (persistedAt : Timestamp) : Envelope :=
  { e with persistedAt := some persistedAt }

/-- The deleted form: the payload is emptied and the time of deletion recorded. -/
def tombstone (e : Envelope) (deletedAt : Timestamp) : Envelope :=
  { e with value := .emptyObject, deletedAt := some deletedAt }

/-- Whether the envelope is a tombstone. -/
def isDeleted (e : Envelope) : Bool := e.deletedAt.isSome

/-- Whether the envelope is a snapshot. -/
def isSnapshot (e : Envelope) : Bool := e.kind == .snapshot

/-- The names of the fields in a record. -/
def fieldNames : List String :=
  ["kind", "entityTypeName", "entityID", "typeName", "value", "createdAt", "requestID",
    "deletedAt", "snapshottedEventCreatedAt", "persistedAt"]

/-- A timestamp as it is recorded. -/
def instant (t : Timestamp) : Json := .string t.text

/-- The fields of the record; absent options are left out. -/
def toFields (e : Envelope) : Fields :=
  [("kind", .string e.kind.word),
    ("entityTypeName", .string e.entityType.text),
    ("entityID", .string e.entityId.text),
    ("typeName", .string e.typeName.text),
    ("value", e.value),
    ("createdAt", instant e.createdAt)] ++
  Fields.ofOption "requestID" (e.requestId.map .string) ++
  Fields.ofOption "deletedAt" (e.deletedAt.map instant) ++
  Fields.ofOption "snapshottedEventCreatedAt" (e.capturedAt.map instant) ++
  Fields.ofOption "persistedAt" (e.persistedAt.map instant)

/-- The record of the envelope. -/
def toJson (e : Envelope) : Json := .object e.toFields

/-- Reads an envelope from the fields of its record; `blank` tells what may follow a kind's word. -/
def ofFields? (blank : Json → Bool) (fields : Fields) : Option Envelope := do
  let kind ← fields.required? "kind" fun v => (v.word? blank).bind EnvelopeKind.ofWord?
  let entityType ← fields.required? "entityTypeName" (Json.name? .entityType)
  let entityId ← fields.required? "entityID" (Json.name? .entityId)
  let typeName ← fields.required? "typeName" (Json.name? .eventType)
  let value ← fields.required? "value" Json.any?
  let createdAt ← fields.required? "createdAt" Json.timestamp?
  let requestId ← fields.optional? "requestID" Json.string?
  let deletedAt ← fields.optional? "deletedAt" Json.timestamp?
  let capturedAt ← fields.optional? "snapshottedEventCreatedAt" Json.timestamp?
  let persistedAt ← fields.optional? "persistedAt" Json.timestamp?
  return { kind, entityType, entityId, typeName, value, createdAt, requestId, deletedAt,
           capturedAt, persistedAt }

/-- Reads the record of an envelope. -/
def ofJson? (v : Json) : Option Envelope := do
  ofFields? Json.isNull (← v.record? fieldNames)

end Envelope

namespace StoredEnvelope

/-- The record of a stored envelope: its id, then the fields of the envelope. -/
def toJson (s : StoredEnvelope) : Json :=
  .object (("id", .string s.id.text) :: s.envelope.toFields)

/-- What may follow the word of a kind in the record of a stored envelope. -/
def isBlank : Json → Bool
  | .null => true
  | .object [] => true
  | _ => false

/-- Reads the record of a stored envelope, which is always an object. -/
def ofJson? (v : Json) : Option StoredEnvelope := do
  let fields ← v.objectRecord? ("id" :: Envelope.fieldNames)
  let id ← fields.required? "id" Json.id?
  let envelope ← Envelope.ofFields? isBlank fields
  return { id, envelope }

end StoredEnvelope

end Chronicle
