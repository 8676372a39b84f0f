import Chronicle.Event.Query
import Chronicle.Filter.External
import Chronicle.ReadModel.Query
import Chronicle.Request.Reader
import Chronicle.Service.Events
import Chronicle.Service.ReadModels

set_option autoImplicit false

/-!
# Queries in requests

The documents by which requests give filters, sort keys, queries, searches and records.
-/

namespace Chronicle.Request

/-- Reads a filter; the form says how its document is meant. -/
def filter (v : Json) : Reading Filter := do
  let doc := field v "filter"
  match ← withDefault v "form" text "canonical" with
  | "canonical" => return .ofJson doc
  | "external" => return .ofExternal doc
  | "equals" => return .field (.parse (← need doc "path" text)) (.equals (field doc "value"))
  | "field" =>
      return .field (.parse (← need doc "path" text))
        (.passes [Test.ofField (← need doc "operator" text, field doc "operand")])
  | "everything" => return .everything
  | _ => .error .malformed

/-- Reads a direction, which stands in upper case. -/
def direction (v : Json) : Reading Direction :=
  match v.word? Json.isNull with
  | some "ASC" => .ok .ascending
  | some "DESC" => .ok .descending
  | _ => .error .record

/-- Reads one sort key. -/
def sortKey : Json → Reading SortKey
  | .array [path, way] => do return ⟨.parse (← text path), ← direction way⟩
  | _ => .error .malformed

/-- Reads sort keys: of a sort document if there is one, else listed. -/
def sortKeys (v : Json) : Reading SortKeys :=
  match v.get? "sortBy" with
  | some doc => .ok (.ofJson doc)
  | none => withDefault v "sortKeys" (list sortKey) []

/-- Reads a value that must stand at a path. -/
def valueEquals : Json → Reading (FieldPath × Json)
  | .array [path, value] => do return (.parse (← text path), value)
  | _ => .error .malformed

/-- Reads a query for read models. -/
def readModelQuery (v : Json) : Reading ReadModelQuery := do
  let typeName ← optional v "typeName" (name .readModelType)
  let id ← optional v "id" (name .readModelId)
  let valueEquals ← withDefault v "valueEquals" (list valueEquals) []
  let filter ← if (v.get? "filter").isSome then (filter v).map some else pure none
  let sortBy ← sortKeys v
  let skip ← optional v "skip" number
  let limit ← optional v "limit" number
  let projection ← optional v "projection" (list text)
  return { typeName, id, valueEquals, filter, sortBy, skip, limit,
           projection := projection.map Projection.parse }

/-- Reads bounds on an instant. -/
def timeRange (refs : References) (v : Json) : Reading TimeRange := do
  let after ← optional v "gt" refs.time
  let since ← optional v "gte" refs.time
  let before ← optional v "lt" refs.time
  let upTo ← optional v "lte" refs.time
  return { after, since, before, upTo }

/-- Reads a kind of envelope. -/
def envelopeKind (v : Json) : Reading EnvelopeKind :=
  orElse ((v.word? Json.isNull).bind EnvelopeKind.ofWord?) .record

/-- Reads the order of results; where it is given, it must not be `null`. -/
def timeOrder (v : Json) : Reading TimeOrder :=
  match v.get? "order" with
  | none => .ok .oldestFirst
  | some w => orElse ((w.word? Json.isNull).bind TimeOrder.ofWord?) .record

/-- Reads a query for envelopes. -/
def eventQuery (refs : References) (v : Json) : Reading EventQuery := do
  let kind ← withDefault v "kind" envelopeKind .event
  let entityType ← optional v "entityTypeName" (name .entityType)
  let entityId ← optional v "entityID" (name .entityId)
  let entityIds ← optional v "entityIDs" (list (name .entityId))
  let typeName ← optional v "typeName" (name .eventType)
  let createdAt ← timeRange refs (field v "createdAt")
  let deleted ← optional v "deleted" flag
  return { kind, entityType, entityId, entityIds, typeName, createdAt, deleted }

/-- Reads the key of an entity. -/
def entity (v : Json) : Reading EntityKey := do
  return ⟨← need v "entityTypeName" (name .entityType), ← need v "entityID" (name .entityId)⟩

/-- Reads an event to store. -/
def newEvent (v : Json) : Reading NewEvent := do
  let entity ← entity v
  let typeName ← need v "typeName" (name .eventType)
  let requestId ← optional v "requestID" text
  return { entity, typeName, value := field v "value", requestId }

/-- Reads a snapshot to store. -/
def newSnapshot (refs : References) (v : Json) : Reading NewSnapshot := do
  let entity ← entity v
  let typeName ← need v "typeName" (name .eventType)
  let capturedAt ← need v "snapshottedEventCreatedAt" refs.time
  return { entity, typeName, value := field v "value", capturedAt }

/-- Reads a search for events. -/
def eventSearch (refs : References) (v : Json) : Reading EventSearch := do
  let entityType ← optional v "entityTypeName" (name .entityType)
  let entityId ← optional v "entityID" (name .entityId)
  let typeName ← optional v "typeName" (name .eventType)
  let since ← optional v "from" refs.time
  let upTo ← optional v "to" refs.time
  let limit ← optional v "limit" number
  return { entityType, entityId, typeName, since, upTo, limit }

/-- Reads a search for read models. -/
def readModelSearch (v : Json) : Reading ReadModelSearch := do
  let limit ← optional v "limit" number
  let cursor ← optional v "cursor" number
  let paginated ← withDefault v "paginated" flag false
  let projection ← optional v "projection" (list text)
  return { filters := field v "filters", sortBy := field? v "sortBy", limit, cursor, paginated,
           projection }

/-- Reads an envelope. -/
def envelope (refs : References) (v : Json) : Reading Envelope := do
  orElse (Envelope.ofJson? (← refs.resolved v)) .record

/-- Reads a stored envelope. -/
def storedEnvelope (refs : References) (v : Json) : Reading StoredEnvelope := do
  orElse (StoredEnvelope.ofJson? (← refs.resolved v)) .record

/-- Reads a read model: the record under the key, or a value of a type. -/
def readModel (v : Json) (key : String) : Reading ReadModel :=
  match field? v key with
  | some doc => orElse (ReadModel.ofJson? doc) .record
  | none => do
      let typeName ← need v "typeName" (name .readModelType)
      match ReadModel.ofValue typeName (field v "value") with
      | .ok m => return m
      | .error fault => .error (.registry (.invalidReadModel fault))

/-- Reads a read model, and the version that it is to declare. -/
def versionedReadModel (v : Json) (key : String) : Reading ReadModel := do
  let m ← readModel v key
  match ← optional v "setVersion" number with
  | some version => return m.withVersion version
  | none => return m

end Chronicle.Request
