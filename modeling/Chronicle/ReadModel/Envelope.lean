import Chronicle.Json.Record
import Chronicle.Json.Printer
import Chronicle.Json.Reader

set_option autoImplicit false

/-!
# Read models

A read model is a versioned document derived from events. Its id is that of the document; its
version stands in the document's metadata and is 1 where none is declared.
-/

namespace Chronicle

/-- A document of a read model type. -/
structure ReadModel where
  typeName : ReadModelTypeName
  id : ReadModelId
  value : Json

/-- What is wrong with a read model. -/
inductive ReadModelFault
  | missingId (typeName : ReadModelTypeName)
  | badId (error : NameError)
  | versionZero (typeName : ReadModelTypeName) (id : ReadModelId)
  | reported (detail : String)

/-- The fault in words. -/
def ReadModelFault.message : ReadModelFault → String
  | missingId typeName => typeName.text ++ " value has no \x60id\x60"
  | badId error => error.message
  | versionZero typeName id =>
      typeName.text ++ " '" ++ id.text ++ "' has version 0; versions start at 1"
  | reported detail => detail

namespace ReadModel

/-- The key under which a document keeps its metadata. -/
def metadataKey : String := "_metadata"

/-- The key of the version in the metadata. -/
def versionKey : String := "version"

/-- The read model of a document, which must have a text or a number as its `id`. -/
def ofValue (typeName : ReadModelTypeName) (value : Json) : Except ReadModelFault ReadModel :=
  let named (raw : String) : Except ReadModelFault ReadModel :=
    match Name.parse .readModelId raw with
    | .ok id => .ok { typeName, id, value }
    | .error e => .error (.badId e)
  match value.get? "id" with
  | some (.string raw) => named raw
  | some (.number n) => named (Json.number n).text
  | _ => .error (.missingId typeName)

/-- The declared version, 1 if the metadata has none. -/
def version (m : ReadModel) : Nat :=
  (((m.value.get? metadataKey).bind fun d => d.get? versionKey).bind Json.unsigned?).getD 1

/-- The read model with the given version declared; a value that is no object stays as it is. -/
def withVersion (m : ReadModel) (version : Nat) : ReadModel :=
  match m.value with
  | .object fields =>
      let metadata :=
        match Fields.get? metadataKey fields with
        | some (.object metadata) => metadata
        | _ => []
      let metadata := Fields.set versionKey (.ofNat version) metadata
      { m with value := .object (Fields.set metadataKey (.object metadata) fields) }
  | _ => m

/-- The names of the fields in a record. -/
def fieldNames : List String := ["typeName", "id", "value"]

/-- What is kept of the record of a read model: its fields, nothing else. -/
def shape : Json.Shape := .record (fieldNames.map (·, .any))

/-- The record of a read model. -/
def toJson (m : ReadModel) : Json :=
  .object [("typeName", .string m.typeName.text), ("id", .string m.id.text), ("value", m.value)]

/-- Reads the record of a read model. -/
def ofJson? (v : Json) : Option ReadModel := do
  let fields ← v.record? fieldNames
  let typeName ← fields.required? "typeName" (Json.name? .readModelType)
  let id ← fields.required? "id" (Json.name? .readModelId)
  let value ← fields.required? "value" Json.any?
  return { typeName, id, value }

end ReadModel

/-- A read model and the unique key of its version. -/
structure StoredReadModel where
  uniqueKey : String
  readModel : ReadModel

namespace StoredReadModel

/-- The read model with its unique key: type, id and version. -/
def ofReadModel (m : ReadModel) : StoredReadModel where
  uniqueKey :=
    m.typeName.text ++ ":" ++ m.id.text ++ ":" ++ Text.numeral m.version
  readModel := m

/-- The names of the fields in a record. -/
def fieldNames : List String := ["uniqueKey", "envelope"]

/-- What is kept of the record of a stored read model. -/
def shape : Json.Shape := .record [("uniqueKey", .any), ("envelope", ReadModel.shape)]

/-- The record of a stored read model. -/
def toJson (s : StoredReadModel) : Json :=
  .object [("uniqueKey", .string s.uniqueKey), ("envelope", s.readModel.toJson)]

/-- Reads the record of a stored read model. -/
def ofJson? (v : Json) : Option StoredReadModel := do
  let fields ← v.record? fieldNames
  let uniqueKey ← fields.required? "uniqueKey" Json.string?
  let readModel ← fields.required? "envelope" ReadModel.ofJson?
  return { uniqueKey, readModel }

end StoredReadModel

end Chronicle
