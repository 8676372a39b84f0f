import Chronicle.Event.Envelope
import Chronicle.Json.Printer
import Chronicle.ReadModel.Envelope
import Chronicle.Registry.Error

set_option autoImplicit false

/-!
# How failures show values

The notation in which a failure of the contract shows what was observed: the name of each type
with what it holds, fields by their names, lists in brackets.
-/

namespace Chronicle.Contract.Notation

/-- A list. -/
def list (items : List String) : String := "[" ++ ", ".intercalate items ++ "]"

/-- A value under the name of what holds it. -/
def named (name held : String) : String := name ++ "(" ++ held ++ ")"

/-- A value that may be absent. -/
def option : Option String → String
  | some held => named "Some" held
  | none => "None"

/-- Fields by their names. -/
def braces (fields : List (String × String)) : String :=
  if fields.isEmpty then "\x7b\x7d"
  else "\x7b " ++ ", ".intercalate (fields.map fun f => f.1 ++ ": " ++ f.2) ++ " \x7d"

/-- A record of a named type. -/
def record (name : String) (fields : List (String × String)) : String :=
  name ++ " " ++ braces fields

/-- A quoted text. -/
def text (s : String) : String := String.ofList (Json.spellString s)

/-- A flag. -/
def flag (b : Bool) : String := if b then "true" else "false"

mutual

/-- A JSON value. -/
def value : Json → String
  | .null => "Null"
  | .bool b => named "Bool" (flag b)
  | .number n => named "Number" (String.ofList n.spell)
  | .string s => named "String" (text s)
  | .array items => "Array [" ++ ", ".intercalate (values items) ++ "]"
  | .object fields => "Object \x7b" ++ ", ".intercalate (entries fields) ++ "\x7d"

/-- Each of some JSON values. -/
def values : List Json → List String
  | [] => []
  | v :: rest => value v :: values rest

/-- Each field of an object. -/
def entries : List (String × Json) → List String
  | [] => []
  | (key, v) :: rest => (text key ++ ": " ++ value v) :: entries rest

end

/-- A name. -/
def name {kind : NameKind} (n : Name kind) : String := named kind.label (text n.text)

/-- An id. -/
def id (i : UniqueId) : String := named "UniqueId" i.text

/-- The decimals of a second: none, three or six. -/
def decimals (micro : Nat) : List Char :=
  if micro = 0 then []
  else if micro % 1000 = 0 then '.' :: Text.paddedDigits 3 (micro / 1000)
  else '.' :: Text.paddedDigits 6 micro

/-- An instant. -/
def timestamp (t : Timestamp) : String :=
  named "Timestamp"
    (String.ofList (t.spellSeconds ++ decimals (t.micro % 1000000) ++ ['Z']))

/-- A kind of envelope. -/
def kind : EnvelopeKind → String
  | .event => "Event"
  | .snapshot => "Snapshot"

/-- An envelope. -/
def envelope (e : Envelope) : String :=
  record "EventEnvelope"
    [("kind", kind e.kind), ("entity_type_name", name e.entityType),
      ("entity_id", name e.entityId), ("type_name", name e.typeName), ("value", value e.value),
      ("created_at", timestamp e.createdAt), ("request_id", option (e.requestId.map text)),
      ("deleted_at", option (e.deletedAt.map timestamp)),
      ("snapshotted_event_created_at", option (e.capturedAt.map timestamp)),
      ("persisted_at", option (e.persistedAt.map timestamp))]

/-- A stored envelope. -/
def stored (s : StoredEnvelope) : String :=
  record "StoredEventEnvelope" [("id", id s.id), ("envelope", envelope s.envelope)]

/-- A read model. -/
def readModel (m : ReadModel) : String :=
  record "ReadModelEnvelope"
    [("type_name", name m.typeName), ("id", name m.id), ("value", value m.value)]

/-- A stored read model. -/
def storedReadModel (s : StoredReadModel) : String :=
  record "StoredReadModel"
    [("unique_key", text s.uniqueKey), ("envelope", readModel s.readModel)]

/-- An error of a registry. -/
def error : RegistryError → String
  | .conflict typeName i expected current =>
      record "OptimisticConcurrency"
        [("type_name", name typeName), ("id", name i), ("expected", Text.numeral expected),
          ("current", option (current.map Text.numeral))]
  | .invalidReadModel fault => named "InvalidReadModel" (text fault.message)
  | .malformedLine path line =>
      named "Serialization" (text (path ++ ":" ++ Text.numeral line))
  | .serialization detail => named "Serialization" (text detail)
  | .io detail => named "Io" (text detail)
  | .storeFailure operation => record "StoreFailure" [("operation", text operation)]
  | .sharedFile file =>
      named "Configuration" (text ("collection file \x60" ++ file.text ++ "\x60 is used twice"))
  | .configuration detail => named "Configuration" (text detail)

/-- The outcome of storing a read model. -/
def outcome : Except RegistryError StoredReadModel → String
  | .ok s => named "Ok" (storedReadModel s)
  | .error e => named "Err" (error e)

end Chronicle.Contract.Notation
