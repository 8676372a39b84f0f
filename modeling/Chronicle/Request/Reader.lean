import Chronicle.Json.Record
import Chronicle.Registry.Error

set_option autoImplicit false

/-!
# Reading requests

Requests come as JSON documents. Here are the readers of their parts and the causes for which a
request is turned down. A field that is missing and one that is `null` mean the same.
-/

namespace Chronicle

/-- Why a request is turned down or fails. -/
inductive RequestError
  /-- The document is no request. -/
  | malformed
  /-- A part of the document is not the record that it should be. -/
  | record
  | name (error : NameError)
  | timestamp (error : Timestamp.ParseError)
  | id
  /-- A name that stands for nothing. -/
  | unknown
  | registry (error : RegistryError)

/-- What is read from a document. -/
abbrev Reading (α : Type) : Type := Except RequestError α

namespace Request

variable {α : Type}

/-- A value that should be there. -/
def orElse (found : Option α) (e : RequestError) : Reading α :=
  match found with
  | some a => .ok a
  | none => .error e

/-- The value of a field that is there and not `null`. -/
def field? (v : Json) (key : String) : Option Json :=
  match v.get? key with
  | some .null => none
  | found => found

/-- The value of a field, `null` if it is missing. -/
def field (v : Json) (key : String) : Json := (v.get? key).getD .null

/-- Reads a text. -/
def text : Json → Reading String
  | .string s => .ok s
  | _ => .error .malformed

/-- Reads a number of 64 unsigned bits. -/
def number (v : Json) : Reading Nat := orElse v.unsigned? .malformed

/-- Reads a flag. -/
def flag : Json → Reading Bool
  | .bool b => .ok b
  | _ => .error .malformed

/-- Reads each item of a list. -/
def list (read : Json → Reading α) : Json → Reading (List α)
  | .array items => items.mapM read
  | _ => .error .malformed

/-- Reads a name of a kind. -/
def name (kind : NameKind) (v : Json) : Reading (Name kind) := do
  match Name.parse kind (← text v) with
  | .ok n => return n
  | .error e => .error (.name e)

/-- Reads a timestamp. -/
def timestamp (raw : String) : Reading Timestamp :=
  match Timestamp.parse raw with
  | .ok t => .ok t
  | .error e => .error (.timestamp e)

/-- Reads an id. -/
def id (raw : String) : Reading UniqueId := orElse (UniqueId.parse? raw) .id

/-- Reads a field that must be there. -/
def need (v : Json) (key : String) (read : Json → Reading α) : Reading α := do
  read (← orElse (field? v key) .malformed)

/-- Reads a field that may be missing. -/
def optional (v : Json) (key : String) (read : Json → Reading α) : Reading (Option α) :=
  match field? v key with
  | some w => (read w).map some
  | none => .ok none

/-- Reads a field that may be missing and then is as given. -/
def withDefault (v : Json) (key : String) (read : Json → Reading α) (a : α) : Reading α := do
  return (← optional v key read).getD a

end Request

/-- How the texts of ids and instants in a request are read. -/
structure References where
  id : String → Reading UniqueId
  instant : String → Reading Timestamp
  /-- A record in which ids and instants are written by their own texts. -/
  resolved : Json → Reading Json

namespace References

/-- Ids and instants by their own texts. -/
def plain : References := ⟨Request.id, Request.timestamp, .ok⟩

/-- Reads an instant. -/
def time (refs : References) (v : Json) : Reading Timestamp := do refs.instant (← Request.text v)

/-- Reads the id of something stored. -/
def stored (refs : References) (v : Json) : Reading UniqueId := do refs.id (← Request.text v)

end References

end Chronicle
