import Chronicle.Json.Basic
import Chronicle.Name
import Chronicle.Timestamp.Text
import Chronicle.UniqueId

set_option autoImplicit false

/-!
# Records in JSON

A record is written as an object. It is read from an object, where unknown keys are ignored and a
repeated known key is refused, or from the array of its fields in order. Optional fields may be
missing or `null`; names, ids and timestamps are checked as they are read.
-/

namespace Chronicle

namespace Fields

/-- Whether no two of the fields have one key. -/
def distinct : Fields → Bool
  | [] => true
  | (key, _) :: rest => (get? key rest).isNone && distinct rest

/-- The fields with the given names, unless one of them is repeated. -/
def known? (names : List String) (fields : Fields) : Option Fields :=
  let found := fields.filter fun f => names.contains f.1
  if distinct found then some found else none

/-- Reads a field that must be there. -/
def required? {α : Type} (key : String) (read : Json → Option α) (fields : Fields) : Option α :=
  (get? key fields).bind read

/-- Reads a field that may be missing or `null`. -/
def optional? {α : Type} (key : String) (read : Json → Option α) (fields : Fields) :
    Option (Option α) :=
  match get? key fields with
  | none => some none
  | some .null => some none
  | some v => (read v).map some

/-- The field, if there is a value for it. -/
def ofOption (key : String) : Option Json → Fields
  | none => []
  | some v => [(key, v)]

end Fields

namespace Json

/-- The fields of a record that is written as an object. -/
def objectRecord? (names : List String) : Json → Option Fields
  | object fields => Fields.known? names fields
  | _ => none

/-- The fields of a record that is written as an object, or as the array of its fields in order. -/
def record? (names : List String) : Json → Option Fields
  | object fields => Fields.known? names fields
  | array items => if items.length ≤ names.length then some (names.zip items) else none
  | _ => none

/-- Any value, with repeated keys merged. -/
def any? (v : Json) : Option Json := some v.settle

/-- A name of the given kind. -/
def name? (kind : NameKind) : Json → Option (Name kind)
  | string text => (Name.parse kind text).toOption
  | _ => none

/-- A timestamp. -/
def timestamp? : Json → Option Timestamp
  | string text => (Timestamp.parse text).toOption
  | _ => none

/-- An id. -/
def id? : Json → Option UniqueId
  | string text => UniqueId.parse? text
  | _ => none

/-- A word of an enumeration: a string, or an object with that word over a blank value. -/
def word? (blank : Json → Bool) : Json → Option String
  | string word => some word
  | object [(word, v)] => if blank v then some word else none
  | _ => none

end Json

end Chronicle
