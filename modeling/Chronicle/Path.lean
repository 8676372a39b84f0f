import Chronicle.Json.Basic
import Chronicle.Text.Digits
import Chronicle.Word

set_option autoImplicit false

/-!
# Field paths

Dotted paths into a JSON value, such as `items[].sku`: keys and array markers. Main statement:
a joined path is resolved by its parts in turn.
-/

namespace Chronicle

/-- One step of a path: a field or array index, or the mark that the rest is meant for each item. -/
inductive Segment
  | key (name : String)
  | each
deriving DecidableEq

/-- A path as the list of its segments; the empty path is the whole value. -/
abbrev FieldPath := List Segment

namespace Segment

/-- The pieces of a text between the separators. -/
def pieces (separator : Char) : List Char → List (List Char)
  | [] => [[]]
  | c :: cs =>
      if c = separator then [] :: pieces separator cs
      else
        match pieces separator cs with
        | [] => [[c]]
        | piece :: more => (c :: piece) :: more

/-- Takes the `[]` marks off the end of a piece, which is given backwards, and counts them. -/
def stripMarks : List Char → List Char × Nat
  | ']' :: '[' :: rest => ((stripMarks rest).1, (stripMarks rest).2 + 1)
  | cs => (cs, 0)

/-- The segments of a piece between dots: its key, if it has one, and a mark for each `[]`. -/
def ofPiece (piece : List Char) : List Segment :=
  let (backwards, marks) := stripMarks piece.reverse
  let keys := if backwards.isEmpty then [] else [key (String.ofList backwards.reverse)]
  keys ++ List.replicate marks each

end Segment

namespace FieldPath

/-- Reads a dotted path; pieces without text are skipped. -/
def parse (text : String) : FieldPath :=
  (Segment.pieces '.' text.toList).flatMap Segment.ofPiece

/-- The dotted text of the segments after the first. -/
def spellRest : FieldPath → List Char
  | [] => []
  | .key name :: rest => '.' :: name.toList ++ spellRest rest
  | .each :: rest => '[' :: ']' :: spellRest rest

/-- The dotted text of a path. -/
def spell : FieldPath → List Char
  | .key name :: rest => name.toList ++ spellRest rest
  | path => spellRest path

/-- The dotted text of a path. -/
def text (path : FieldPath) : String := String.ofList path.spell

end FieldPath

/-- Reads an array index, a number of 64 bits. -/
def arrayIndex? (text : String) : Option Nat := Text.unsigned? 64 text.toList

/-- What a key leads to: a field of an object or, if the key is an index, an item of an array. -/
def Json.step (key : String) : Json → Option Json
  | .object fields => Fields.get? key fields
  | .array items =>
      match arrayIndex? key with
      | some i => items[i]?
      | none => none
  | _ => none

namespace FieldPath

/-- The value at the end of a path. Marks are passed over: they stand for the array itself. -/
def resolve : FieldPath → Json → Option Json
  | [], v => some v
  | .key name :: rest, v =>
      match v.step name with
      | some w => resolve rest w
      | none => none
  | .each :: rest, v => resolve rest v

/-- A joined path is resolved by its first part and then, from there, by its second. -/
theorem resolve_append (p q : FieldPath) (v : Json) :
    resolve (p ++ q) v = (resolve p v).bind (resolve q) := by
  induction p generalizing v with
  | nil => rfl
  | cons s p ih =>
      cases s with
      | key name =>
          simp only [List.cons_append, resolve]
          cases v.step name with
          | none => rfl
          | some w => exact ih w
      | each => exact ih v

end FieldPath

end Chronicle
