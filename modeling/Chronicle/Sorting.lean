import Chronicle.Json.Printer
import Chronicle.Path
import Chronicle.StableSort

set_option autoImplicit false

/-!
# Sorting documents

The order of JSON values, missing ones included, and stable sorting by several keys. A sort
specification may be nested; it is flattened into keys in declared order.
-/

namespace Chronicle

namespace Json

/-- The place of a value's kind in the order of kinds. -/
def rank : Json → Nat
  | null => 1
  | bool _ => 2
  | number _ => 3
  | string _ => 4
  | array _ => 5
  | object _ => 6

mutual

/--
The order of values: by kind, and within a kind booleans, numbers and strings naturally, arrays
element by element and then by length, objects by their compact text.
-/
def compare : Json → Json → Ordering
  | bool a, bool b => Ord.compare a b
  | number a, number b => a.compare b
  | string a, string b => Ord.compare a b
  | array as, array bs => compareItems as bs
  | object as, object bs => Ord.compare (object as).text (object bs).text
  | a, b => Ord.compare a.rank b.rank

/-- The order of lists of values: the first difference decides, then the length. -/
def compareItems : List Json → List Json → Ordering
  | [], [] => .eq
  | [], _ :: _ => .lt
  | _ :: _, [] => .gt
  | a :: as, b :: bs => (compare a b).then (compareItems as bs)

end

/-- The order of values of which either may be missing: missing ones come first. -/
def compare? : Option Json → Option Json → Ordering
  | none, none => .eq
  | none, some _ => .lt
  | some _, none => .gt
  | some a, some b => compare a b

end Json

/-- The direction of a sort key. -/
inductive Direction
  | ascending
  | descending
deriving DecidableEq

/-- One sort key. -/
structure SortKey where
  path : FieldPath
  direction : Direction
deriving DecidableEq

/-- Sort keys, the decisive first. -/
abbrev SortKeys := List SortKey

namespace Direction

/-- The word of a direction. -/
def word : Direction → String
  | ascending => "ASC"
  | descending => "DESC"

/-- The ASCII lower case of a character. -/
def lowerAscii (c : Char) : Char := if 'A' ≤ c ∧ c ≤ 'Z' then Char.ofNat (c.toNat + 32) else c

/-- Reads a direction in any mixture of cases. -/
def parse? (text : String) : Option Direction :=
  let lower := text.toList.map lowerAscii
  if lower = ['a', 's', 'c'] then some ascending
  else if lower = ['d', 'e', 's', 'c'] then some descending
  else none

/-- An ordering as seen in a direction. -/
def orient : Direction → Ordering → Ordering
  | ascending, o => o
  | descending, o => o.swap

end Direction

namespace SortKeys

mutual

/-- The keys of a specification below `base`. -/
def below (base : FieldPath) : Json → SortKeys
  | .object fields => ofFields base fields
  | _ => []

/-- The keys of each field in turn: a direction is a key, an object is entered, all else ignored. -/
def ofFields (base : FieldPath) : List (String × Json) → SortKeys
  | [] => []
  | (key, .string word) :: rest =>
      (match Direction.parse? word with
        | some direction => [⟨base ++ FieldPath.parse key, direction⟩]
        | none => []) ++ ofFields base rest
  | (key, v) :: rest => below (base ++ FieldPath.parse key) v ++ ofFields base rest

end

/-- The keys of a possibly nested specification. -/
def ofJson (spec : Json) : SortKeys := below [] spec

/-- The order of two documents under the keys: the first key that tells them apart decides. -/
def compare : SortKeys → Json → Json → Ordering
  | [], _, _ => .eq
  | key :: rest, v, w =>
      (key.direction.orient (Json.compare? (key.path.resolve v) (key.path.resolve w))).then
        (compare rest v w)

/-- Sorts documents, found in their carriers by `valueOf`; ties keep their order. -/
def sort {α : Type} (keys : SortKeys) (valueOf : α → Json) (items : List α) : List α :=
  stableSort (fun a b => keys.compare (valueOf a) (valueOf b) == .lt) items

end SortKeys

end Chronicle
