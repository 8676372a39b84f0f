import Chronicle.Path
import Chronicle.Pattern

set_option autoImplicit false

/-!
# Filters

A filter is a tree of conditions on a JSON value: combinators over clauses, each clause a
condition on the value at a path. Filters are equal as trees, where values are compared
structurally and patterns by their source and case flag.
-/

namespace Chronicle

/-- How a value may have to stand to a bound. -/
inductive Relation
  | less
  | greater
  | atMost
  | atLeast
deriving DecidableEq

/-- Whether a value that compares to the bound in the given way is in the relation. -/
def Relation.holds : Relation → Ordering → Bool
  | less, o => o == .lt
  | greater, o => o == .gt
  | atMost, o => o != .gt
  | atLeast, o => o != .lt

mutual

/-- A predicate on JSON values. -/
inductive Filter
  | all (clauses : List Filter)
  | any (clauses : List Filter)
  | not (clause : Filter)
  | field (path : FieldPath) (condition : Condition)

/-- What the value at a path must satisfy: equal a literal, or pass every test. -/
inductive Condition
  | equals (value : Json)
  | passes (tests : List Test)

/-- A test of the value at a path, which may be missing. -/
inductive Test
  | equal (value : Json)
  | differs (value : Json)
  | compares (relation : Relation) (bound : Json)
  | oneOf (values : List Json)
  | defined (expected : Bool)
  | contains (text : String)
  | beginsWith (text : String)
  | fits (pattern : Pattern)
  | includes (member : Member)
  | under (key : String) (condition : Condition)

/-- What some element of an array must be. -/
inductive Member
  | containing (text : String)
  | equalTo (value : Json)
  | satisfying (filter : Filter)

end

/-- The filter that every value passes. -/
def Filter.everything : Filter := .all []

/-- Whether the filter has no clause at all. -/
def Filter.isEmpty : Filter → Bool
  | .all [] => true
  | _ => false

mutual

/-- Equality of filters. -/
def Filter.same : Filter → Filter → Bool
  | .all fs, .all gs => Filter.sameList fs gs
  | .any fs, .any gs => Filter.sameList fs gs
  | .not f, .not g => f.same g
  | .field p c, .field q d => p == q && c.same d
  | _, _ => false

/-- Equality of lists of filters. -/
def Filter.sameList : List Filter → List Filter → Bool
  | [], [] => true
  | f :: fs, g :: gs => f.same g && Filter.sameList fs gs
  | _, _ => false

/-- Equality of conditions. -/
def Condition.same : Condition → Condition → Bool
  | .equals v, .equals w => v.same w
  | .passes ts, .passes us => Test.sameList ts us
  | _, _ => false

/-- Equality of lists of tests. -/
def Test.sameList : List Test → List Test → Bool
  | [], [] => true
  | t :: ts, u :: us => t.same u && Test.sameList ts us
  | _, _ => false

/-- Equality of tests. -/
def Test.same : Test → Test → Bool
  | .equal v, .equal w => v.same w
  | .differs v, .differs w => v.same w
  | .compares r v, .compares q w => r == q && v.same w
  | .oneOf vs, .oneOf ws => Json.sameItems vs ws
  | .defined b, .defined d => b == d
  | .contains s, .contains t => s == t
  | .beginsWith s, .beginsWith t => s == t
  | .fits p, .fits q => p == q
  | .includes m, .includes n => m.same n
  | .under k c, .under l d => k == l && c.same d
  | _, _ => false

/-- Equality of what elements must be. -/
def Member.same : Member → Member → Bool
  | .containing s, .containing t => s == t
  | .equalTo v, .equalTo w => v.same w
  | .satisfying f, .satisfying g => f.same g
  | _, _ => false

end

end Chronicle
