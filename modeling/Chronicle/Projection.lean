import Chronicle.Path

set_option autoImplicit false

/-!
# Projections

The part of a document that a list of paths selects. Missing fields are left out; an array keeps
one element for each element of the source.
-/

namespace Chronicle

namespace FieldPath

mutual

/-- What the path selects from a value, in the place where it stands there. -/
def select : FieldPath → Json → Option Json
  | [], v => some v
  | .key name :: rest, .object fields =>
      match Fields.get? name fields with
      | some v => (select rest v).map fun w => .object [(name, w)]
      | none => none
  | .each :: rest, .array items => some (.array (selectEach rest items))
  | _, _ => none

/-- What the path selects from each item, an empty object where it selects nothing. -/
def selectEach (path : FieldPath) : List Json → List Json
  | [] => []
  | v :: more =>
      (match select path v with
        | some w => w
        | none => .emptyObject) :: selectEach path more

end

end FieldPath

namespace Json

mutual

/-- Deep merge: objects by key, arrays by index; elsewhere the second value wins. -/
def merge : Json → Json → Json
  | object as, object bs => object (mergeFields as bs)
  | array as, array bs => array (mergeItems as bs)
  | _, b => b

/-- Merges each field of the second list into the first. -/
def mergeFields (as : List (String × Json)) : List (String × Json) → List (String × Json)
  | [] => as
  | (key, b) :: bs =>
      let merged :=
        match Fields.get? key as with
        | some a => merge a b
        | none => b
      mergeFields (Fields.set key merged as) bs

/-- Merges item by item; the longer list keeps its end. -/
def mergeItems : List Json → List Json → List Json
  | [], bs => bs
  | as, [] => as
  | a :: as, b :: bs => merge a b :: mergeItems as bs

end

end Json

/-- The paths that a projection selects. -/
abbrev Projection := List FieldPath

namespace Projection

/-- The projection onto dotted paths. -/
def parse (paths : List String) : Projection := paths.map FieldPath.parse

/-- The selected part of a document: what each path selects, merged in order. -/
def apply (projection : Projection) (source : Json) : Json :=
  projection.foldl
    (fun projected path =>
      match path.select source with
      | some selected => projected.merge selected
      | none => projected)
    .emptyObject

end Projection

end Chronicle
