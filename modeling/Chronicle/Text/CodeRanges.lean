set_option autoImplicit false

/-!
# Ranges of code points

Sets of code points as lists of closed ranges. A list in normal form ascends, and a gap is left
between one range and the next; the operations of this file bring their results into that form.
-/

namespace Chronicle.Text

/-- Closed ranges of code points. -/
abbrev CodeRanges := List (Nat × Nat)

/-- The greatest code point. -/
def lastCodePoint : Nat := 0x10FFFF

/-- Whether a code point falls into one of the ranges. -/
def inRanges (ranges : CodeRanges) (n : Nat) : Bool :=
  ranges.any fun r => r.1 ≤ n && n ≤ r.2

namespace CodeRanges

/-- Joins a range with those after it that it reaches or touches, which start no earlier. -/
def joined (first last : Nat) : CodeRanges → CodeRanges
  | [] => [(first, last)]
  | (a, b) :: rest =>
      if a ≤ last + 1 then joined first (max last b) rest
      else (first, last) :: joined a b rest

/-- The normal form of any ranges. -/
def normalize (ranges : CodeRanges) : CodeRanges :=
  match ranges.mergeSort fun r s => r.1 ≤ s.1 with
  | [] => []
  | (a, b) :: rest => joined a b rest

/-- The code points from `first` on that are in none of the ranges, which ascend. -/
def gapsFrom (first : Nat) : CodeRanges → CodeRanges
  | [] => if first ≤ lastCodePoint then [(first, lastCodePoint)] else []
  | (a, b) :: rest => if first < a then (first, a - 1) :: gapsFrom (b + 1) rest
      else gapsFrom (b + 1) rest

/-- The code points that are in none of the ranges. -/
def complement (ranges : CodeRanges) : CodeRanges := gapsFrom 0 ranges

/-- The code points in either set. -/
def union (left right : CodeRanges) : CodeRanges := normalize (left ++ right)

/-- The code points in both sets. -/
def intersection (left right : CodeRanges) : CodeRanges :=
  complement (union (complement left) (complement right))

/-- The code points of the first set that are not in the second. -/
def difference (left right : CodeRanges) : CodeRanges := intersection left (complement right)

/-- The code points in exactly one of the sets. -/
def symmetricDifference (left right : CodeRanges) : CodeRanges :=
  union (difference left right) (difference right left)

end CodeRanges

end Chronicle.Text
