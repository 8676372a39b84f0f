set_option autoImplicit false

/-!
# Stable sorting

Sorting by insertion from the back: an element moves towards the front only past elements that
it is strictly less than, so elements that do not differ keep their order.
-/

namespace Chronicle

variable {α : Type}

/-- Puts an element into a list that is sorted backwards, in front of all it is not less than. -/
def placeBack (less : α → α → Bool) (a : α) : List α → List α
  | [] => [a]
  | b :: rest => if less a b then b :: placeBack less a rest else a :: b :: rest

/-- The elements in ascending order; those that do not differ keep their order. -/
def stableSort (less : α → α → Bool) (items : List α) : List α :=
  (items.foldl (fun sorted a => placeBack less a sorted) []).reverse

end Chronicle
