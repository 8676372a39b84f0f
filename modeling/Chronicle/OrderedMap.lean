set_option autoImplicit false

/-!
# Ordered maps

A finite map kept as the list of its entries in ascending order of their keys. Equal maps are
equal lists, and the entries of a map are read in key order.
-/

namespace Chronicle

/-- A finite map as the ascending list of its entries. -/
abbrev OrderedMap (κ α : Type) := List (κ × α)

namespace OrderedMap

variable {κ α : Type} [Ord κ]

/-- Puts `a` under `k`, in the place of whatever stood there. -/
def insert (k : κ) (a : α) : OrderedMap κ α → OrderedMap κ α
  | [] => [(k, a)]
  | (k', a') :: rest =>
      match compare k k' with
      | .lt => (k, a) :: (k', a') :: rest
      | .eq => (k, a) :: rest
      | .gt => (k', a') :: insert k a rest

/-- Takes away the entry of `k`. -/
def erase (k : κ) : OrderedMap κ α → OrderedMap κ α
  | [] => []
  | (k', a') :: rest =>
      match compare k k' with
      | .lt => (k', a') :: rest
      | .eq => rest
      | .gt => (k', a') :: erase k rest

/-- What stands under `k`. -/
def find? (k : κ) : OrderedMap κ α → Option α
  | [] => none
  | (k', a') :: rest =>
      match compare k k' with
      | .lt => none
      | .eq => some a'
      | .gt => find? k rest

/-- Whether something stands under `k`. -/
def contains (k : κ) (m : OrderedMap κ α) : Bool := (find? k m).isSome

/-- The keys strictly ascend. -/
def Ascending (m : OrderedMap κ α) : Prop :=
  m.Pairwise fun e f => compare e.1 f.1 = .lt

end OrderedMap

end Chronicle
