set_option autoImplicit false

/-!
# Ordered sets

A finite set kept as the ascending list of its members. Equal sets are equal lists.
-/

namespace Chronicle

/-- A finite set as the ascending list of its members. -/
abbrev OrderedSet (α : Type) := List α

namespace OrderedSet

variable {α : Type} [Ord α]

/-- Adds a member. -/
def insert (a : α) : OrderedSet α → OrderedSet α
  | [] => [a]
  | b :: rest =>
      match compare a b with
      | .lt => a :: b :: rest
      | .eq => b :: rest
      | .gt => b :: insert a rest

/-- Takes a member away. -/
def erase (a : α) : OrderedSet α → OrderedSet α
  | [] => []
  | b :: rest =>
      match compare a b with
      | .lt => b :: rest
      | .eq => rest
      | .gt => b :: erase a rest

/-- Whether `a` is a member. -/
def contains (a : α) : OrderedSet α → Bool
  | [] => false
  | b :: rest =>
      match compare a b with
      | .lt => false
      | .eq => true
      | .gt => contains a rest

/-- The set of a list's elements. -/
def ofElements (as : List α) : OrderedSet α := as.foldl (fun s a => insert a s) []

/-- The members strictly ascend. -/
def Ascending (s : OrderedSet α) : Prop := s.Pairwise fun a b => compare a b = .lt

end OrderedSet

end Chronicle
