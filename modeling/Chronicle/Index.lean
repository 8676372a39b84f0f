import Chronicle.OrderedMap
import Chronicle.OrderedSet

set_option autoImplicit false

/-!
# Secondary indices

An index maps a lookup key to the set of primary keys recorded under it. A key is dropped with
its last primary key, so no key stands over an empty set.
-/

namespace Chronicle

/-- For each lookup key the set of primary keys under it. -/
abbrev Index (κ ρ : Type) := OrderedMap κ (OrderedSet ρ)

namespace Index

variable {κ ρ : Type} [Ord κ] [Ord ρ]

/-- The primary keys under a lookup key, in order. -/
def get (key : κ) (index : Index κ ρ) : OrderedSet ρ := (OrderedMap.find? key index).getD []

/-- Whether the pair is recorded. -/
def has (key : κ) (primary : ρ) (index : Index κ ρ) : Bool :=
  OrderedSet.contains primary (index.get key)

/-- Records a pair. -/
def insert (key : κ) (primary : ρ) (index : Index κ ρ) : Index κ ρ :=
  OrderedMap.insert key (OrderedSet.insert primary (index.get key)) index

/-- Takes a pair away. -/
def erase (key : κ) (primary : ρ) (index : Index κ ρ) : Index κ ρ :=
  match OrderedMap.find? key index with
  | none => index
  | some primaries =>
      match OrderedSet.erase primary primaries with
      | [] => OrderedMap.erase key index
      | left => OrderedMap.insert key left index

/-- Whether some primary key is recorded under the key. -/
def containsKey (key : κ) (index : Index κ ρ) : Bool := OrderedMap.contains key index

/-- A change of an index. -/
inductive Change (κ ρ : Type)
  | insert (key : κ) (primary : ρ)
  | erase (key : κ) (primary : ρ)
  | clear

/-- Makes a change, and answers whether the pair was new, or was there; clearing answers nothing. -/
def change (index : Index κ ρ) : Change κ ρ → Index κ ρ × Option Bool
  | .insert key primary => (index.insert key primary, some (!index.has key primary))
  | .erase key primary => (index.erase key primary, some (index.has key primary))
  | .clear => ([], none)

end Index

end Chronicle
