import Chronicle.Text.Digits
import Chronicle.Word

set_option autoImplicit false

/-!
# Unique ids

The ids of stored events and snapshots: numbers of 128 bits, written as 32 hexadecimal digits
with hyphens, and where fresh ones come from.
-/

namespace Chronicle

/-- A 128-bit id. -/
structure UniqueId where
  number : Nat
  number_lt : number < Word.limit 128
deriving DecidableEq

namespace UniqueId

/-- Ids are ordered as numbers, which is the order of their bytes. -/
instance : Ord UniqueId := ⟨fun a b => compare a.number b.number⟩

/-- An id is given by its number. -/
theorem ext_number {a b : UniqueId} (h : a.number = b.number) : a = b := by
  cases a; cases b; cases h; rfl

instance : Std.LawfulEqOrd UniqueId where
  compare_self {a} := Std.ReflOrd.compare_self (a := a.number)
  eq_of_compare h := ext_number (Std.LawfulEqOrd.eq_of_compare h)

instance : Std.TransOrd UniqueId where
  eq_swap {a b} := Std.OrientedOrd.eq_swap (a := a.number) (b := b.number)
  isLE_trans {a b c} hab hbc :=
    Std.TransOrd.isLE_trans (a := a.number) (b := b.number) (c := c.number) hab hbc

/-- The id of a number, counted around at 128 bits. -/
def ofNat (n : Nat) : UniqueId := ⟨n % Word.limit 128, Nat.mod_lt _ (Word.limit_pos 128)⟩

/-- The digits between the hyphens of the usual form. -/
def dropHyphens? (cs : List Char) : Option (List Char) :=
  if cs.length = 36 ∧ cs[8]? = some '-' ∧ cs[13]? = some '-' ∧ cs[18]? = some '-' ∧
      cs[23]? = some '-' then
    some (cs.take 8 ++ (cs.drop 9).take 4 ++ (cs.drop 14).take 4 ++ (cs.drop 19).take 4 ++
      cs.drop 24)
  else none

/-- The 32 digits of an id text: bare, hyphenated, in braces, or as a URN. -/
def digits? : List Char → Option (List Char)
  | 'u' :: 'r' :: 'n' :: ':' :: 'u' :: 'u' :: 'i' :: 'd' :: ':' :: rest => dropHyphens? rest
  | '\x7b' :: rest => if rest.getLast? = some '\x7d' then dropHyphens? rest.dropLast else none
  | cs => if cs.length = 32 then some cs else dropHyphens? cs

/-- Reads an id. -/
def parse? (text : String) : Option UniqueId := do
  let n ← Text.hexNumber? (← digits? text.toList)
  if h : n < Word.limit 128 then some ⟨n, h⟩ else none

/-- The hyphenated lower-case form. -/
def spell (id : UniqueId) : List Char :=
  let ds := Text.hexDigits 32 id.number
  ds.take 8 ++ '-' :: (ds.drop 8).take 4 ++ '-' :: (ds.drop 12).take 4 ++
    '-' :: (ds.drop 16).take 4 ++ '-' :: ds.drop 20

/-- The hyphenated lower-case form. -/
def text (id : UniqueId) : String := String.ofList id.spell

end UniqueId

/-- Where fresh ids come from: the ids still to be handed out, in order. -/
structure IdSupply where
  issue : Nat → UniqueId
  issued : Nat := 0

namespace IdSupply

/-- The next id. -/
def next (s : IdSupply) : UniqueId := s.issue s.issued

/-- The supply once the next id is taken. -/
def advance (s : IdSupply) : IdSupply := { s with issued := s.issued + 1 }

end IdSupply

end Chronicle
