set_option autoImplicit false

/-!
# Timestamps

Instants to the microsecond, leap seconds included. An instant is a place on a scale with two
million microsecond slots for each second: the upper half of a second's slots is the leap second
that may follow it. The order of instants is the order of their slots.
-/

namespace Chronicle

/-- An instant, by its slot on the scale. -/
structure Timestamp where
  slot : Int
deriving DecidableEq

namespace Timestamp

/-- The slots of one second. -/
def slotsPerSecond : Int := 2000000

/-- The instant `micro` microseconds into a second; from a million on, into its leap second. -/
def ofSecond (second : Int) (micro : Nat) : Timestamp := ⟨second * slotsPerSecond + micro⟩

/-- The second in which the instant falls, counted from the start of the year zero. -/
def second (t : Timestamp) : Int := t.slot / slotsPerSecond

/-- The microseconds since that second began. -/
def micro (t : Timestamp) : Nat := (t.slot % slotsPerSecond).toNat

instance : Ord Timestamp := ⟨fun t u => compare t.slot u.slot⟩

instance : LT Timestamp := ⟨fun t u => t.slot < u.slot⟩

instance : LE Timestamp := ⟨fun t u => t.slot ≤ u.slot⟩

instance (t u : Timestamp) : Decidable (t < u) := Int.decLt t.slot u.slot

instance (t u : Timestamp) : Decidable (t ≤ u) := Int.decLe t.slot u.slot

/-- An instant is given by its slot. -/
theorem ext_slot {t u : Timestamp} (h : t.slot = u.slot) : t = u := by
  cases t; cases u; cases h; rfl

instance : Std.LawfulEqOrd Timestamp where
  compare_self {a} := Std.ReflOrd.compare_self (a := a.slot)
  eq_of_compare h := ext_slot (Std.LawfulEqOrd.eq_of_compare h)

instance : Std.TransOrd Timestamp where
  eq_swap {a b} := Std.OrientedOrd.eq_swap (a := a.slot) (b := b.slot)
  isLE_trans {a b c} hab hbc :=
    Std.TransOrd.isLE_trans (a := a.slot) (b := b.slot) (c := c.slot) hab hbc

/-- One microsecond later: the end of a second, or of its leap second, is the next second. -/
def next (t : Timestamp) : Timestamp :=
  if t.micro = 999999 ∨ t.micro = 1999999 then ofSecond (t.second + 1) 0 else ⟨t.slot + 1⟩

/-- The next instant is later. -/
theorem lt_next (t : Timestamp) : t < t.next := by
  show t.slot < t.next.slot
  unfold next ofSecond second slotsPerSecond
  split
  · have := Int.mul_ediv_add_emod t.slot 2000000
    have := Int.emod_lt_of_pos t.slot (b := 2000000) (by decide)
    simp only
    omega
  · simp only
    omega

end Timestamp

end Chronicle
