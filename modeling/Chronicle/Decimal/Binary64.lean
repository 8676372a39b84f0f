set_option autoImplicit false

/-!
# Finite binary64 numbers

A finite 64-bit float as its sign and its magnitude, counted in units of 2⁻¹⁰⁷⁴, the smallest
positive one. Every finite float is such a multiple, so order and equality are those of the
integers; rounding to 53 significant bits is exact arithmetic on natural numbers.
-/

namespace Chronicle

/-- A finite binary64 number: a sign and a magnitude in units of 2⁻¹⁰⁷⁴. -/
structure Binary64 where
  negative : Bool
  units : Nat
deriving DecidableEq

namespace Binary64

/-- The units of the number one. -/
def one : Nat := Nat.pow 2 1074

/-- The least magnitude, in units, beyond the finite numbers. -/
def limit : Nat := Nat.pow 2 2098

/-- The distance between neighbouring floats of magnitude about `units`. -/
def spacing (units : Nat) : Nat := Nat.pow 2 (Nat.log2 units - 52)

/-- The integer nearest to `num / den`; a half goes to the even neighbour. -/
def roundDiv (num den : Nat) : Nat :=
  let q := num / den
  let r := num % den
  if 2 * r < den then q
  else if den < 2 * r then q + 1
  else q + q % 2

/-- The multiple of the spacing nearest to `num / den` units. -/
def nearest (num den : Nat) : Nat :=
  let gap := spacing (num / den)
  gap * roundDiv num (den * gap)

/-- The signed magnitude in units. -/
def value (x : Binary64) : Int := if x.negative then -(x.units : Int) else x.units

/-- Numeric order; the two zeros are equal. -/
def compare (x y : Binary64) : Ordering := Ord.compare x.value y.value

/-- The float nearest to an integer of 64 bits. -/
def ofInt (n : Int) : Binary64 := ⟨decide (n < 0), nearest (n.natAbs * one) 1⟩

/-- The product of two magnitudes, rounded. -/
def mulUnits (a b : Nat) : Nat := nearest (a * b) one

/-- The quotient of two magnitudes, rounded. -/
def divUnits (a b : Nat) : Nat := nearest (a * one) b

/-- The magnitude of the float nearest to a power of ten. -/
def powerOfTen (e : Nat) : Nat := nearest (Nat.pow 10 e * one) 1

/-- Divides a magnitude by `10 ^ e`, at most `10 ^ 308` at a time. -/
def divPowerOfTen (units e : Nat) : Nat :=
  if e ≤ 308 then divUnits units (powerOfTen e)
  else if units = 0 then 0
  else divPowerOfTen (divUnits units (powerOfTen 308)) (e - 308)
termination_by e

/--
The magnitude of `significand · 10 ^ exponent`: the significand is rounded first and then scaled
by a rounded power of ten. There is none beyond the finite numbers.
-/
def scale (significand : Nat) (exponent : Int) : Option Nat :=
  let units := nearest (significand * one) 1
  match exponent with
  | .ofNat e =>
      if e ≤ 308 then
        let scaled := mulUnits units (powerOfTen e)
        if scaled < limit then some scaled else none
      else if units = 0 then some 0 else none
  | .negSucc e => some (divPowerOfTen units (e + 1))

end Binary64

end Chronicle
