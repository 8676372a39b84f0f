import Chronicle.Decimal.Binary64

set_option autoImplicit false

/-!
# Shortest decimal text of a float

The decimal of fewest digits that reads back as a given float, and its spelling: positional
notation from 0.00001 up to below 10¹⁶, always with a fraction, and scientific notation with a
signed exponent elsewhere.
-/

namespace Chronicle.Binary64

/-- The decimal `digits · 10 ^ exponent`. -/
structure Decimal where
  digits : Nat
  exponent : Int
deriving DecidableEq

/-- The numerator and denominator of `units · 2⁻¹⁰⁷⁴ / 10 ^ e`. -/
def onGrid (units : Nat) (e : Int) : Nat × Nat :=
  match e with
  | .ofNat e => (units, one * Nat.pow 10 e)
  | .negSucc e => (units * Nat.pow 10 (e + 1), one)

/--
Whether the grid point `c · 10 ^ e` reads back as `units`: it lies no further than half the
spacing away, less below a power of two; the ends count for an even significand.
-/
def readsBack (units : Nat) (e : Int) (c : Nat) : Bool :=
  let gap := spacing units
  let below := if units = Nat.pow 2 (Nat.log2 units) ∧ 1 < gap then gap else 2 * gap
  let even := units / gap % 2 == 0
  let (num, den) := onGrid 1 e
  let point := 4 * c * den
  let low := (4 * units - below) * num
  let high := (4 * units + 2 * gap) * num
  if even then low ≤ point && point ≤ high else low < point && point < high

/-- The grid point of `10 ^ e` that reads back as `units` and is nearest to it. -/
def gridPoint? (units : Nat) (e : Int) : Option Nat :=
  let (num, den) := onGrid units e
  let c := num / den
  match readsBack units e c, readsBack units e (c + 1) with
  | true, true => some (roundDiv num den)
  | true, false => some c
  | false, true => some (c + 1)
  | false, false => none

/-- Tries the grids from `10 ^ e` on, each ten times finer than the one before. -/
def searchGrids (units : Nat) : Nat → Int → Decimal
  | 0, e => ⟨roundDiv (onGrid units e).1 (onGrid units e).2, e⟩
  | fuel + 1, e =>
      match gridPoint? units e with
      | some c => ⟨c, e⟩
      | none => searchGrids units fuel (e - 1)

/-- A decimal exponent above that of the leading digit. -/
def topExponent (units : Nat) : Int := ((Nat.log2 units : Int) - 1074) * 30103 / 100000 + 2

/-- The shortest decimal that reads back as `units`, the nearest of those. -/
def shortest (units : Nat) : Decimal := searchGrids units 24 (topExponent units)

/-- The spelling of a positive decimal. -/
def Decimal.spell (d : Decimal) : List Char :=
  let ds := Nat.toDigits 10 d.digits
  let leading := d.exponent + ds.length - 1
  if -5 ≤ leading ∧ leading < 16 then
    if 0 ≤ d.exponent then ds ++ List.replicate d.exponent.toNat '0' ++ ['.', '0']
    else if 0 ≤ leading then ds.take (leading.toNat + 1) ++ '.' :: ds.drop (leading.toNat + 1)
    else ['0', '.'] ++ List.replicate (-leading - 1).toNat '0' ++ ds
  else
    let fraction := if ds.length ≤ 1 then [] else '.' :: ds.drop 1
    let sign := if leading < 0 then '-' else '+'
    ds.take 1 ++ fraction ++ ['e', sign] ++ Nat.toDigits 10 leading.natAbs

/-- The shortest text that reads back as the float. -/
def spell (x : Binary64) : List Char :=
  let digits := if x.units = 0 then ['0', '.', '0'] else (shortest x.units).spell
  if x.negative then '-' :: digits else digits

end Chronicle.Binary64
