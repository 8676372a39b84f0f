import Chronicle.Word

set_option autoImplicit false

/-!
# Digits

Decimal and hexadecimal digits: their values and the numbers they spell, with or without a bound.
-/

namespace Chronicle.Text

/-- The value of a hexadecimal digit. -/
def hexValue? (c : Char) : Option Nat :=
  if '0' ≤ c ∧ c ≤ '9' then some (c.toNat - 48)
  else if 'a' ≤ c ∧ c ≤ 'f' then some (c.toNat - 87)
  else if 'A' ≤ c ∧ c ≤ 'F' then some (c.toNat - 55)
  else none

/-- The lower-case digit of a number below sixteen. -/
def hexDigit (n : Nat) : Char :=
  if n < 10 then Char.ofNat (n + 48) else Char.ofNat (n + 87)

/-- The number that digits spell after `n`; none if one of them is no digit. -/
def hexNumberFrom? (n : Nat) : List Char → Option Nat
  | [] => some n
  | c :: cs =>
      match hexValue? c with
      | some d => hexNumberFrom? (n * 16 + d) cs
      | none => none

/-- The number that hexadecimal digits spell. -/
def hexNumber? (cs : List Char) : Option Nat := hexNumberFrom? 0 cs

/-- The `width` lowest hexadecimal digits of a number, the highest first. -/
def hexDigits : Nat → Nat → List Char
  | 0, _ => []
  | width + 1, n => hexDigits width (n / 16) ++ [hexDigit (n % 16)]

/-- Whether the character is a decimal digit. -/
def isDigit (c : Char) : Bool := '0' ≤ c && c ≤ '9'

/-- The value of a decimal digit. -/
def digitValue (c : Char) : Nat := c.toNat - 48

/-- The number that a list of decimal digits spells. -/
def digitsValue (ds : List Char) : Nat := ds.foldl (fun n d => n * 10 + digitValue d) 0

/-- Reads a number that fits into `bits` bits: digits, with a plus sign allowed in front. -/
def unsigned? (bits : Nat) (cs : List Char) : Option Nat :=
  let ds :=
    match cs with
    | '+' :: rest => rest
    | cs => cs
  if ds.isEmpty || !ds.all isDigit then none
  else
    let n := digitsValue ds
    if n < Word.limit bits then some n else none

/-- The decimal digits of a number. -/
def numeral (n : Nat) : String := String.ofList (Nat.toDigits 10 n)

/-- The `width` lowest decimal digits of a number, the highest first. -/
def paddedDigits : Nat → Nat → List Char
  | 0, _ => []
  | width + 1, n => paddedDigits width (n / 10) ++ [Char.ofNat (n % 10 + 48)]

end Chronicle.Text
