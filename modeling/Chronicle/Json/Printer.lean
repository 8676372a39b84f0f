import Chronicle.Json.Basic
import Chronicle.Decimal.Shortest
import Chronicle.Text.Digits

set_option autoImplicit false

/-!
# Compact JSON text

The text of a value without any blank: fields in their order, strings with only the quote, the
backslash and the control characters escaped, floats by their shortest text.
-/

namespace Chronicle

/-- The decimal text of an integer. -/
def Number.spellInt (n : Int) : List Char :=
  if n < 0 then '-' :: Nat.toDigits 10 n.natAbs else Nat.toDigits 10 n.natAbs

/-- The text of a number. -/
def Number.spell : Number → List Char
  | int n => spellInt n
  | float x => x.spell

namespace Json

/-- How a character is written inside a string. -/
def spellChar (c : Char) : List Char :=
  if c = '"' then ['\\', '"']
  else if c = '\\' then ['\\', '\\']
  else if c = '\n' then ['\\', 'n']
  else if c = '\r' then ['\\', 'r']
  else if c = '\t' then ['\\', 't']
  else if c = '\x08' then ['\\', 'b']
  else if c = '\x0c' then ['\\', 'f']
  else if c.toNat < 0x20 then
    ['\\', 'u', '0', '0', Text.hexDigit (c.toNat / 16), Text.hexDigit (c.toNat % 16)]
  else [c]

/-- A string between quotes. -/
def spellString (text : String) : List Char :=
  '"' :: (text.toList.flatMap spellChar ++ ['"'])

mutual

/-- The compact text of a value. -/
def spell : Json → List Char
  | null => ['n', 'u', 'l', 'l']
  | bool true => ['t', 'r', 'u', 'e']
  | bool false => ['f', 'a', 'l', 's', 'e']
  | number n => n.spell
  | string text => spellString text
  | array items => '[' :: (spellItems items ++ [']'])
  | object fields => '\x7b' :: (spellFields fields ++ ['\x7d'])

/-- The items with commas between them. -/
def spellItems : List Json → List Char
  | [] => []
  | [v] => spell v
  | v :: w :: rest => spell v ++ ',' :: spellItems (w :: rest)

/-- The fields with commas between them. -/
def spellFields : List (String × Json) → List Char
  | [] => []
  | [(key, v)] => spellString key ++ ':' :: spell v
  | (key, v) :: w :: rest => spellString key ++ ':' :: (spell v ++ ',' :: spellFields (w :: rest))

end

/-- The compact text of a value. -/
def text (v : Json) : String := String.ofList v.spell

end Json

end Chronicle
