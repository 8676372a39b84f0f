import Chronicle.Json.Basic
import Chronicle.Text.Digits
import Chronicle.Word

set_option autoImplicit false

/-!
# Reading JSON text

A total reader for JSON texts. It keeps repeated keys, which a later step may merge or refuse,
and works on the characters that are left: each part of the grammar returns what it read and the
rest. A shape says which fields of records are kept; the values of others are passed over, which
takes their grammar alone into account. Main definitions: `Json.read?`, the value of a whole text,
and `Json.readAs?`, the part of it that has a shape.
-/

namespace Chronicle.Json

open Text (hexValue? isDigit digitValue digitsValue)

/-- The characters allowed between the tokens of a text. -/
def isSpace (c : Char) : Bool := c == ' ' || c == '\n' || c == '\t' || c == '\r'

/-- The rest of the text after blanks. -/
def skipSpaces (cs : List Char) : List Char := cs.dropWhile isSpace

/-- The value of four hexadecimal digits. -/
def hexQuad? (a b c d : Char) : Option Nat := do
  return ((← hexValue? a) * 16 + (← hexValue? b)) * 256 + (← hexValue? c) * 16 + (← hexValue? d)

/-- The character that a one-letter escape stands for. -/
def escaped? : Char → Option Char
  | '"' => some '"'
  | '\\' => some '\\'
  | '/' => some '/'
  | 'b' => some '\x08'
  | 'f' => some '\x0c'
  | 'n' => some '\n'
  | 'r' => some '\r'
  | 't' => some '\t'
  | _ => none

/--
The characters of a string up to its closing quote, and the rest. Control characters must be
escaped; a code unit of the upper half of a pair must be followed by one of the lower half.
-/
def readChars : List Char → Option (List Char × List Char)
  | [] => none
  | '"' :: rest => some ([], rest)
  | '\\' :: 'u' :: a :: b :: c :: d :: rest =>
      match hexQuad? a b c d with
      | none => none
      | some n =>
          if 0xD800 ≤ n ∧ n < 0xDC00 then
            match rest with
            | '\\' :: 'u' :: a' :: b' :: c' :: d' :: rest' =>
                match hexQuad? a' b' c' d' with
                | none => none
                | some m =>
                    if 0xDC00 ≤ m ∧ m < 0xE000 then
                      (readChars rest').map fun r =>
                        (Char.ofNat (0x10000 + (n - 0xD800) * 0x400 + (m - 0xDC00)) :: r.1, r.2)
                    else none
            | _ => none
          else if 0xDC00 ≤ n ∧ n < 0xE000 then none
          else (readChars rest).map fun r => (Char.ofNat n :: r.1, r.2)
  | '\\' :: c :: rest =>
      match escaped? c with
      | none => none
      | some c' => (readChars rest).map fun r => (c' :: r.1, r.2)
  | c :: rest =>
      if c.toNat < 0x20 then none else (readChars rest).map fun r => (c :: r.1, r.2)

/--
Appends digits to a significand for as long as it stays below 2⁶⁴; also says how many digits
found room.
-/
def pushDigits (significand : Nat) : List Char → Nat × Nat
  | [] => (significand, 0)
  | d :: ds =>
      let next := significand * 10 + digitValue d
      if next < Word.limit 64 then
        let r := pushDigits next ds
        (r.1, r.2 + 1)
      else (significand, 0)

/-- The parts of a number's text. -/
structure Literal where
  negative : Bool
  whole : List Char
  fraction : List Char
  exponent : Int
  isInteger : Bool

/-- Reads an exponent, zero if there is none. -/
def readExponent : List Char → Option (Int × Bool × List Char)
  | [] => some (0, false, [])
  | e :: rest =>
      if e = 'e' ∨ e = 'E' then
        let (negative, rest) :=
          match rest with
          | '-' :: r => (true, r)
          | '+' :: r => (false, r)
          | r => (false, r)
        let ds := rest.takeWhile isDigit
        if ds.isEmpty then none
        else
          let n : Int := digitsValue ds
          some (if negative then -n else n, true, rest.dropWhile isDigit)
      else some (0, false, e :: rest)

/-- Reads a fraction, empty if there is none. -/
def readFraction : List Char → Option (List Char × List Char)
  | '.' :: rest =>
      let ds := rest.takeWhile isDigit
      if ds.isEmpty then none else some (ds, rest.dropWhile isDigit)
  | rest => some ([], rest)

/-- Reads the parts of a number: no digit may follow a leading zero. -/
def readLiteral (cs : List Char) : Option (Literal × List Char) :=
  let (negative, cs) :=
    match cs with
    | '-' :: r => (true, r)
    | r => (false, r)
  let whole := cs.takeWhile isDigit
  if whole.isEmpty || (whole.head? == some '0' && 1 < whole.length) then none
  else do
    let (fraction, cs) ← readFraction (cs.dropWhile isDigit)
    let (exponent, signed, cs) ← readExponent cs
    return (⟨negative, whole, fraction, exponent, fraction.isEmpty && !signed⟩, cs)

/--
The number of a literal: an integer if it is written as one and has 64 bits, else a float. There
is none beyond the finite floats. Negative zero is a float.
-/
def Literal.number? (l : Literal) : Option Number :=
  let n := digitsValue l.whole
  if l.isInteger && !l.negative && n < Word.limit 64 then some (.int n)
  else if l.isInteger && l.negative && 0 < n && n ≤ Word.limit 63 then some (.int (-(n : Int)))
  else
    let (significand, used) := pushDigits 0 l.whole
    let (significand, usedAfter) := pushDigits significand l.fraction
    let exponent := l.exponent + (l.whole.length - used : Nat) - (usedAfter : Nat)
    (Binary64.scale significand exponent).map fun units => .float ⟨l.negative, units⟩

/-- Reads a number. -/
def readNumber (cs : List Char) : Option (Number × List Char) := do
  let (literal, rest) ← readLiteral cs
  return (← literal.number?, rest)

/-- What is kept of a value. -/
inductive Shape
  /-- Everything. -/
  | any
  /-- Nothing. -/
  | skipped
  /-- The fields with these names; in an array, the items in their order. -/
  | record (fields : List (String × Shape))

namespace Shape

/-- Whether anything is kept. -/
def keeps : Shape → Bool
  | skipped => false
  | _ => true

/-- What is kept of the field with the given name. -/
def field (key : String) : Shape → Shape
  | any => any
  | skipped => skipped
  | record fields =>
      match fields.find? (·.1 == key) with
      | some (_, shape) => shape
      | none => skipped

/-- What is kept of the first item, and of the items after it as an array of their own. -/
def items : Shape → Shape × Shape
  | any => (any, any)
  | skipped => (skipped, skipped)
  | record [] => (any, record [])
  | record ((_, shape) :: more) => (shape, record more)

end Shape

/-- Passes over a string up to its closing quote: its escapes may stand for anything. -/
def skipChars : List Char → Option (List Char)
  | [] => none
  | '"' :: rest => some rest
  | '\\' :: 'u' :: a :: b :: c :: d :: rest =>
      if (hexQuad? a b c d).isSome then skipChars rest else none
  | '\\' :: c :: rest => if (escaped? c).isSome then skipChars rest else none
  | c :: rest => if c.toNat < 0x20 then none else skipChars rest

/-- Reads the characters of a string, or passes over them. -/
def readText (shape : Shape) (cs : List Char) : Option (String × List Char) :=
  if shape.keeps then (readChars cs).map fun r => (String.ofList r.1, r.2)
  else (skipChars cs).map fun rest => ("", rest)

/-- Reads a number, or passes over one of any size. -/
def readFigure (shape : Shape) (cs : List Char) : Option (Json × List Char) :=
  if shape.keeps then (readNumber cs).map fun r => (number r.1, r.2)
  else (readLiteral cs).map fun r => (null, r.2)

/-- The field before others, if it is kept. -/
def consKept (shape : Shape) (key : String) (v : Json) (fields : List (String × Json)) :
    List (String × Json) :=
  if shape.keeps then (key, v) :: fields else fields

mutual

/-- Reads a value of a shape; `fuel` bounds the tokens of it. -/
def readValue : Nat → Shape → List Char → Option (Json × List Char)
  | 0, _, _ => none
  | fuel + 1, shape, cs =>
      match skipSpaces cs with
      | [] => none
      | 'n' :: 'u' :: 'l' :: 'l' :: rest => some (null, rest)
      | 't' :: 'r' :: 'u' :: 'e' :: rest => some (bool true, rest)
      | 'f' :: 'a' :: 'l' :: 's' :: 'e' :: rest => some (bool false, rest)
      | '"' :: rest => (readText shape rest).map fun r => (string r.1, r.2)
      | '[' :: rest =>
          match skipSpaces rest with
          | ']' :: rest => some (array [], rest)
          | rest => (readItems fuel shape rest).map fun r => (array r.1, r.2)
      | '\x7b' :: rest =>
          match skipSpaces rest with
          | '\x7d' :: rest => some (object [], rest)
          | rest => (readFields fuel shape rest).map fun r => (object r.1, r.2)
      | rest => readFigure shape rest

/-- Reads the items of an array up to the closing bracket. -/
def readItems : Nat → Shape → List Char → Option (List Json × List Char)
  | 0, _, _ => none
  | fuel + 1, shape, cs =>
      match readValue fuel shape.items.1 cs with
      | none => none
      | some (v, rest) =>
          match skipSpaces rest with
          | ',' :: rest => (readItems fuel shape.items.2 rest).map fun r => (v :: r.1, r.2)
          | ']' :: rest => some ([v], rest)
          | _ => none

/-- Reads the fields of an object up to the closing brace. -/
def readFields : Nat → Shape → List Char → Option (List (String × Json) × List Char)
  | 0, _, _ => none
  | fuel + 1, shape, cs =>
      match skipSpaces cs with
      | '"' :: rest =>
          match readText shape rest with
          | none => none
          | some (key, rest) =>
              match skipSpaces rest with
              | ':' :: rest =>
                  match readValue fuel (shape.field key) rest with
                  | none => none
                  | some (v, rest) =>
                      match skipSpaces rest with
                      | ',' :: rest =>
                          (readFields fuel shape rest).map fun r =>
                            (consKept (shape.field key) key v r.1, r.2)
                      | '\x7d' :: rest => some (consKept (shape.field key) key v [], rest)
                      | _ => none
              | _ => none
      | _ => none

end

/-- The part of a whole text's value that has a shape, with repeated keys kept. -/
def readAs? (shape : Shape) (cs : List Char) : Option Json :=
  match readValue (cs.length + 1) shape cs with
  | some (v, rest) => if (skipSpaces rest).isEmpty then some v else none
  | none => none

/-- The value of a whole text, with repeated keys kept. -/
def read? (cs : List Char) : Option Json := readAs? .any cs

end Chronicle.Json
