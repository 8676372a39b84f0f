import Chronicle.Timestamp.Basic
import Chronicle.Timestamp.Calendar
import Chronicle.Text.Digits

set_option autoImplicit false

/-!
# The text of timestamps

RFC 3339 texts: any offset and any number of decimals are read, the instant is cut to the
microsecond, and it is written in UTC with exactly six decimals.
-/

namespace Chronicle.Timestamp

open Text (isDigit digitValue digitsValue paddedDigits)

/-- Why a text is no timestamp. -/
inductive ParseError
  | tooShort
  | invalid
  | outOfRange
  | trailing
deriving DecidableEq

/-- The error in words. -/
def ParseError.message : ParseError → String
  | tooShort => "premature end of input"
  | invalid => "input contains invalid characters"
  | outOfRange => "input is out of range"
  | trailing => "trailing input"

/-- The number of bytes of a text. -/
def byteCount (cs : List Char) : Nat := cs.foldr (fun c n => c.utf8Size + n) 0

/-- The number of two digits. -/
def twoDigits? (a b : Char) : Option Nat :=
  if isDigit a && isDigit b then some (digitValue a * 10 + digitValue b) else none

/-- The day that starts the text, and what follows it. -/
def readDate : List Char → Except ParseError (Int × List Char)
  | a :: b :: c :: d :: '-' :: e :: f :: '-' :: g :: h :: rest =>
      match twoDigits? a b, twoDigits? c d, twoDigits? e f, twoDigits? g h with
      | some century, some year, some month, some day =>
          match Calendar.dayOf? (century * 100 + year : Nat) month day with
          | some day => .ok (day, rest)
          | none => .error .outOfRange
      | _, _, _, _ => .error .invalid
  | _ => .error .invalid

/-- Hour, minute and second after the separator, and what follows them. -/
def readClock : List Char → Except ParseError ((Nat × Nat × Nat) × List Char)
  | sep :: a :: b :: ':' :: c :: d :: ':' :: e :: f :: rest =>
      if sep = 'T' ∨ sep = 't' ∨ sep = ' ' then
        match twoDigits? a b, twoDigits? c d, twoDigits? e f with
        | some hour, some minute, some second => .ok ((hour, minute, second), rest)
        | _, _, _ => .error .invalid
      else .error .invalid
  | _ => .error .invalid

/-- The decimals of the second as microseconds; digits after the sixth are cut. -/
def readFraction : List Char → Except ParseError (Nat × List Char)
  | '.' :: rest =>
      let ds := rest.takeWhile isDigit
      if ds.isEmpty then .error (if rest.isEmpty then .tooShort else .invalid)
      else .ok (digitsValue ((ds ++ List.replicate 6 '0').take 6), rest.dropWhile isDigit)
  | rest => .ok (0, rest)

/-- Two digits of an offset, and what follows them. -/
def readPair : List Char → Except ParseError (Nat × Nat × List Char)
  | a :: b :: rest =>
      if isDigit a && isDigit b then .ok (digitValue a, digitValue b, rest) else .error .invalid
  | cs => if byteCount cs < 2 then .error .tooShort else .error .invalid

/-- An offset in minutes, and what follows it. -/
def readOffset : List Char → Except ParseError (Int × List Char)
  | [] => .error .tooShort
  | sign :: rest =>
      if sign = 'Z' ∨ sign = 'z' then .ok (0, rest)
      else if sign = '+' ∨ sign = '-' ∨ sign = '\u2212' then do
        let (h₁, h₂, rest) ← readPair rest
        match rest with
        | [] => .error .tooShort
        | ':' :: rest =>
            let (m₁, m₂, rest) ← readPair rest
            if 6 ≤ m₁ then .error .outOfRange
            else
              let minutes : Int := ((h₁ * 10 + h₂) * 60 + (m₁ * 10 + m₂) : Nat)
              .ok (if sign = '+' then minutes else -minutes, rest)
        | _ => .error .invalid
      else .error .invalid

/-- The seconds of a day. -/
def secondsPerDay : Int := 86400

/--
The instant of a local date, clock time and offset in minutes. Second 60 is the leap second that
follows second 59.
-/
def ofLocal (day : Int) (hour minute second micro : Nat) (offset : Int) : Timestamp :=
  let start := day * secondsPerDay + ((hour * 60 + minute) * 60 : Nat) - offset * 60
  if second = 60 then ofSecond (start + 59) (micro + 1000000)
  else ofSecond (start + second) micro

/-- Reads a timestamp; of several faults the leftmost is reported. -/
def parse (text : String) : Except ParseError Timestamp := do
  let cs := text.toList
  if byteCount cs < 19 then .error .tooShort
  let (day, cs) ← readDate cs
  let ((hour, minute, second), cs) ← readClock cs
  let (micro, cs) ← readFraction cs
  if 24 ≤ hour ∨ 60 ≤ minute ∨ 60 < second then .error .outOfRange
  let (offset, cs) ← readOffset cs
  if !cs.isEmpty then .error .trailing
  if 24 * 60 ≤ offset.natAbs then .error .outOfRange
  return ofLocal day hour minute second micro offset

/-- The digits of a year: four, and with a sign if the year needs more or is before zero. -/
def spellYear (year : Int) : List Char :=
  if 0 ≤ year ∧ year ≤ 9999 then paddedDigits 4 year.toNat
  else
    let ds := Nat.toDigits 10 year.natAbs
    (if year < 0 then '-' else '+') :: (List.replicate (4 - ds.length) '0' ++ ds)

/-- The date and the clock time to the second, without an offset. -/
def spellSeconds (t : Timestamp) : List Char :=
  let (year, month, day) := Calendar.dateOf (t.second / secondsPerDay)
  let clock := (t.second % secondsPerDay).toNat
  let second := if 1000000 ≤ t.micro then clock % 60 + 1 else clock % 60
  spellYear year ++ '-' :: paddedDigits 2 month ++ '-' :: paddedDigits 2 day ++
    'T' :: paddedDigits 2 (clock / 3600) ++ ':' :: paddedDigits 2 (clock / 60 % 60) ++
    ':' :: paddedDigits 2 second

/-- The text in UTC with six decimals. -/
def spell (t : Timestamp) : List Char :=
  t.spellSeconds ++ '.' :: paddedDigits 6 (t.micro % 1000000) ++ ['Z']

/-- The text in UTC with six decimals. -/
def text (t : Timestamp) : String := String.ofList t.spell

end Chronicle.Timestamp
