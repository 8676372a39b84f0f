import Chronicle.Regex.Syntax
import Chronicle.Text.Digits

set_option autoImplicit false

/-!
# Escapes

What a backslash and the characters after it stand for in patterns: a character, a set of
characters or a condition on a place. Also how a text is written as a pattern for itself.
-/

namespace Chronicle.Regex

open Text (isDigit hexNumber?)

/-- The characters that have a meaning of their own in patterns. -/
def isMeta (c : Char) : Bool := "\\.+*?()|[]\x7b\x7d^$#&-~".toList.contains c

/-- An ASCII character that may be escaped: neither letter nor digit nor angle bracket. -/
def isEscapable (c : Char) : Bool :=
  c.toNat < 128 && !isDigit c && !('A' ≤ c && c ≤ 'Z') && !('a' ≤ c && c ≤ 'z') &&
    c != '<' && c != '>'

/-- What an escape stands for. -/
inductive Escape
  | literal (c : Char)
  | set (s : CharSet)
  | anchor (a : Anchor)

/-- The character of a code point that is one. -/
def scalar? (n : Nat) : Option Char :=
  if n < 0xD800 ∨ (0xDFFF < n ∧ n < 0x110000) then some (Char.ofNat n) else none

/-- Reads a character by its code: a fixed number of digits, or any number of them in braces. -/
def readHex (width : Nat) : List Char → Option (Char × List Char)
  | '\x7b' :: rest => do
      let ds := rest.takeWhile (· != '\x7d')
      if ds.isEmpty then none
      let c ← scalar? (← hexNumber? ds)
      match rest.dropWhile (· != '\x7d') with
      | _ :: rest => some (c, rest)
      | [] => none
  | cs => do
      if cs.length < width then none
      let c ← scalar? (← hexNumber? (cs.take width))
      return (c, cs.drop width)

/-- Whether the character may occur in the name of a kind of word boundary. -/
def isBoundaryChar (c : Char) : Bool :=
  ('A' ≤ c && c ≤ 'Z') || ('a' ≤ c && c ≤ 'z') || c == '-'

/-- The word boundary of a name. -/
def namedBoundary? (name : String) : Option Anchor :=
  match name with
  | "start" => some .wordStart
  | "end" => some .wordEnd
  | "start-half" => some .wordStartHalf
  | "end-half" => some .wordEndHalf
  | _ => none

/-- Reads what follows `\b`: a kind of boundary in braces, or nothing that belongs to it. -/
def readBoundary : List Char → Option (Anchor × List Char)
  | '\x7b' :: rest =>
      match rest with
      | [] => none
      | c :: _ =>
          if isBoundaryChar c then
            match rest.dropWhile isBoundaryChar with
            | '\x7d' :: after =>
                (namedBoundary? (String.ofList (rest.takeWhile isBoundaryChar))).map (·, after)
            | _ => none
          else some (.wordBoundary, '\x7b' :: rest)
  | cs => some (.wordBoundary, cs)

/-- Reads the part of an escape after the backslash. -/
def readEscape : List Char → Option (Escape × List Char)
  | [] => none
  | c :: rest =>
      match c with
      | 'x' => (readHex 2 rest).map fun r => (.literal r.1, r.2)
      | 'u' => (readHex 4 rest).map fun r => (.literal r.1, r.2)
      | 'U' => (readHex 8 rest).map fun r => (.literal r.1, r.2)
      | 'd' => some (.set .decimal, rest)
      | 'D' => some (.set (.complement .decimal), rest)
      | 's' => some (.set .blank, rest)
      | 'S' => some (.set (.complement .blank), rest)
      | 'w' => some (.set .word, rest)
      | 'W' => some (.set (.complement .word), rest)
      | 'a' => some (.literal '\x07', rest)
      | 'f' => some (.literal '\x0c', rest)
      | 't' => some (.literal '\t', rest)
      | 'n' => some (.literal '\n', rest)
      | 'r' => some (.literal '\r', rest)
      | 'v' => some (.literal '\x0b', rest)
      | 'A' => some (.anchor .textStart, rest)
      | 'z' => some (.anchor .textEnd, rest)
      | 'b' => (readBoundary rest).map fun r => (.anchor r.1, r.2)
      | 'B' => some (.anchor .noWordBoundary, rest)
      | '<' => some (.anchor .wordStart, rest)
      | '>' => some (.anchor .wordEnd, rest)
      | c => if isEscapable c then some (.literal c, rest) else none

/-- Writes a text as a pattern for itself: a backslash stands before each meta character. -/
def escape (text : List Char) : List Char :=
  text.flatMap fun c => if isMeta c then ['\\', c] else [c]

end Chronicle.Regex
