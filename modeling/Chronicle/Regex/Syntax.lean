import Chronicle.Text.Blank
import Chronicle.Text.WordChar
import Chronicle.Text.CaseFold

set_option autoImplicit false

/-!
# Regular expressions

Sets of characters, conditions on a place between two characters, and the expressions built from
them. Greedy and lazy repetition are one, since only whether a text matches is asked.
-/

namespace Chronicle

/-- A set of characters. -/
inductive CharSet
  | empty
  | range (first last : Char)
  | decimal
  | blank
  | word
  | complement (set : CharSet)
  | union (left right : CharSet)
  | intersection (left right : CharSet)
  | difference (left right : CharSet)
  | symmetricDifference (left right : CharSet)
  | anyCase (set : CharSet)

/-- Whether a character is in the set. -/
def CharSet.contains : CharSet → Char → Bool
  | empty, _ => false
  | range first last, c => first ≤ c && c ≤ last
  | decimal, c => Text.isDecimal c
  | blank, c => Text.isBlank c
  | word, c => Text.isWord c
  | complement set, c => !set.contains c
  | union left right, c => left.contains c || right.contains c
  | intersection left right, c => left.contains c && right.contains c
  | difference left right, c => left.contains c && !right.contains c
  | symmetricDifference left right, c => left.contains c != right.contains c
  | anyCase set, c => (Text.caseVariants c).any set.contains

/-- The code points of the set; surrogates may be among them. -/
def CharSet.ranges : CharSet → Text.CodeRanges
  | empty => []
  | range first last => [(first.toNat, last.toNat)]
  | decimal => Text.digitRanges
  | blank => Text.blankRanges
  | word => Text.wordRanges
  | complement set => set.ranges.complement
  | union left right => left.ranges.union right.ranges
  | intersection left right => left.ranges.intersection right.ranges
  | difference left right => left.ranges.difference right.ranges
  | symmetricDifference left right => left.ranges.symmetricDifference right.ranges
  | anyCase set => Text.caseClosure set.ranges

/-- The set of one character. -/
def CharSet.only (c : Char) : CharSet := .range c c

/-- The set of several characters. -/
def CharSet.ofChars (chars : List Char) : CharSet :=
  chars.foldr (fun c set => .union (.only c) set) .empty

/-- A condition on a place of a text, which consumes nothing. -/
inductive Anchor
  | textStart
  | textEnd
  | lineStart
  | lineEnd
  | wordBoundary
  | noWordBoundary
  | wordStart
  | wordEnd
  | wordStartHalf
  | wordEndHalf
deriving DecidableEq

/-- Whether the condition holds between two characters, which are missing at the text's ends. -/
def Anchor.holds : Anchor → Option Char → Option Char → Bool
  | textStart, before, _ => before.isNone
  | textEnd, _, after => after.isNone
  | lineStart, before, _ => before.isNone || before == some '\n'
  | lineEnd, _, after => after.isNone || after == some '\n'
  | wordBoundary, before, after => before.any Text.isWord != after.any Text.isWord
  | noWordBoundary, before, after => before.any Text.isWord == after.any Text.isWord
  | wordStart, before, after => !before.any Text.isWord && after.any Text.isWord
  | wordEnd, before, after => before.any Text.isWord && !after.any Text.isWord
  | wordStartHalf, before, _ => !before.any Text.isWord
  | wordEndHalf, _, after => !after.any Text.isWord

/-- A regular expression; a captured group is one whose part of a match can be told. -/
inductive Regex
  | empty
  | char (set : CharSet)
  | anchor (condition : Anchor)
  | append (first second : Regex)
  | either (left right : Regex)
  | loop (body : Regex) (least : Nat) (most : Option Nat)
  | group (captured : Bool) (body : Regex)

namespace Regex

/-- The expressions one after the other. -/
def concat : List Regex → Regex
  | [] => empty
  | [r] => r
  | r :: rest => append r (concat rest)

/-- One of the expressions. -/
def oneOf : List Regex → Regex
  | [] => empty
  | [r] => r
  | r :: rest => either r (oneOf rest)

end Regex

end Chronicle
