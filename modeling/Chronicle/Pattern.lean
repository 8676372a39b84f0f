import Chronicle.Regex.Footprint
import Chronicle.Regex.Match
import Chronicle.Regex.Reader

set_option autoImplicit false

/-!
# Patterns

A regular expression by its source. A source that is malformed, nested too deeply or too large is
a pattern that matches nothing, so a bad pattern leaves every document out instead of failing a
query. Patterns are equal if their sources and case flags are.
-/

namespace Chronicle

/-- The source of a regular expression and whether it ignores case. -/
structure Pattern where
  source : String
  ignoreCase : Bool
deriving DecidableEq

namespace Pattern

/-- The pattern of all texts that contain `text`. -/
def substring (text : String) : Pattern := ⟨String.ofList (Regex.escape text.toList), false⟩

/-- The pattern of all texts that start with `text`. -/
def startsWith (text : String) : Pattern :=
  ⟨String.ofList ('^' :: Regex.escape text.toList), false⟩

/-- The expression of the source, if it is well-formed and not too large. -/
def regex? (p : Pattern) : Option Regex :=
  (Regex.parse? p.ignoreCase p.source.toList).filter Regex.isSmall

/-- Whether the source is well-formed and not too large. -/
def isValid (p : Pattern) : Bool := p.regex?.isSome

/-- Whether the pattern matches a part of the text. -/
def isMatch (p : Pattern) (text : String) : Bool :=
  match p.regex? with
  | some r => r.isMatch text.toList
  | none => false

end Pattern

end Chronicle
