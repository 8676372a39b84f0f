set_option autoImplicit false

/-!
# Texts within texts

Whether a text starts with another one, or contains it.
-/

namespace Chronicle.Text

/-- Whether `cs` starts with `part`. -/
def startsWith (part cs : List Char) : Bool := part.isPrefixOf cs

/-- Whether `part` stands somewhere in `cs`. -/
def contains (part : List Char) : List Char → Bool
  | [] => part.isEmpty
  | c :: cs => startsWith part (c :: cs) || contains part cs

end Chronicle.Text
