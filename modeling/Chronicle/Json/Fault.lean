import Chronicle.Text.Digits

set_option autoImplicit false

/-!
# Faults of JSON texts

What a reader of JSON says about a text that it refuses: what is wrong, and the line and column of
it, both counted from 1. Line 0 stands for a fault without a place. A place is told at the end of
a fault's text and found there again.
-/

namespace Chronicle

/-- What is wrong with a JSON text, and where. -/
structure JsonFault where
  message : String
  line : Nat
  column : Nat

namespace JsonFault

/-- What stands before the number of the line. -/
def lineMark : List Char := " at line ".toList

/-- What stands before the number of the column. -/
def columnMark : List Char := " column ".toList

/-- A text without the digits at its end, and these digits. -/
def splitDigits (cs : List Char) : List Char × List Char :=
  let ds := (cs.reverse.takeWhile Text.isDigit).reverse
  (cs.take (cs.length - ds.length), ds)

/-- A text without the mark and the number of 64 bits at its end, and that number. -/
def splitMarked? (mark cs : List Char) : Option (List Char × Nat) := do
  let (cs, ds) := splitDigits cs
  let n ← Text.unsigned? 64 ds
  return (← mark.isSuffixOf? cs, n)

/-- The fault of a text: a place at the end is taken from it, if there is one. -/
def ofText (text : String) : JsonFault :=
  let parts := do
    let (cs, column) ← splitMarked? columnMark text.toList
    let (cs, line) ← splitMarked? lineMark cs
    return JsonFault.mk (String.ofList cs) line column
  parts.getD ⟨text, 0, 0⟩

/-- The fault in words. -/
def text (f : JsonFault) : String :=
  if f.line = 0 then f.message
  else
    f.message ++ String.ofList lineMark ++ Text.numeral f.line ++ String.ofList columnMark ++
      Text.numeral f.column

end JsonFault

end Chronicle
