import Chronicle.Text.CodeRanges

set_option autoImplicit false

/-!
# Blank characters, trimming and lines

The characters that count as blank, the text left when both ends are rid of them, and the lines
of a text. Main statement: trimming twice is trimming once.
-/

namespace Chronicle.Text

/-- The code points with the White_Space property of the Unicode standard. -/
def blankRanges : CodeRanges := [
  (0x9, 0xD), (0x20, 0x20), (0x85, 0x85), (0xA0, 0xA0), (0x1680, 0x1680), (0x2000, 0x200A),
  (0x2028, 0x2029), (0x202F, 0x202F), (0x205F, 0x205F), (0x3000, 0x3000)]

/-- A blank character of any script. -/
def isBlank (c : Char) : Bool := inRanges blankRanges c.toNat

/-- The text without its leading blanks. -/
def trimLeft (cs : List Char) : List Char := cs.dropWhile isBlank

/-- The text without the blanks at both ends. -/
def trim (cs : List Char) : List Char := (trimLeft (trimLeft cs).reverse).reverse

/-- A text of blanks only, the empty text included. -/
def isBlankText (cs : List Char) : Bool := cs.all isBlank

/--
The lines of a text: each ends at a line feed, which takes a carriage return before it along;
what follows the last line feed is a line unless it is empty.
-/
def lines : List Char → List (List Char)
  | [] => []
  | '\n' :: rest => [] :: lines rest
  | '\r' :: '\n' :: rest => [] :: lines rest
  | c :: rest =>
      match lines rest with
      | [] => [[c]]
      | line :: more => (c :: line) :: more

/-- Leading blanks are gone after one pass. -/
theorem trimLeft_trimLeft (cs : List Char) : trimLeft (trimLeft cs) = trimLeft cs := by
  induction cs with
  | nil => rfl
  | cons c cs ih =>
      cases hc : isBlank c with
      | true => simpa [trimLeft, hc] using ih
      | false => simp [trimLeft, hc]

/-- A character that is not blank keeps its place at the end. -/
theorem trimLeft_concat {c : Char} (hc : isBlank c = false) (cs : List Char) :
    trimLeft (cs ++ [c]) = trimLeft cs ++ [c] := by
  induction cs with
  | nil => simp [trimLeft, hc]
  | cons d cs ih =>
      cases hd : isBlank d with
      | true => simpa [trimLeft, hd] using ih
      | false => simp [trimLeft, hd]

/-- What is left starts with no blank. -/
theorem isBlank_of_trimLeft_eq_cons {cs ds : List Char} {c : Char}
    (h : trimLeft cs = c :: ds) : isBlank c = false := by
  induction cs with
  | nil => simp [trimLeft] at h
  | cons d cs ih =>
      cases hd : isBlank d with
      | true => exact ih (by simpa [trimLeft, hd] using h)
      | false =>
          have hcd : d :: cs = c :: ds := by simpa [trimLeft, hd] using h
          have hdc : d = c := (List.cons.inj hcd).1
          exact hdc ▸ hd

/-- Trimming twice is trimming once. -/
theorem trim_trim (cs : List Char) : trim (trim cs) = trim cs := by
  cases h : trimLeft cs with
  | nil =>
      have ht : trim cs = [] := by simp only [trim, h]; rfl
      rw [ht]; rfl
  | cons c ds =>
      have hc := isBlank_of_trimLeft_eq_cons h
      have ht : trim cs = c :: (trimLeft ds.reverse).reverse := by
        simp [trim, h, trimLeft_concat hc]
      have hl : trimLeft (trim cs) = trim cs := by simp [ht, trimLeft, hc]
      have hr : trimLeft (trim cs).reverse = (trim cs).reverse := by
        simp [trim, trimLeft_trimLeft]
      calc trim (trim cs) = (trimLeft (trimLeft (trim cs)).reverse).reverse := rfl
        _ = trim cs := by rw [hl, hr, List.reverse_reverse]

end Chronicle.Text
