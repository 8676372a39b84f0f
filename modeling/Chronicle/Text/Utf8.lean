import Chronicle.Text.CodeRanges

set_option autoImplicit false

/-!
# UTF-8 in ranges of bytes

The UTF-8 forms of a range of code points, as sequences of byte ranges: the code points of a
sequence have forms of one length, and each of its bytes runs through its range independently of
the others. Surrogates have no form.
-/

namespace Chronicle.Text

/-- A sequence of byte ranges: the forms that have one byte in each. -/
abbrev ByteRanges := List (Nat × Nat)

namespace Utf8

/-- The number of code points that share all but the last `tail` bytes of their forms. -/
def blockSize (tail : Nat) : Nat := Nat.pow 64 tail

/-- Any bytes that follow a first byte. -/
def anyTail (tail : Nat) : ByteRanges := List.replicate tail (0x80, 0xBF)

/--
The forms of `first` to `last`, which have `tail` bytes after one that is `lead` or more: first
the rest of a block begun, then whole blocks, then the part of a block.
-/
def spans : Nat → Nat → Nat → Nat → List ByteRanges
  | 0, lead, first, last => [[(lead + first, lead + last)]]
  | tail + 1, lead, first, last =>
      let size := blockSize (tail + 1)
      let (a, b) := (first / size, last / size)
      let inBlock (block least greatest : Nat) : List ByteRanges :=
        (spans tail 0x80 least greatest).map ((lead + block, lead + block) :: ·)
      if a = b then inBlock a (first % size) (last % size)
      else
        let (head, a) :=
          if first % size = 0 then ([], a) else (inBlock a (first % size) (size - 1), a + 1)
        let (whole, rest) :=
          if last % size = size - 1 then (b + 1, []) else (b, inBlock b 0 (last % size))
        let blocks :=
          if a < whole then [(lead + a, lead + (whole - 1)) :: anyTail (tail + 1)] else []
        head ++ blocks ++ rest

/-- The code points whose forms have the same length: the first and the last of them, the bytes
after the first one, and the least first byte. -/
def lengths : List (Nat × Nat × Nat × Nat) :=
  [(0, 0x7F, 0, 0), (0x80, 0x7FF, 1, 0xC0), (0x800, 0xD7FF, 2, 0xE0), (0xE000, 0xFFFF, 2, 0xE0),
    (0x10000, lastCodePoint, 3, 0xF0)]

/-- The forms of the code points of a range, in ascending order. -/
def formsOf (first last : Nat) : List ByteRanges :=
  lengths.flatMap fun (least, greatest, tail, lead) =>
    let a := max first least
    let b := min last greatest
    if a ≤ b then spans tail lead a b else []

/-- The forms of the code points of several ranges. -/
def forms (ranges : CodeRanges) : List ByteRanges := ranges.flatMap fun r => formsOf r.1 r.2

end Utf8

end Chronicle.Text
