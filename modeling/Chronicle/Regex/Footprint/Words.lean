import Chronicle.Regex.Footprint.States

set_option autoImplicit false

/-!
# The room that words take

What literals take as alternatives: they are laid out as a tree by their first bytes. An earlier
literal is preferred to a later one, so that one that ends at a node of the tree parts those that
go on before it from those that go on after it.
-/

namespace Chronicle.Regex.Footprint

/-- The number of bytes in a literal. -/
def bytes (chars : List Char) : Nat := chars.foldl (fun n c => n + c.utf8Size) 0

/-- The bytes of a word, in the order in which an automaton reads them. -/
abbrev Spelling := List UInt8

/-- The word of a literal. -/
def spelled (direction : Direction) (chars : List Char) : Spelling :=
  let word := chars.flatMap String.utf8EncodeChar
  match direction with
  | .forward => word
  | .backward => word.reverse

/-- The words between those that are empty. -/
def segments : List Spelling → List (List Spelling)
  | [] => [[]]
  | word :: rest =>
      match segments rest with
      | first :: more => if word.isEmpty then [] :: first :: more else (word :: first) :: more
      | [] => []

/-- The words with no more than one empty word at the beginning. -/
def withoutRepeatedEnd (words : List Spelling) : List Spelling :=
  let rest := words.dropWhile List.isEmpty
  if rest.length < words.length then [] :: rest else rest

/-- What follows the given first byte in the words that have it. -/
def tailsAfter (byte : UInt8) (words : List Spelling) : List Spelling :=
  words.filterMap fun word =>
    match word with
    | b :: tail => if b = byte then some tail else none
    | [] => none

/--
The tree of words that are shorter than `length`, by their first bytes. An earlier word is
preferred to a later one, so a word that ends parts those before it from those after it.
-/
def tree : Nat → List Spelling → Nat
  | 0, _ => 0
  | length + 1, words =>
      let all := segments (withoutRepeatedEnd words)
      let used := all.filter (!·.isEmpty)
      let choices := all.length - 1 + used.length
      let below := used.map fun segment =>
        let heads := (segment.filterMap List.head?).eraseDups
        let trees := heads.map fun byte =>
          let tails := tailsAfter byte segment
          if tails.all List.isEmpty then 0 else tree length tails
        trees.foldl (· + ·) (if heads.length = 1 then state else branching heads.length)
      below.foldl (· + ·) (if choices = 1 then 0 else state + choices * alternative)

/-- Literals as alternatives. -/
def ofLiterals (direction : Direction) (literals : List (List Char)) : Nat :=
  let words := literals.map (spelled direction)
  state + tree ((words.map List.length).foldl max 0 + 1) words

end Chronicle.Regex.Footprint
