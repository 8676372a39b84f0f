import Chronicle.Text.Utf8

set_option autoImplicit false

/-!
# The room that states take

What the states of an automaton take that reads the bytes of UTF-8, and what a set of characters
takes as such states. Forward, two states are one if they read the same; backward, the forms of
characters share the states of what they have in common at their beginning.
-/

namespace Chronicle.Regex

open Text (CodeRanges ByteRanges)

/-- Which way an automaton reads. -/
inductive Direction
  | forward
  | backward
deriving DecidableEq

namespace Footprint

/-- The bytes of a state. -/
def state : Nat := 32

/-- The bytes of a choice by a range of bytes. -/
def transition : Nat := 8

/-- The bytes of a choice that consumes nothing. -/
def alternative : Nat := 4

/-- The most that an automaton may take. -/
def limit : Nat := 10 * 1024 * 1024

/-- A state with two choices that consume nothing. -/
def fork : Nat := state + 2 * alternative

/-- A state with choices by as many ranges of bytes. -/
def branching (ranges : Nat) : Nat := state + ranges * transition

/-- The forms by their first byte range, neighbours together. -/
def byHead : List ByteRanges → List ((Nat × Nat) × List ByteRanges)
  | [] => []
  | [] :: forms => byHead forms
  | (range :: tail) :: forms =>
      match byHead forms with
      | (next, tails) :: groups =>
          if range = next then (next, tail :: tails) :: groups
          else (range, [tail]) :: (next, tails) :: groups
      | [] => [(range, [tail])]

/-- The forms less their first byte range, a list for each such range; none after a last one. -/
def tails (forms : List ByteRanges) : List (List ByteRanges) :=
  ((byHead forms).map Prod.snd).filter (· != [[]])

/-- The forms that states read, from the given ones on, where forms have at most `length` bytes. -/
def statesFrom : Nat → List (List ByteRanges) → List (List ByteRanges)
  | 0, _ => []
  | length + 1, states => states ++ statesFrom length (states.flatMap tails).eraseDups

/-- The states for ascending forms; two that read the same forms are one. -/
def sharedStates (forms : List ByteRanges) : Nat :=
  (statesFrom 4 [forms]).eraseDups.foldl
    (fun n forms => n + branching (byHead forms).length) 0

/-- How many byte ranges two forms have in common at their beginning. -/
def commonBytes : ByteRanges → ByteRanges → Nat
  | r :: rs, s :: ss => if r = s then commonBytes rs ss + 1 else 0
  | _, _ => 0

/-- The byte ranges of ascending forms, less those that a form shares with the one before it. -/
def unsharedBytes (before : ByteRanges) : List ByteRanges → Nat
  | [] => 0
  | form :: forms => form.length - commonBytes before form + unsharedBytes form forms

/-- A set of characters: one state with its choices if all are ASCII. -/
def ofSet (direction : Direction) (ranges : CodeRanges) : Nat :=
  if ranges.all fun r => r.2 < 128 then state + branching ranges.length
  else
    let forms := Text.Utf8.forms ranges
    match direction with
    | .forward => state + sharedStates forms
    | .backward => 2 * state + alternative * forms.length + state * unsharedBytes [] forms

end Footprint

end Chronicle.Regex
