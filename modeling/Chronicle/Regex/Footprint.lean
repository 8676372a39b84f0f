import Chronicle.Regex.Footprint.Words
import Chronicle.Regex.Plan

set_option autoImplicit false

/-!
# Footprints

How many bytes the automata of an expression take. One automaton reads a text from its beginning,
another from its end, and an expression is small enough if neither takes more than ten mebibytes.
Counted repetitions are laid out once for each round, so that a short pattern can take a great
deal of room. Main definition: `Regex.isSmall`.
-/

namespace Chronicle.Regex

namespace Footprint

/-- A repeated plan with the given footprint, which can be empty or not. -/
def ofLoop (body : Nat) (canBeEmpty : Bool) (least : Nat) : Option Nat → Nat
  | none =>
      if least = 0 then body + fork + (if canBeEmpty then fork + state else 0)
      else least * body + fork
  | some most =>
      if least = most then least * body
      else
        let rounds := (most - least) * (body + fork) + state
        if least = 0 then rounds + (if most = 1 then 0 else state) else least * body + rounds

end Footprint

namespace Plan

mutual

/-- The length in bytes of the shortest match, if the plan is known to have one. -/
def shortest : Plan → Option Nat
  | empty => some 0
  | literal chars => some (Footprint.bytes chars)
  | set [] => none
  | set _ => some 1
  | anchor _ => some 0
  | loop body least _ => body.shortest.map (least * ·)
  | group body => body.shortest
  | sequence parts => shortestOfAll parts
  | choice branches => shortestOfAny branches

/-- The length of the shortest match of plans one after the other. -/
def shortestOfAll : List Plan → Option Nat
  | [] => some 0
  | p :: rest =>
      match p.shortest, shortestOfAll rest with
      | some m, some n => some (m + n)
      | _, _ => none

/-- The length of the shortest match of one of several plans, each of which is known to have one. -/
def shortestOfAny : List Plan → Option Nat
  | [] => none
  | [p] => p.shortest
  | p :: rest =>
      match p.shortest, shortestOfAny rest with
      | some m, some n => some (min m n)
      | _, _ => none

end

mutual

/-- Whether every match begins at the beginning of the text. -/
def isAtStart : Plan → Bool
  | anchor .textStart => true
  | loop body least _ => least != 0 && body.isAtStart
  | group body => body.isAtStart
  | sequence parts => beginAtStart parts
  | choice branches => areAtStart branches
  | _ => false

/-- Whether every match of plans one after the other begins at the beginning of the text. -/
def beginAtStart : List Plan → Bool
  | [] => false
  | p :: rest => p.isAtStart || (p.isWidthless && beginAtStart rest)

/-- Whether every match of each of the plans begins at the beginning of the text. -/
def areAtStart : List Plan → Bool
  | [] => true
  | p :: rest => p.isAtStart && areAtStart rest

end

mutual

/-- Whether every match ends at the end of the text. -/
def isAtEnd : Plan → Bool
  | anchor .textEnd => true
  | loop body least _ => least != 0 && body.isAtEnd
  | group body => body.isAtEnd
  | sequence parts => endAtEnd parts
  | choice branches => areAtEnd branches
  | _ => false

/-- Whether every match of plans one after the other ends at the end of the text. -/
def endAtEnd : List Plan → Bool
  | [] => false
  | p :: rest => endAtEnd rest || (areWidthless rest && p.isAtEnd)

/-- Whether every match of each of the plans ends at the end of the text. -/
def areAtEnd : List Plan → Bool
  | [] => true
  | p :: rest => p.isAtEnd && areAtEnd rest

end

open Footprint (state alternative)

mutual

/-- The bytes of the states that a plan is laid out as. -/
def footprint (direction : Direction) : Plan → Nat
  | empty => state
  | literal chars => state * Footprint.bytes chars
  | set ranges => Footprint.ofSet direction ranges
  | anchor _ => state
  | loop body least most =>
      Footprint.ofLoop (body.footprint direction) (body.shortest.getD 0 == 0) least most
  | group body =>
      body.footprint direction + (match direction with | .forward => 2 * state | .backward => 0)
  | sequence parts => footprintOfAll direction 0 parts
  | choice branches =>
      match branches.mapM word? with
      | some literals => Footprint.ofLiterals direction literals
      | none => 2 * state + footprintOfAll direction alternative branches

/-- The bytes of several plans, each of which takes some more on its own. -/
def footprintOfAll (direction : Direction) (more : Nat) : List Plan → Nat
  | [] => 0
  | p :: rest => more + p.footprint direction + footprintOfAll direction more rest

end

/-- The bytes of the states before a plan: a match may begin anywhere unless it is bound. -/
def lead (bound : Bool) : Nat :=
  if bound then state else Footprint.fork + state + Footprint.branching 1

/-- The bytes of the automaton of a plan; the forward one notes where a match begins and ends. -/
def automaton (direction : Direction) (p : Plan) : Nat :=
  match direction with
  | .forward => lead p.isAtStart + 2 * state + p.footprint direction + state
  | .backward => lead p.isAtEnd + p.footprint direction + state

end Plan

/-- Whether neither automaton of the expression exceeds the limit. -/
def isSmall (r : Regex) : Bool :=
  let p := r.plan
  p.automaton .forward ≤ Footprint.limit && p.automaton .backward ≤ Footprint.limit

end Chronicle.Regex
