import Chronicle.Regex.Syntax

set_option autoImplicit false

/-!
# Matching

Whether an expression matches somewhere in a text. The text is read once. What is kept meanwhile
is the expression with marks: a character is marked where a match has just consumed it. At a
place between two characters the marks tell which parts a match ends in; one more character moves
the marks on. A repeated part is kept once for each round that has begun.
-/

namespace Chronicle.Regex

/-- A place of a text: the characters before and after it, missing at the text's ends. -/
structure Place where
  before : Option Char
  after : Option Char

/-- An expression with the matches of it that are under way. -/
inductive Progress
  | empty
  /-- A character, and whether a match has just consumed it. -/
  | char (set : CharSet) (consumed : Bool)
  | anchor (condition : Anchor)
  | append (first second : Progress)
  | either (left right : Progress)
  /--
  The rounds that have begun, a round that has not, and how many rounds are run at least and at
  most; if `again` is set, the last of them is run any number of times.
  -/
  | loop (rounds : List Progress) (fresh : Progress) (least most : Nat) (again : Bool)

/-- Whether every match of the expression is empty. -/
def isWidthless : Regex → Bool
  | empty => true
  | char _ => false
  | anchor _ => true
  | append first second => first.isWidthless && second.isWidthless
  | either left right => left.isWidthless && right.isWidthless
  | loop body _ most => body.isWidthless || most == some 0
  | group _ body => body.isWidthless

/-- The expression before anything is matched; of empty rounds one is as good as many. -/
def start : Regex → Progress
  | empty => .empty
  | char set => .char set false
  | anchor condition => .anchor condition
  | append first second => .append first.start second.start
  | either left right => .either left.start right.start
  | loop body least most =>
      if body.isWidthless then .loop [] body.start (min least 1) (min (most.getD 1) 1) false
      else .loop [] body.start least (most.getD (max least 1)) most.isNone
  | group _ body => body.start

/-- What holds of a part at a place: a match of it ends there; it matches the empty text there. -/
structure Status where
  ends : Bool
  skips : Bool

namespace Status

/-- Neither. -/
def none : Status := ⟨false, false⟩

/-- One part or another. -/
def or (s t : Status) : Status := ⟨s.ends || t.ends, s.skips || t.skips⟩

/-- One part and then another. -/
def andThen (s t : Status) : Status := ⟨t.ends || (s.ends && t.skips), s.skips && t.skips⟩

/-- Whether a match leaves the part, given whether one arrives before it. -/
def leaves (s : Status) (arrives : Bool) : Bool := s.ends || (arrives && s.skips)

end Status

namespace Progress

mutual

/-- What holds of the expression at a place. -/
def status (place : Place) : Progress → Status
  | empty => ⟨false, true⟩
  | char _ consumed => ⟨consumed, false⟩
  | anchor condition => ⟨false, condition.holds place.before place.after⟩
  | append first second => (first.status place).andThen (second.status place)
  | either left right => (left.status place).or (right.status place)
  | loop rounds fresh least _ _ =>
      roundsStatus place (fresh.status place).skips .none least ⟨false, true⟩ rounds

/--
What holds of rounds at a place, where `least` more rounds have to be run before the loop may be
left, `left` tells how it may have been left, and `before` what holds of the rounds before.
-/
def roundsStatus (place : Place) (skips : Bool) (left : Status) (least : Nat) (before : Status) :
    List Progress → Status
  | [] => if least = 0 ∨ skips then left.or before else left
  | round :: rest =>
      roundsStatus place skips (if least = 0 then left.or before else left) (least - 1)
        (before.andThen (round.status place)) rest

end

mutual

/--
The expression after one more character, where `arrives` tells whether a match has come to the
beginning of the expression at the place before the character.
-/
def advance (place : Place) (c : Char) (arrives : Bool) : Progress → Progress
  | empty => .empty
  | char set _ => .char set (arrives && set.contains c)
  | anchor condition => .anchor condition
  | append first second =>
      .append (first.advance place c arrives)
        (second.advance place c ((first.status place).leaves arrives))
  | either left right => .either (left.advance place c arrives) (right.advance place c arrives)
  | loop rounds fresh least most again =>
      .loop
        (advanceRounds place c again (fresh.advance place c true) (fresh.status place).skips [] most
          arrives rounds)
        fresh least most again

/--
The rounds after one more character: `done` holds those before in reverse, `most` counts those
that may still be run, and `entered` is a round that is begun by the character.
-/
def advanceRounds (place : Place) (c : Char) (again : Bool) (entered : Progress) (skips : Bool)
    (done : List Progress) (most : Nat) (arrives : Bool) : List Progress → List Progress
  | [] =>
      if arrives then done.reverse ++ List.replicate (if skips then most else min most 1) entered
      else done.reverse
  | round :: rest =>
      let status := round.status place
      let enters := arrives || (again && most == 1 && status.ends)
      advanceRounds place c again entered skips (round.advance place c enters :: done) (most - 1)
        (status.leaves arrives) rest

end

/-- Whether a match that starts at any place ends in the text that is left. -/
def matchesIn (before : Option Char) (p : Progress) : List Char → Bool
  | [] => (p.status ⟨before, none⟩).leaves true
  | c :: rest =>
      let place : Place := ⟨before, some c⟩
      (p.status place).leaves true || matchesIn (some c) (p.advance place c true) rest

end Progress

/-- Whether the expression matches a part of the text. -/
def isMatch (r : Regex) (text : List Char) : Bool := r.start.matchesIn none text

end Chronicle.Regex
