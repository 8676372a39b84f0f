import Chronicle.Regex.Syntax

set_option autoImplicit false

/-!
# Plans

What an automaton for an expression is laid out from: the expression without its needless parts.
Sequences and alternatives are flat, neighbouring characters are one literal, alternatives that
are single characters or sets are one set, and what alternatives have in common at their beginning
stands before them. Main definition: `Regex.plan`.
-/

namespace Chronicle.Regex

open Text (CodeRanges)

/-- An expression without needless parts. -/
inductive Plan
  | empty
  | literal (chars : List Char)
  | set (ranges : CodeRanges)
  | anchor (condition : Anchor)
  | loop (body : Plan) (least : Nat) (most : Option Nat)
  | group (body : Plan)
  | sequence (parts : List Plan)
  | choice (branches : List Plan)

namespace Plan

mutual

/-- Whether every match of the plan is empty. -/
def isWidthless : Plan → Bool
  | empty => true
  | literal _ => false
  | set _ => false
  | anchor _ => true
  | loop body _ most => most.isSome && body.isWidthless
  | group body => body.isWidthless
  | sequence parts => areWidthless parts
  | choice branches => areWidthless branches

/-- Whether every match of each of the plans is empty. -/
def areWidthless : List Plan → Bool
  | [] => true
  | p :: rest => p.isWidthless && areWidthless rest

end

mutual

/-- Whether two plans are the same; no two groups are, since each is captured for itself. -/
def same : Plan → Plan → Bool
  | empty, empty => true
  | literal s, literal t => s == t
  | set r, set s => r == s
  | anchor a, anchor b => a == b
  | loop p least most, loop q least' most' => p.same q && least == least' && most == most'
  | sequence ps, sequence qs => allSame ps qs
  | choice ps, choice qs => allSame ps qs
  | _, _ => false

/-- Whether two lists of plans are the same. -/
def allSame : List Plan → List Plan → Bool
  | [], [] => true
  | p :: ps, q :: qs => p.same q && allSame ps qs
  | _, _ => false

end

/-- The plan of a set of characters; a set of one is a literal. -/
def ofRanges (ranges : CodeRanges) : Plan :=
  match ranges with
  | [(first, last)] => if first = last then literal [Char.ofNat first] else set ranges
  | _ => set ranges

/-- A repeated plan; of empty matches one is as good as many. -/
def repeated (body : Plan) (least : Nat) (most : Option Nat) : Plan :=
  let (least, most) :=
    if body.isWidthless then (min least 1, some (min (most.getD 1) 1)) else (least, most)
  if most = some 0 then empty
  else if least = 1 ∧ most = some 1 then body
  else loop body least most

/-- The parts of a sequence. -/
def parts : Plan → List Plan
  | empty => []
  | sequence parts => parts
  | p => [p]

/-- The branches of alternatives. -/
def branches : Plan → List Plan
  | choice branches => branches
  | p => [p]

/-- The parts with neighbouring literals joined. -/
def joinLiterals : List Plan → List Plan
  | [] => []
  | literal s :: rest =>
      match joinLiterals rest with
      | literal t :: more => literal (s ++ t) :: more
      | more => literal s :: more
  | p :: rest => p :: joinLiterals rest

/-- Plans one after the other. -/
def inSequence (plans : List Plan) : Plan :=
  match joinLiterals (plans.flatMap parts) with
  | [] => empty
  | [p] => p
  | parts => sequence parts

/-- The character of a plan that is one. -/
def char? : Plan → Option Char
  | literal [c] => some c
  | _ => none

/-- The ranges of a plan that is a set. -/
def ranges? : Plan → Option CodeRanges
  | set ranges => some ranges
  | _ => none

/-- The text of a plan that is a literal. -/
def word? : Plan → Option (List Char)
  | literal chars => some chars
  | _ => none

/-- The parts of a plan that is a sequence. -/
def sequence? : Plan → Option (List Plan)
  | sequence parts => some parts
  | _ => none

/-- One of several branches: a set if each is a character or each is a set. -/
def ofBranches (branches : List Plan) : Plan :=
  match branches.mapM char?, branches.mapM ranges? with
  | some chars, _ =>
      ofRanges (CodeRanges.normalize (chars.map fun c => (c.toNat, c.toNat)))
  | _, some sets => ofRanges (CodeRanges.normalize sets.flatten)
  | _, _ => choice branches

/-- The number of plans that two lists have in common at their beginning. -/
def commonLength : List Plan → List Plan → Nat
  | p :: ps, q :: qs => if p.same q then commonLength ps qs + 1 else 0
  | _, _ => 0

/-- The number of parts with which each of several sequences begins. -/
def sharedLength : List (List Plan) → Nat
  | [] => 0
  | first :: rest => rest.foldl (fun n parts => min n (commonLength first parts)) first.length

/-- One of several plans; what all begin with is taken out. -/
def oneOf (plans : List Plan) : Plan :=
  match plans.flatMap branches with
  | [] => set []
  | [p] => p
  | branches =>
      match branches.mapM sequence? with
      | none => ofBranches branches
      | some sequences =>
          match sharedLength sequences with
          | 0 => ofBranches branches
          | n =>
              let ends := sequences.map fun parts => inSequence (parts.drop n)
              inSequence
                ((sequences.headD []).take n ++ [ofBranches (ends.flatMap Plan.branches)])

end Plan

/-- The plans of the alternatives that an expression consists of. -/
def plans : Regex → List Plan
  | empty => [.empty]
  | char set => [.ofRanges set.ranges]
  | anchor condition => [.anchor condition]
  | append first second => [.inSequence [.oneOf first.plans, .oneOf second.plans]]
  | either left right => .oneOf left.plans :: right.plans
  | loop body least most => [.repeated (.oneOf body.plans) least most]
  | group captured body => [if captured then .group (.oneOf body.plans) else .oneOf body.plans]

/-- The plan of an expression. -/
def plan (r : Regex) : Plan := .oneOf r.plans

end Chronicle.Regex
