import Chronicle.Regex.Escape

set_option autoImplicit false

/-!
# Character classes

Reads a class in brackets: single characters, ranges, escapes, named ASCII classes and nested
classes, joined or combined by `&&`, `--` and `~~` from the left. With the set comes the depth of
its nesting, which grows with each pair of brackets, each operation and each union of two or more
members. Main definition: `Regex.readClass`.
-/

namespace Chronicle.Regex

/-- The union of ranges. -/
def ofRanges (ranges : List (Char × Char)) : CharSet :=
  ranges.foldr (fun r s => .union (.range r.1 r.2) s) .empty

/-- The ASCII class of a name. -/
def namedClass? (name : String) : Option CharSet :=
  match name with
  | "alnum" => some (ofRanges [('0', '9'), ('A', 'Z'), ('a', 'z')])
  | "alpha" => some (ofRanges [('A', 'Z'), ('a', 'z')])
  | "ascii" => some (ofRanges [('\x00', '\x7f')])
  | "blank" => some (ofRanges [('\t', '\t'), (' ', ' ')])
  | "cntrl" => some (ofRanges [('\x00', '\x1f'), ('\x7f', '\x7f')])
  | "digit" => some (ofRanges [('0', '9')])
  | "graph" => some (ofRanges [('!', '~')])
  | "lower" => some (ofRanges [('a', 'z')])
  | "print" => some (ofRanges [(' ', '~')])
  | "punct" => some (ofRanges [('!', '/'), (':', '@'), ('[', '\x60'), ('\x7b', '~')])
  | "space" => some (ofRanges [('\t', '\r'), (' ', ' ')])
  | "upper" => some (ofRanges [('A', 'Z')])
  | "word" => some (ofRanges [('0', '9'), ('A', 'Z'), ('_', '_'), ('a', 'z')])
  | "xdigit" => some (ofRanges [('0', '9'), ('A', 'F'), ('a', 'f')])
  | _ => none

/-- The set without regard to case, if case is ignored. -/
def foldIf (ignoreCase : Bool) (set : CharSet) : CharSet :=
  if ignoreCase then .anyCase set else set

/-- The complement, if negated. -/
def negateIf (negated : Bool) (set : CharSet) : CharSet :=
  if negated then .complement set else set

/-- Reads an ASCII class such as `[:alpha:]`, after its bracket, if there is one. -/
def readNamedClass? (ignoreCase : Bool) : List Char → Option (CharSet × List Char)
  | ':' :: rest => do
      let (negated, rest) :=
        match rest with
        | '^' :: r => (true, r)
        | r => (false, r)
      match rest.dropWhile (· != ':') with
      | ':' :: ']' :: after =>
          let set ← namedClass? (String.ofList (rest.takeWhile (· != ':')))
          return (negateIf negated (foldIf ignoreCase set), after)
      | _ => none
  | _ => none

/-- Reads one member of a class: a character or an escape. -/
def readMember : List Char → Option (Escape × List Char)
  | [] => none
  | '\\' :: rest => readEscape rest
  | c :: rest => some (.literal c, rest)

/-- Reads a member or a range of a class. -/
def readRange (cs : List Char) : Option (CharSet × List Char) := do
  let (first, rest) ← readMember cs
  let single : Option CharSet :=
    match first with
    | .literal c => some (.only c)
    | .set s => some s
    | .anchor _ => none
  match rest with
  | [] => none
  | '-' :: [] => none
  | '-' :: ']' :: _ => return (← single, rest)
  | '-' :: '-' :: _ => return (← single, rest)
  | '-' :: rest =>
      match first, ← readMember rest with
      | .literal c, (.literal d, rest) => if c ≤ d then some (.range c d, rest) else none
      | _, _ => none
  | _ => return (← single, rest)

/-- The operations between the parts of a class. -/
inductive SetOp
  | intersection
  | difference
  | symmetricDifference

/-- Applies an operation; sets are closed under case first if case is ignored. -/
def SetOp.apply (ignoreCase : Bool) (op : SetOp) (left right : CharSet) : CharSet :=
  let left := foldIf ignoreCase left
  let right := foldIf ignoreCase right
  match op with
  | intersection => .intersection left right
  | difference => .difference left right
  | symmetricDifference => .symmetricDifference left right

/-- A set that was read and the depth of its nesting. -/
structure SetPart where
  set : CharSet
  depth : Nat

/-- The members of a union read so far: their set, their number and the depth of the deepest. -/
structure Members where
  set : CharSet
  count : Nat
  depth : Nat

namespace Members

/-- No members. -/
def none : Members := ⟨.empty, 0, 0⟩

/-- The members and one more. -/
def add (m : Members) (part : SetPart) : Members :=
  ⟨.union m.set part.set, m.count + 1, max m.depth part.depth⟩

/-- The union of the members. -/
def part (m : Members) : SetPart := ⟨m.set, if 1 < m.count then m.depth + 1 else m.depth⟩

end Members

/-- The left operand and operation that wait for the part being read. -/
abbrev Pending := Option (SetPart × SetOp)

/-- The part being read, combined with what waits for it. -/
def Pending.close (ignoreCase : Bool) (pending : Pending) (part : SetPart) : SetPart :=
  match pending with
  | some (left, op) =>
      ⟨op.apply ignoreCase left.set part.set, max left.depth part.depth + 1⟩
  | none => part

/-- The start of a class: whether it is negated, and its leading literal hyphens and bracket. -/
def readClassStart (cs : List Char) : Bool × Members × List Char :=
  let (negated, cs) :=
    match cs with
    | '^' :: r => (true, r)
    | r => (false, r)
  let hyphens := (cs.takeWhile (· == '-')).length
  if 0 < hyphens then (negated, ⟨.only '-', hyphens, 0⟩, cs.drop hyphens)
  else
    match cs with
    | ']' :: rest => (negated, ⟨.only ']', 1, 0⟩, rest)
    | rest => (negated, .none, rest)

mutual

/-- Reads a class after its opening bracket. -/
def readClass (ignoreCase : Bool) : Nat → List Char → Option (SetPart × List Char)
  | 0, _ => none
  | fuel + 1, cs =>
      let (negated, first, rest) := readClassStart cs
      (readClassRest ignoreCase fuel none first rest).map fun r =>
        (⟨negateIf negated (foldIf ignoreCase r.1.set), r.1.depth + 1⟩, r.2)

/-- Reads the parts of a class up to its closing bracket. -/
def readClassRest (ignoreCase : Bool) :
    Nat → Pending → Members → List Char → Option (SetPart × List Char)
  | 0, _, _, _ => none
  | _ + 1, _, _, [] => none
  | _ + 1, pending, members, ']' :: rest => some (pending.close ignoreCase members.part, rest)
  | fuel + 1, pending, members, '[' :: rest =>
      match readNamedClass? ignoreCase rest with
      | some (set, rest) => readClassRest ignoreCase fuel pending (members.add ⟨set, 0⟩) rest
      | none =>
          match readClass ignoreCase fuel rest with
          | some (part, rest) => readClassRest ignoreCase fuel pending (members.add part) rest
          | none => none
  | fuel + 1, pending, members, '&' :: '&' :: rest =>
      readClassRest ignoreCase fuel
        (some (pending.close ignoreCase members.part, .intersection)) .none rest
  | fuel + 1, pending, members, '-' :: '-' :: rest =>
      readClassRest ignoreCase fuel
        (some (pending.close ignoreCase members.part, .difference)) .none rest
  | fuel + 1, pending, members, '~' :: '~' :: rest =>
      readClassRest ignoreCase fuel
        (some (pending.close ignoreCase members.part, .symmetricDifference)) .none rest
  | fuel + 1, pending, members, cs =>
      match readRange cs with
      | some (set, rest) => readClassRest ignoreCase fuel pending (members.add ⟨set, 0⟩) rest
      | none => none

end

end Chronicle.Regex
