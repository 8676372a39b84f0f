import Chronicle.Regex.Class
import Chronicle.Text.Letter
import Chronicle.Word

set_option autoImplicit false

/-!
# Reading regular expressions

The pattern language: literals, escapes, character classes, groups with names and flags,
alternation, greedy and lazy repetition, anchors and word boundaries. Look-around and
back-references are refused, and so is a pattern in which groups, repetitions, sequences,
alternatives and classes are nested too deeply. Main definition: `Regex.parse?`.
-/

namespace Chronicle.Regex

open Text (isDigit digitsValue)

/-- The switches that a group may set. -/
structure Flags where
  ignoreCase : Bool := false
  multiLine : Bool := false
  dotAll : Bool := false

/-- Reads a repetition count, with blanks allowed around it. -/
def readCount (cs : List Char) : Option (Option Nat × List Char) :=
  let cs := cs.dropWhile Text.isBlank
  let ds := cs.takeWhile isDigit
  let rest := (cs.dropWhile isDigit).dropWhile Text.isBlank
  if ds.isEmpty then some (none, rest)
  else
    let n := digitsValue ds
    if n < Word.limit 32 then some (some n, rest) else none

/-- Reads the bounds of a counted repetition after its opening brace. -/
def readBounds (cs : List Char) : Option (Nat × Option Nat × List Char) := do
  let (least, rest) ← readCount cs
  match rest with
  | '\x7d' :: rest => return (← least, least, rest)
  | ',' :: '\x7d' :: rest => return (← least, none, rest)
  | ',' :: rest =>
      let (most, rest) ← readCount rest
      match rest with
      | '\x7d' :: rest =>
          if (← least) ≤ (← most) then some (← least, most, rest) else none
      | _ => none
  | _ => none

/-- Skips the mark of a lazy repetition. -/
def skipLazy : List Char → List Char
  | '?' :: rest => rest
  | rest => rest

/--
Whether the character may occur in the name of a group: the first is alphabetic or an underscore,
the others may be numeric, too, or dots or square brackets.
-/
def isNameChar (first : Bool) (c : Char) : Bool :=
  if first then c == '_' || Text.isAlphabetic c
  else c == '_' || c == '.' || c == '[' || c == ']' || Text.isAlphanumeric c

/-- Reads the name of a group and its closing angle bracket. -/
def readGroupName (cs : List Char) : Option (String × List Char) :=
  let name := cs.takeWhile (· != '>')
  match name, cs.dropWhile (· != '>') with
  | c :: more, _ :: rest =>
      if isNameChar true c && more.all (isNameChar false) then
        some (String.ofList name, rest)
      else none
  | _, _ => none

/-- Sets or clears the switch of a letter; the switch between greedy and lazy has no effect. -/
def Flags.switch? (f : Flags) (on : Bool) : Char → Option Flags
  | 'i' => some { f with ignoreCase := on }
  | 'm' => some { f with multiLine := on }
  | 's' => some { f with dotAll := on }
  | 'U' => some f
  | _ => none

/--
Reads the switches of a group up to the colon or bracket that ends them. A letter occurs once,
and so does the hyphen, which is followed by a letter.
-/
def readFlags : Flags → List Char → List Char → Option (Flags × List Char × List Char)
  | _, _, [] => none
  | flags, seen, c :: rest =>
      if c = ':' ∨ c = ')' then
        if seen.head? = some '-' then none else some (flags, seen, c :: rest)
      else if seen.contains c then none
      else if c = '-' then readFlags flags ('-' :: seen) rest
      else
        match flags.switch? (!seen.contains '-') c with
        | some flags => readFlags flags (c :: seen) rest
        | none => none

/-- What is left of a pattern, and the group names met so far. -/
structure Rest where
  chars : List Char
  names : List String

/-- The expression of a literal character. -/
def literal (flags : Flags) (c : Char) : Regex :=
  .char (if flags.ignoreCase then .ofChars (Text.caseVariants c) else .only c)

/-- The expression of a character that begins no longer construct: a dot, a caret, a dollar sign
or a literal. -/
def ofChar (flags : Flags) : Char → Regex
  | '.' => .char (.complement (if flags.dotAll then .empty else .only '\n'))
  | '^' => .anchor (if flags.multiLine then .lineStart else .textStart)
  | '$' => .anchor (if flags.multiLine then .lineEnd else .textEnd)
  | c => literal flags c

/-- The expression of an escape. -/
def ofEscape (flags : Flags) : Escape → Regex
  | .literal c => literal flags c
  | .set s => .char s
  | .anchor a => .anchor a

/-- An expression that was read and the depth of its nesting. -/
structure Part where
  expr : Regex
  depth : Nat

namespace Part

/-- An expression without parts. -/
def plain (expr : Regex) : Part := ⟨expr, 0⟩

/-- A repeated part. -/
def loop (p : Part) (least : Nat) (most : Option Nat) : Part :=
  ⟨.loop p.expr least most, p.depth + 1⟩

/-- A part in a group. -/
def group (captured : Bool) (p : Part) : Part := ⟨.group captured p.expr, p.depth + 1⟩

/-- The depth of parts that one expression joins: one alone adds nothing. -/
def joinedDepth (depths : List Nat) : Nat :=
  depths.foldr max 0 + if 1 < depths.length then 1 else 0

/-- Parts one after the other; a missing one stands for switches, which match the empty text. -/
def sequence (items : List (Option Part)) : Part where
  expr := concat (items.filterMap fun item => item.map Part.expr)
  depth := joinedDepth (items.map fun item => (item.map Part.depth).getD 0)

/-- Alternatives. -/
def alternatives (parts : List Part) : Part where
  expr := oneOf (parts.map Part.expr)
  depth := joinedDepth (parts.map Part.depth)

end Part

/-- Repeats the part last read; switches and an empty sequence cannot be repeated. -/
def repeatLast (least : Nat) (most : Option Nat) :
    List (Option Part) → Option (List (Option Part))
  | some p :: before => some (some (p.loop least most) :: before)
  | _ => none

mutual

/-- Reads alternatives up to a closing bracket or the end. -/
def readAlternatives : Nat → Flags → Rest → Option (List Part × Rest)
  | 0, _, _ => none
  | fuel + 1, flags, rest =>
      match readSequence fuel flags [] rest with
      | none => none
      | some (first, flags, rest) =>
          match rest.chars with
          | '|' :: cs =>
              (readAlternatives fuel flags { rest with chars := cs }).map fun r =>
                (first :: r.1, r.2)
          | _ => some ([first], rest)

/--
Reads a sequence up to a bar, a closing bracket or the end; `sofar` holds what was read, the
last first, with `none` for switches.
-/
def readSequence : Nat → Flags → List (Option Part) → Rest → Option (Part × Flags × Rest)
  | 0, _, _, _ => none
  | fuel + 1, flags, sofar, rest =>
      match rest.chars with
      | [] => some (.sequence sofar.reverse, flags, rest)
      | c :: cs =>
          match c with
          | '|' => some (.sequence sofar.reverse, flags, rest)
          | ')' => some (.sequence sofar.reverse, flags, rest)
          | '(' =>
              match readGroup fuel flags { rest with chars := cs } with
              | some (.inl flags, rest) => readSequence fuel flags (none :: sofar) rest
              | some (.inr p, rest) => readSequence fuel flags (some p :: sofar) rest
              | none => none
          | '[' =>
              match readClass flags.ignoreCase fuel cs with
              | some (part, cs) =>
                  readSequence fuel flags (some ⟨.char part.set, part.depth⟩ :: sofar)
                    { rest with chars := cs }
              | none => none
          | '*' =>
              match repeatLast 0 none sofar with
              | some sofar => readSequence fuel flags sofar { rest with chars := skipLazy cs }
              | none => none
          | '+' =>
              match repeatLast 1 none sofar with
              | some sofar => readSequence fuel flags sofar { rest with chars := skipLazy cs }
              | none => none
          | '?' =>
              match repeatLast 0 (some 1) sofar with
              | some sofar => readSequence fuel flags sofar { rest with chars := skipLazy cs }
              | none => none
          | '\x7b' =>
              match readBounds cs with
              | some (least, most, cs) =>
                  match repeatLast least most sofar with
                  | some sofar => readSequence fuel flags sofar { rest with chars := skipLazy cs }
                  | none => none
              | none => none
          | '\\' =>
              match readEscape cs with
              | some (e, cs) =>
                  readSequence fuel flags (some (.plain (ofEscape flags e)) :: sofar)
                    { rest with chars := cs }
              | none => none
          | c =>
              readSequence fuel flags (some (.plain (ofChar flags c)) :: sofar)
                { rest with chars := cs }

/-- Reads a group after its opening bracket: switches for what follows, or an expression. -/
def readGroup : Nat → Flags → Rest → Option ((Flags ⊕ Part) × Rest)
  | 0, _, _ => none
  | fuel + 1, flags, rest =>
      match rest.chars with
      | '?' :: '=' :: _ => none
      | '?' :: '!' :: _ => none
      | '?' :: '<' :: '=' :: _ => none
      | '?' :: '<' :: '!' :: _ => none
      | '?' :: 'P' :: '<' :: cs => readNamedGroup fuel flags { rest with chars := cs }
      | '?' :: '<' :: cs => readNamedGroup fuel flags { rest with chars := cs }
      | '?' :: cs =>
          match readFlags flags [] cs with
          | some (inner, seen, ')' :: cs) =>
              if seen.isEmpty then none else some (.inl inner, { rest with chars := cs })
          | some (inner, _, ':' :: cs) => readBody fuel inner false { rest with chars := cs }
          | _ => none
      | _ => readBody fuel flags true rest

/-- Reads a named group from its name on; no two groups share a name. -/
def readNamedGroup : Nat → Flags → Rest → Option ((Flags ⊕ Part) × Rest)
  | 0, _, _ => none
  | fuel + 1, flags, rest =>
      match readGroupName rest.chars with
      | some (name, cs) =>
          if rest.names.contains name then none
          else readBody fuel flags true ⟨cs, name :: rest.names⟩
      | none => none

/-- Reads the alternatives of a group and its closing bracket. -/
def readBody : Nat → Flags → Bool → Rest → Option ((Flags ⊕ Part) × Rest)
  | 0, _, _, _ => none
  | fuel + 1, flags, captured, rest =>
      match readAlternatives fuel flags rest with
      | some (parts, rest) =>
          match rest.chars with
          | ')' :: cs =>
              some (.inr ((Part.alternatives parts).group captured), { rest with chars := cs })
          | _ => none
      | none => none

end

/-- The deepest nesting that is read. -/
def maxDepth : Nat := 250

/-- Reads a whole pattern; one that is nested too deeply is refused like a malformed one. -/
def parse? (ignoreCase : Bool) (source : List Char) : Option Regex :=
  match readAlternatives (4 * source.length + 4) { ignoreCase } ⟨source, []⟩ with
  | some (parts, rest) =>
      let part := Part.alternatives parts
      if rest.chars.isEmpty ∧ part.depth ≤ maxDepth then some part.expr else none
  | none => none

end Chronicle.Regex
