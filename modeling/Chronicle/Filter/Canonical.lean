import Chronicle.Filter.Basic
import Chronicle.Json.Printer

set_option autoImplicit false

/-!
# The canonical form of filters

Reading filters from documents with dotted field keys, each with a literal or an object of
operators, and the combinators `and`, `or` and `not`. Reading is total: whatever is no object
matches everything, and a key that is no operator continues the path.
-/

namespace Chronicle

/-- The text that an operand of a string operator stands for. -/
def Json.operandText : Json → String
  | .string text => text
  | v => v.text

namespace Test

/-- The keys of operators that compare the value with their operand as it is. -/
def ofComparison? (key : String) (operand : Json) : Option Test :=
  match key with
  | "eq" => some (.equal operand)
  | "ne" => some (.differs operand)
  | "lt" => some (.compares .less operand)
  | "gt" => some (.compares .greater operand)
  | "lte" => some (.compares .atMost operand)
  | "gte" => some (.compares .atLeast operand)
  | "in" =>
      match operand with
      | .array items => some (.oneOf items)
      | v => some (.oneOf [v])
  | "isDefined" => some (.defined (expectsDefined operand))
  | "exists" => some (.defined (expectsDefined operand))
  | "regex" => some (.fits ⟨operand.operandText, false⟩)
  | "iRegex" => some (.fits ⟨operand.operandText, true⟩)
  | _ => none
where
  /-- The flag of a presence test: a boolean is itself, all else but `null` asks for presence. -/
  expectsDefined : Json → Bool
    | .bool b => b
    | v => !v.isNull

end Test

mutual

/-- Reads a filter document. -/
def Filter.ofJson : Json → Filter
  | .object fields => .all (Filter.ofFields fields)
  | _ => .everything

/-- The clauses of a filter document, in order. -/
def Filter.ofFields : List (String × Json) → List Filter
  | [] => []
  | field :: rest => Filter.ofField field :: Filter.ofFields rest

/-- The clause of one field. -/
def Filter.ofField : String × Json → Filter
  | (key, v) =>
      if key = "and" then .all (Filter.children v)
      else if key = "or" then .any (Filter.children v)
      else if key = "not" then .not (Filter.ofJson v)
      else .field (FieldPath.parse key) (Condition.ofJson v)

/-- The filters under a combinator: those of a list, or the one that stands there. -/
def Filter.children : Json → List Filter
  | .array items => Filter.ofItems items
  | .object fields => [.all (Filter.ofFields fields)]
  | _ => [.everything]

/-- The filter of each document. -/
def Filter.ofItems : List Json → List Filter
  | [] => []
  | v :: rest => Filter.ofJson v :: Filter.ofItems rest

/-- Reads the condition of a field: an object holds operators, all else is a literal. -/
def Condition.ofJson : Json → Condition
  | .object fields => .passes (Test.ofFields fields)
  | v => .equals v

/-- The tests of an object of operators, in order. -/
def Test.ofFields : List (String × Json) → List Test
  | [] => []
  | field :: rest => Test.ofField field :: Test.ofFields rest

/-- The test of one operator; a key that is no operator continues the path. -/
def Test.ofField : String × Json → Test
  | (key, operand) =>
      match Test.ofComparison? key operand with
      | some test => test
      | none =>
          if key = "contains" then .contains operand.operandText
          else if key = "beginsWith" then .beginsWith operand.operandText
          else if key = "includes" then .includes (Member.ofJson operand)
          else .under key (Condition.ofJson operand)

/-- What elements must be: a text is contained, an object is a filter, all else a literal. -/
def Member.ofJson : Json → Member
  | .string text => .containing text
  | .object fields => .satisfying (.all (Filter.ofFields fields))
  | v => .equalTo v

end

end Chronicle
