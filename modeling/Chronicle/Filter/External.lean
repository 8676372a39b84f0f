import Chronicle.Filter.Canonical

set_option autoImplicit false

/-!
# The external form of filters

Reading filters from nested documents, in which objects stand for field paths and combinators
may appear at any depth; these inherit the path that they appear under. String operators become
patterns.
-/

namespace Chronicle

/-- The keys that make an object one of operators. -/
def operatorNames : List String :=
  ["eq", "ne", "lt", "gt", "lte", "gte", "in", "isDefined", "exists", "contains", "beginsWith",
    "regex", "iRegex", "includes"]

/-- Whether some key of the object is an operator. -/
def Fields.hasOperator (fields : Fields) : Bool := fields.any fun f => operatorNames.contains f.1

mutual

/-- Reads an external document that stands under `base`. -/
def Filter.ofExternalAt (base : FieldPath) : Json → Filter
  | .object fields => .all (Filter.ofExternalFields base fields)
  | _ => .everything

/-- The clauses of an external document, in order. -/
def Filter.ofExternalFields (base : FieldPath) : List (String × Json) → List Filter
  | [] => []
  | field :: rest => Filter.ofExternalField base field :: Filter.ofExternalFields base rest

/-- The clause of one field: a combinator, a condition, or a document one path deeper. -/
def Filter.ofExternalField (base : FieldPath) : String × Json → Filter
  | (key, v) =>
      if key = "and" then .all (Filter.externalChildren base v)
      else if key = "or" then .any (Filter.externalChildren base v)
      else if key = "not" then .not (Filter.ofExternalAt base v)
      else
        match v with
        | .object fields =>
            if Fields.hasOperator fields then
              .field (base ++ FieldPath.parse key) (.passes (Test.ofExternalFields fields))
            else .all (Filter.ofExternalFields (base ++ FieldPath.parse key) fields)
        | v => .field (base ++ FieldPath.parse key) (.equals v)

/-- The filters under a combinator: those of a list, or the one that stands there. -/
def Filter.externalChildren (base : FieldPath) : Json → List Filter
  | .array items => Filter.ofExternalItems base items
  | .object fields => [.all (Filter.ofExternalFields base fields)]
  | _ => [.everything]

/-- The filter of each document. -/
def Filter.ofExternalItems (base : FieldPath) : List Json → List Filter
  | [] => []
  | v :: rest => Filter.ofExternalAt base v :: Filter.ofExternalItems base rest

/-- The tests of an external object of operators, in order. -/
def Test.ofExternalFields : List (String × Json) → List Test
  | [] => []
  | field :: rest => Test.ofExternalField field :: Test.ofExternalFields rest

/-- The test of one operator; string operators become patterns. -/
def Test.ofExternalField : String × Json → Test
  | (key, operand) =>
      match Test.ofComparison? key operand with
      | some test => test
      | none =>
          if key = "contains" then .fits (.substring operand.operandText)
          else if key = "beginsWith" then .fits (.startsWith operand.operandText)
          else if key = "includes" then
            match operand with
            | .string text => .fits (.substring text)
            | .object fields =>
                .includes (.satisfying (.all (Filter.ofExternalFields [] fields)))
            | v => .includes (.equalTo v)
          else .under key (Condition.ofExternal operand)

/-- The condition below a key that is no operator. -/
def Condition.ofExternal : Json → Condition
  | .object fields => .passes (Test.ofExternalFields fields)
  | v => .equals v

end

/-- The clause of one field, as one equation for all kinds of values. -/
theorem Filter.ofExternalField_eq (base : FieldPath) (key : String) (v : Json) :
    Filter.ofExternalField base (key, v) =
      if key = "and" then .all (Filter.externalChildren base v)
      else if key = "or" then .any (Filter.externalChildren base v)
      else if key = "not" then .not (Filter.ofExternalAt base v)
      else
        match v with
        | .object fields =>
            if Fields.hasOperator fields then
              .field (base ++ FieldPath.parse key) (.passes (Test.ofExternalFields fields))
            else .all (Filter.ofExternalFields (base ++ FieldPath.parse key) fields)
        | v => .field (base ++ FieldPath.parse key) (.equals v) := by
  cases v <;> rfl

/-- The test of one operator, as one equation for all kinds of operands. -/
theorem Test.ofExternalField_eq (key : String) (operand : Json) :
    Test.ofExternalField (key, operand) =
      match Test.ofComparison? key operand with
      | some test => test
      | none =>
          if key = "contains" then .fits (.substring operand.operandText)
          else if key = "beginsWith" then .fits (.startsWith operand.operandText)
          else if key = "includes" then
            match operand with
            | .string text => .fits (.substring text)
            | .object fields =>
                .includes (.satisfying (.all (Filter.ofExternalFields [] fields)))
            | v => .includes (.equalTo v)
          else .under key (Condition.ofExternal operand) := by
  cases operand <;> rfl

/-- Reads an external filter document. -/
def Filter.ofExternal (document : Json) : Filter := Filter.ofExternalAt [] document

end Chronicle
