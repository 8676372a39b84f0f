import Chronicle.Filter.Basic

set_option autoImplicit false

/-!
# Filters as documents

The tree of a filter written out as a JSON document, for those who want to see how a filter was
understood.
-/

namespace Chronicle

/-- The segments of a path: a text for each key, `null` for each mark. -/
def FieldPath.toJson (path : FieldPath) : Json :=
  .array <| path.map fun
    | .key name => .string name
    | .each => .null

/-- A pattern with its source, its case flag, and whether it is well-formed. -/
def Pattern.toJson (p : Pattern) : Json :=
  .object [("source", .string p.source), ("ignoreCase", .bool p.ignoreCase),
    ("valid", .bool p.isValid)]

/-- The key of the operator of a relation. -/
def Relation.word : Relation → String
  | less => "lt"
  | greater => "gt"
  | atMost => "lte"
  | atLeast => "gte"

mutual

/-- The tree of a filter. -/
def Filter.toJson : Filter → Json
  | .all clauses => .object [("all", .array (Filter.listToJson clauses))]
  | .any clauses => .object [("any", .array (Filter.listToJson clauses))]
  | .not clause => .object [("not", clause.toJson)]
  | .field path condition =>
      .object [("path", path.toJson), ("predicate", condition.toJson)]

/-- The trees of filters. -/
def Filter.listToJson : List Filter → List Json
  | [] => []
  | f :: rest => f.toJson :: Filter.listToJson rest

/-- The tree of a condition. -/
def Condition.toJson : Condition → Json
  | .equals v => .object [("equals", v)]
  | .passes tests => .object [("operators", .array (Test.listToJson tests))]

/-- The trees of tests. -/
def Test.listToJson : List Test → List Json
  | [] => []
  | t :: rest => t.toJson :: Test.listToJson rest

/-- The tree of a test: the key of its operator and the operand. -/
def Test.toJson : Test → Json
  | .equal v => .array [.string "eq", v]
  | .differs v => .array [.string "ne", v]
  | .compares relation v => .array [.string relation.word, v]
  | .oneOf vs => .array [.string "in", .array vs]
  | .defined b => .array [.string "isDefined", .bool b]
  | .contains s => .array [.string "contains", .string s]
  | .beginsWith s => .array [.string "beginsWith", .string s]
  | .fits p => .array [.string "matches", p.toJson]
  | .includes member => member.toJson
  | .under key condition => .array [.string "nested", .string key, condition.toJson]

/-- The tree of a test for elements. -/
def Member.toJson : Member → Json
  | .containing s => .array [.string "includesText", .string s]
  | .equalTo v => .array [.string "includesEqual", v]
  | .satisfying f => .array [.string "includesMatching", f.toJson]

end

end Chronicle
