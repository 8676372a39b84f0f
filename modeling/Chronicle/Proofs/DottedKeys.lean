import Chronicle.Proofs.FilterForms
import Chronicle.Sorting

set_option autoImplicit false

/-!
# Nested documents and dotted keys

A key in front of a nested document and the key with a dot and each key of the document behind it
are read as the same path, since reading a text cuts it at its dots first
(`FieldPath.parse_dotted`). Main statement: external filters accept the same values, and sort
specifications have the same keys in the same order, whichever way they are written
(`nested_eq_dotted`).
-/

namespace Chronicle

/-! ## Keys with a dot -/

theorem not_combinator_iff {key : String} :
    key ∉ combinatorNames ↔ key ≠ "and" ∧ key ≠ "or" ∧ key ≠ "not" := by
  simp only [combinatorNames, List.mem_cons, List.not_mem_nil, or_false, not_or]

/-- No combinator has a dot in its name. -/
theorem dotted_not_combinator (a b : String) : a ++ "." ++ b ∉ combinatorNames := by
  intro hmem
  have hdot : '.' ∈ (a ++ "." ++ b).toList := by simp
  have hnone : ∀ name ∈ combinatorNames, '.' ∉ name.toList := by decide
  exact hnone _ hmem hdot

/-! ## Filters -/

namespace Filter

variable {base : FieldPath} {fields : Fields} {v : Json}

/-- A dotted key leads from a document to where its last part leads from below its first. -/
theorem ofExternalField_dotted {b : String} (hb : b ∉ combinatorNames) (base : FieldPath)
    (a : String) (v : Json) :
    ofExternalField base (a ++ "." ++ b, v) =
      ofExternalField (base ++ FieldPath.parse a) (b, v) := by
  obtain ⟨hand, hor, hnot⟩ := not_combinator_iff.mp (dotted_not_combinator a b)
  obtain ⟨hband, hbor, hbnot⟩ := not_combinator_iff.mp hb
  rw [ofExternalField_eq, if_neg hand, if_neg hor, if_neg hnot, ofExternalField_eq, if_neg hband,
    if_neg hbor, if_neg hbnot, FieldPath.parse_dotted, List.append_assoc]

theorem allAccept_iff {clauses : List Filter} :
    allAccept clauses v = true ↔ ∀ f ∈ clauses, f.accepts v = true := by
  induction clauses with
  | nil => exact ⟨fun _ f hf => absurd hf List.not_mem_nil, fun _ => rfl⟩
  | cons f rest ih => rw [allAccept, Bool.and_eq_true, ih, List.forall_mem_cons]

theorem ofExternalFields_eq_map (base : FieldPath) (fields : Fields) :
    ofExternalFields base fields = fields.map (ofExternalField base) := by
  induction fields with
  | nil => rfl
  | cons field rest ih => rw [ofExternalFields, List.map_cons, ih]

/-- A document below a path accepts what each of its fields does. -/
theorem allAccept_ofExternalFields_iff :
    allAccept (ofExternalFields base fields) v = true ↔
      ∀ f ∈ fields, (ofExternalField base f).accepts v = true := by
  rw [allAccept_iff, ofExternalFields_eq_map, List.forall_mem_map]

/-- A document with one field accepts what the field does. -/
theorem accepts_ofExternal_single (field : String × Json) (v : Json) :
    (ofExternal (.object [field])).accepts v = (ofExternalField [] field).accepts v := by
  simp only [ofExternal, ofExternalAt, ofExternalFields, accepts, allAccept, Bool.and_true]

/-- A nested document without operators accepts what all its fields do, each with a dotted key. -/
theorem accepts_nested_iff {a : String} (ha : a ∉ combinatorNames)
    (hfields : ∀ f ∈ fields, f.1 ∉ operatorNames ∧ f.1 ∉ combinatorNames) (v : Json) :
    (ofExternal (.object [(a, .object fields)])).accepts v = true ↔
      ∀ f ∈ fields, (ofExternal (.object [(a ++ "." ++ f.1, f.2)])).accepts v = true := by
  have hoperator : Fields.hasOperator fields = false := by
    rw [Fields.hasOperator, List.any_eq_false]
    intro f hf hmem
    exact (hfields f hf).1 (List.contains_iff_mem.mp hmem)
  have hnested : ofExternalField [] (a, .object fields) =
      .all (ofExternalFields (FieldPath.parse a) fields) := by
    obtain ⟨hand, hor, hnot⟩ := not_combinator_iff.mp ha
    rw [ofExternalField_eq, if_neg hand, if_neg hor, if_neg hnot]
    simp only [hoperator, Bool.false_eq_true, if_false, List.nil_append]
  rw [accepts_ofExternal_single, hnested, accepts, allAccept_ofExternalFields_iff]
  refine forall₂_congr fun f hf => ?_
  rw [accepts_ofExternal_single, ofExternalField_dotted (hfields f hf).2, List.nil_append]

end Filter

/-! ## Sort specifications -/

namespace SortKeys

theorem ofFields_cons (base : FieldPath) (key : String) (v : Json) (rest : Fields) :
    ofFields base ((key, v) :: rest) = ofFields base [(key, v)] ++ ofFields base rest := by
  cases v <;> simp only [ofFields, List.append_nil]

/-- The keys of a specification are those of its fields, in their order. -/
theorem ofFields_eq_flatMap (base : FieldPath) (fields : Fields) :
    ofFields base fields = fields.flatMap fun f => ofFields base [f] := by
  induction fields with
  | nil => rw [ofFields, List.flatMap_nil]
  | cons field rest ih => rw [ofFields_cons, List.flatMap_cons, ih]

theorem ofFields_dotted (base : FieldPath) (a b : String) (v : Json) :
    ofFields base [(a ++ "." ++ b, v)] = ofFields (base ++ FieldPath.parse a) [(b, v)] := by
  cases v <;> simp only [ofFields, FieldPath.parse_dotted, List.append_assoc]

/-- A nested specification has the keys of its fields, each with a dotted key. -/
theorem ofJson_nested (a : String) (fields : Fields) :
    ofJson (.object [(a, .object fields)]) =
      fields.flatMap fun f => ofJson (.object [(a ++ "." ++ f.1, f.2)]) := by
  have hnested : ofJson (.object [(a, .object fields)]) = ofFields (FieldPath.parse a) fields := by
    simp only [ofJson, below, ofFields, List.nil_append, List.append_nil]
  rw [hnested, ofFields_eq_flatMap]
  refine List.flatMap_congr fun f _ => ?_
  rw [ofJson, below, ofFields_dotted, List.nil_append]

end SortKeys

/--
A nested document means the same as its fields with dotted keys: whatever the texts of the keys are,
an external filter accepts what all the filters of the single fields accept, if none of the keys is
an operator or a combinator, and a sort specification has the keys of those of the single fields, in
their order.
-/
theorem nested_eq_dotted :
    (∀ (a : String) (fields : Fields), a ∉ combinatorNames →
      (∀ f ∈ fields, f.1 ∉ operatorNames ∧ f.1 ∉ combinatorNames) → ∀ v : Json,
        ((Filter.ofExternal (.object [(a, .object fields)])).accepts v = true ↔
          ∀ f ∈ fields, (Filter.ofExternal (.object [(a ++ "." ++ f.1, f.2)])).accepts v = true)) ∧
    ∀ (a : String) (fields : Fields),
      SortKeys.ofJson (.object [(a, .object fields)]) =
        fields.flatMap fun f => SortKeys.ofJson (.object [(a ++ "." ++ f.1, f.2)]) :=
  ⟨fun _ _ ha hfields v => Filter.accepts_nested_iff ha hfields v, SortKeys.ofJson_nested⟩

/-- What is asked of the parts of an order: one key has a dot, one a mark, one nothing but a dot. -/
def nestedParts : Fields :=
  [("home.city", .object [("eq", .string "Oslo")]),
    ("lines[]", .object [("1", .object [("sku", .object [("not", .object [("exists", .bool false)]),
      ("size", .object [("gte", .ofInt 2)])])])]),
    (".", .object [("or",
      .array [.object [("paid", .bool true)], .object [("free", .bool true)]])])]

/-- Each of the dotted filters accepts an order with these parts below a key with an empty piece. -/
theorem nested_eq_dotted_order :
    ∀ f ∈ nestedParts, (Filter.ofExternal (.object [("order." ++ "." ++ f.1, f.2)])).accepts
      (.object [("order", .object [("home", .object [("city", .string "Oslo")]),
        ("lines", .array [.null, .object [("sku", .object [("size", .ofInt 3)])]]),
        ("free", .bool true)])]) = true :=
  (nested_eq_dotted.1 "order." nestedParts (by decide) (by decide) _).mp (by decide +kernel)

end Chronicle
