import Chronicle.Filter.Evaluation
import Chronicle.Filter.External

set_option autoImplicit false

/-!
# Combinators below a field

A combinator below a field passes the path of the field on to its documents. Writing the field
above the combinator is then the same as writing it above each document
(`Filter.accepts_ofExternal_prefixed`), if no document is itself an object of operators: below a
combinator, the keys of such an object are read as segments of the path, while they are operators
right below a field (`Filter.not_accepts_ofExternal_prefixed`).
-/

namespace Chronicle.Filter

/-- The documents with the field `key` above each. -/
def under (key : String) (documents : List Fields) : List Json :=
  documents.map fun fields => .object [(key, .object fields)]

/-- A document without operators under a path is the one with the field of the path above it. -/
theorem accepts_ofExternalAt_prefixed {key : String}
    (hkey : key ≠ "and" ∧ key ≠ "or" ∧ key ≠ "not") {fields : Fields}
    (hoperator : Fields.hasOperator fields = false) (base : FieldPath) (v : Json) :
    (ofExternalAt (base ++ .parse key) (.object fields)).accepts v =
      (ofExternalAt base (.object [(key, .object fields)])).accepts v := by
  have hfield : ofExternalField base (key, .object fields) =
      .all (ofExternalFields (base ++ .parse key) fields) := by
    rw [ofExternalField_eq, if_neg hkey.1, if_neg hkey.2.1, if_neg hkey.2.2]
    simp only [hoperator, Bool.false_eq_true, if_false]
  simp only [ofExternalAt, ofExternalFields, hfield, accepts, allAccept, Bool.and_true]

/-- So it is for each document of a list. -/
theorem accept_ofExternalItems_prefixed {key : String}
    (hkey : key ≠ "and" ∧ key ≠ "or" ∧ key ≠ "not") {documents : List Fields}
    (hoperator : ∀ fields ∈ documents, Fields.hasOperator fields = false) (base : FieldPath)
    (v : Json) :
    allAccept (ofExternalItems (base ++ .parse key) (documents.map Json.object)) v =
        allAccept (ofExternalItems base (under key documents)) v ∧
      anyAccepts (ofExternalItems (base ++ .parse key) (documents.map Json.object)) v =
        anyAccepts (ofExternalItems base (under key documents)) v := by
  induction documents with
  | nil => exact ⟨rfl, rfl⟩
  | cons fields documents ih =>
      rw [List.forall_mem_cons] at hoperator
      obtain ⟨hall, hany⟩ := ih hoperator.2
      have hfirst := accepts_ofExternalAt_prefixed hkey hoperator.1 base v
      rw [under, List.map_cons, List.map_cons, ← under]
      simp only [ofExternalItems, allAccept, anyAccepts, hfirst, hall, hany, and_self]

/-- A field above a combinator alone is the combinator under the path of the field. -/
theorem accepts_ofExternal_combinator {key combinator : String}
    (hkey : key ≠ "and" ∧ key ≠ "or" ∧ key ≠ "not")
    (hcombinator : operatorNames.contains combinator = false) (w v : Json) :
    (ofExternal (.object [(key, .object [(combinator, w)])])).accepts v =
      (ofExternalField (.parse key) (combinator, w)).accepts v := by
  have hoperator : Fields.hasOperator [(combinator, w)] = false := by
    rw [Fields.hasOperator, List.any_cons, hcombinator, List.any_nil, Bool.or_self]
  rw [ofExternal, ← accepts_ofExternalAt_prefixed hkey hoperator [] v, List.nil_append]
  simp only [ofExternalAt, ofExternalFields, accepts, allAccept, Bool.and_true]

/--
A field above a combinator of documents without operators accepts what the combinator of the
documents with the field above each accepts.
-/
theorem accepts_ofExternal_prefixed {key : String}
    (hkey : key ≠ "and" ∧ key ≠ "or" ∧ key ≠ "not") {documents : List Fields}
    (hoperator : ∀ fields ∈ documents, Fields.hasOperator fields = false) (v : Json) :
    (∀ combinator ∈ ["and", "or"],
      (ofExternal (.object [(key,
          .object [(combinator, .array (documents.map Json.object))])])).accepts v =
        (ofExternal (.object [(combinator, .array (under key documents))])).accepts v) ∧
    ∀ fields ∈ documents,
      (ofExternal (.object [(key, .object [("not", .object fields)])])).accepts v =
        (ofExternal (.object [("not", .object [(key, .object fields)])])).accepts v := by
  obtain ⟨hall, hany⟩ := accept_ofExternalItems_prefixed hkey hoperator [] v
  refine ⟨fun combinator hcombinator => ?_, fun fields hfields => ?_⟩
  · simp only [List.mem_cons, List.not_mem_nil, or_false] at hcombinator
    rcases hcombinator with rfl | rfl
    · rw [accepts_ofExternal_combinator hkey (by decide)]
      simpa [ofExternal, ofExternalAt, ofExternalFields, ofExternalField_eq, externalChildren,
        accepts, allAccept] using hall
    · rw [accepts_ofExternal_combinator hkey (by decide)]
      simpa [ofExternal, ofExternalAt, ofExternalFields, ofExternalField_eq, externalChildren,
        accepts, allAccept] using hany
  · rw [accepts_ofExternal_combinator hkey (by decide)]
    have hone := accepts_ofExternalAt_prefixed hkey (hoperator fields hfields) [] v
    simpa [ofExternal, ofExternalAt, ofExternalFields, ofExternalField_eq, accepts, allAccept]
      using hone

/-- Two documents that go on with a field, and a further combinator. -/
def prefixedDocuments : List Fields :=
  [[("low", .object [("lt", .ofInt 18)])],
    [("or", .array [.object [("high", .object [("gt", .ofInt 65)])]])]]

theorem accepts_ofExternal_prefixedDocuments :
    (ofExternal (.object [("age",
        .object [("or", .array (prefixedDocuments.map Json.object))])])).accepts
        (.object [("age", .object [("low", .ofInt 10)])]) =
      (ofExternal (.object [("or", .array (under "age" prefixedDocuments))])).accepts
        (.object [("age", .object [("low", .ofInt 10)])]) :=
  (accepts_ofExternal_prefixed (by decide) (by decide) _).1 "or" (by decide)

/--
An age below 18 is no age with a field `lt` that is 18: below each combinator, the operator of
the one document is lost.
-/
theorem not_accepts_ofExternal_prefixed :
    (∀ combinator ∈ ["and", "or"],
      (ofExternal (.object [("age",
          .object [(combinator, .array [.object [("lt", .ofInt 18)]])])])).accepts
          (.object [("age", .ofInt 10)]) = false ∧
        (ofExternal (.object [(combinator,
          .array (under "age" [[("lt", .ofInt 18)]]))])).accepts
          (.object [("age", .ofInt 10)]) = true) ∧
      (ofExternal (.object [("age",
          .object [("not", .object [("lt", .ofInt 18)])])])).accepts
          (.object [("age", .ofInt 10)]) = true ∧
        (ofExternal (.object [("not",
          .object [("age", .object [("lt", .ofInt 18)])])])).accepts
          (.object [("age", .ofInt 10)]) = false := by
  decide

end Chronicle.Filter
