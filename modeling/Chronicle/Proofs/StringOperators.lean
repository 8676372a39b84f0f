import Chronicle.Proofs.FilterForms

set_option autoImplicit false

/-!
# String operators and the kinds of fields

A string operator is meant for fields that are strings. The canonical form reads `contains` and
`beginsWith` as tests of a string; all other string operators, and in the external form all four,
are patterns, and a pattern is also tried on the items of an array, since it may stand for
`includes`. Main statements: a test of a string holds of strings only, and a pattern too wherever
there is no array with a string in it (`Filter.string_of_accepts`); of such an array, patterns
hold (`Filter.accepts_arrayOfTexts`). Apart from arrays, the pattern that an operator is compiled to
asks the same as the plain operator does, whatever the characters of the text
(`Test.compiled_agree_iff`).
-/

namespace Chronicle

/-- The operators on strings. -/
def stringOperators : List String := ["contains", "beginsWith", "regex", "iRegex"]

/-- Whether the value is an array with a string among its items. -/
def Json.hasTextItem : Json → Bool
  | .array items => items.any fun v => v.string?.isSome
  | _ => false

/-- The document of one operator on one field. -/
def Filter.clause (key op : String) (operand : Json) : Json :=
  .object [(key, .object [(op, operand)])]

namespace Test

variable {found : Option Json} {op : String}

/-- What passes a test that only strings pass is a string. -/
theorem string_of_any {test : Json → Bool} (htest : ∀ v : Json, v.string? = none → test v = false)
    (h : found.any test = true) : ∃ s, found = some (.string s) := by
  obtain ⟨v, rfl, hv⟩ := (Option.any_eq_true test found).mp h
  cases v with
  | string s => exact ⟨s, rfl⟩
  | _ =>
      rw [htest _ rfl] at hv
      cases hv

/-- A pattern holds of a string, or of an array with a string among its items. -/
theorem string_of_holds_fits {p : Pattern} (h : (fits p).holds found = true)
    (hitems : found.any Json.hasTextItem = false) : ∃ s, found = some (.string s) := by
  rcases found with _ | (_ | _ | _ | s | items | _)
  case some.string => exact ⟨s, rfl⟩
  case some.array =>
    have hitem : items.any (fun v => v.fits p) = true := h
    obtain ⟨v, hv, hfits⟩ := List.any_eq_true.mp hitem
    -- the item that fits is a string
    cases v with
    | string s =>
        have htext : items.any (fun v => v.string?.isSome) = true :=
          List.any_eq_true.mpr ⟨.string s, hv, rfl⟩
        rw [Option.any_some, Json.hasTextItem, htext] at hitems
        cases hitems
    | _ => cases hfits
  all_goals cases h

/-- In the external form, a string operator is a pattern. -/
theorem ofExternalField_of_stringOperator (h : op ∈ stringOperators) (operand : Json) :
    ∃ p, ofExternalField (op, operand) = fits p := by
  simp only [stringOperators, List.mem_cons, List.not_mem_nil, or_false] at h
  rcases h with rfl | rfl | rfl | rfl <;> rw [ofExternalField_eq] <;> exact ⟨_, rfl⟩

/-- In the canonical form, a string operator is a test of a string, or a pattern. -/
theorem ofField_of_stringOperator (h : op ∈ stringOperators) (operand : Json) :
    (∃ text, ofField (op, operand) = contains text) ∨
      (∃ text, ofField (op, operand) = beginsWith text) ∨
        op ∉ ["contains", "beginsWith"] ∧ ∃ p, ofField (op, operand) = fits p := by
  simp only [stringOperators, List.mem_cons, List.not_mem_nil, or_false] at h
  rcases h with rfl | rfl | rfl | rfl
  · exact Or.inl ⟨_, rfl⟩
  · exact Or.inr (Or.inl ⟨_, rfl⟩)
  · exact Or.inr (Or.inr ⟨by decide, _, rfl⟩)
  · exact Or.inr (Or.inr ⟨by decide, _, rfl⟩)

end Test

namespace Filter

variable {key op : String}

/-- A clause asks its operator about what stands at its path. -/
theorem accepts_ofJson_clause (hkey : key ≠ "and" ∧ key ≠ "or" ∧ key ≠ "not") (op : String)
    (operand v : Json) :
    (ofJson (clause key op operand)).accepts v =
      (Test.ofField (op, operand)).holds ((FieldPath.parse key).resolve v) := by
  rw [clause, ofJson, ofFields, ofField, if_neg hkey.1, if_neg hkey.2.1, if_neg hkey.2.2,
    Condition.ofJson, Test.ofFields, Test.ofFields, ofFields]
  simp only [accepts, allAccept, Condition.holds, Test.allHold, Bool.and_true]

theorem accepts_ofExternal_clause (hkey : key ≠ "and" ∧ key ≠ "or" ∧ key ≠ "not")
    (hop : op ∈ operatorNames) (operand v : Json) :
    (ofExternal (clause key op operand)).accepts v =
      (Test.ofExternalField (op, operand)).holds ((FieldPath.parse key).resolve v) := by
  have hoperator : Fields.hasOperator [(op, operand)] = true := by
    rw [Fields.hasOperator, List.any_cons, List.contains_iff_mem.mpr hop, Bool.true_or]
  have hfield : ofExternalField [] (key, .object [(op, operand)]) =
      .field (FieldPath.parse key) (.passes (Test.ofExternalFields [(op, operand)])) := by
    rw [ofExternalField_eq, if_neg hkey.1, if_neg hkey.2.1, if_neg hkey.2.2]
    simp only [hoperator, if_true, List.nil_append]
  simp only [ofExternal, clause, ofExternalAt, ofExternalFields, hfield, accepts, allAccept,
    Test.ofExternalFields, Condition.holds, Test.allHold, Bool.and_true]

theorem operator_of_stringOperator (hop : op ∈ stringOperators) : op ∈ operatorNames := by
  have hsub : stringOperators ⊆ operatorNames := by decide
  exact hsub hop

/--
A filter of one string operator accepts only values with a string at its path: in the canonical
form always if the operator is `contains` or `beginsWith`, and in both forms whatever it is as long
as what stands there is no array with a string among its items.
-/
theorem string_of_accepts (hkey : key ≠ "and" ∧ key ≠ "or" ∧ key ≠ "not")
    (hop : op ∈ stringOperators) (operand v : Json) :
    ((ofJson (clause key op operand)).accepts v = true →
      op ∈ ["contains", "beginsWith"] ∨
          ((FieldPath.parse key).resolve v).any Json.hasTextItem = false →
        ∃ s, (FieldPath.parse key).resolve v = some (.string s)) ∧
    ((ofExternal (clause key op operand)).accepts v = true →
      ((FieldPath.parse key).resolve v).any Json.hasTextItem = false →
        ∃ s, (FieldPath.parse key).resolve v = some (.string s)) := by
  rw [accepts_ofJson_clause hkey, accepts_ofExternal_clause hkey (operator_of_stringOperator hop)]
  constructor
  · intro hholds hspared
    obtain ⟨text, htest⟩ | ⟨text, htest⟩ | ⟨hpattern, p, htest⟩ :=
      Test.ofField_of_stringOperator hop operand
    · rw [htest] at hholds
      exact Test.string_of_any (Json.hasText_eq_false text) hholds
    · rw [htest] at hholds
      exact Test.string_of_any (Json.startsWithText_eq_false text) hholds
    · exact Test.string_of_holds_fits (htest ▸ hholds) (hspared.resolve_left hpattern)
  · intro hholds hspared
    obtain ⟨p, htest⟩ := Test.ofExternalField_of_stringOperator hop operand
    exact Test.string_of_holds_fits (htest ▸ hholds) hspared

/-- A document with a title, beside an array of texts. -/
def titled : Json :=
  .object [("title", .string "Hello world"), ("ranks", .array [.string "1st", .string "2nd"])]

theorem string_of_accepts_title :
    (ofExternal (clause "title" "beginsWith" (.string "Hell"))).accepts titled = true ∧
      (ofJson (clause "title" "contains" (.string "o w"))).accepts titled = true ∧
      ∃ s, (FieldPath.parse "title").resolve titled = some (.string s) := by
  have haccepts :
      (ofExternal (clause "title" "beginsWith" (.string "Hell"))).accepts titled = true ∧
        (ofJson (clause "title" "contains" (.string "o w"))).accepts titled = true := by
    decide +kernel
  have hspared : ((FieldPath.parse "title").resolve titled).any Json.hasTextItem = false := by
    decide
  have hstring := (@string_of_accepts "title" "beginsWith" (by decide) (by decide)
    (.string "Hell") titled).2 haccepts.1 hspared
  exact ⟨haccepts.1, haccepts.2, hstring⟩

/--
An array of texts is accepted although it is no string: by each string operator in the external
form, and by those that are patterns in the canonical form.
-/
theorem accepts_arrayOfTexts :
    (∀ op ∈ stringOperators,
        (ofExternal (clause "ranks" op (.string "1"))).accepts titled = true) ∧
      (∀ op ∈ ["regex", "iRegex"],
        (ofJson (clause "ranks" op (.string "1"))).accepts titled = true) ∧
      ¬∃ s, (FieldPath.parse "ranks").resolve titled = some (.string s) := by
  refine ⟨by decide +kernel, by decide +kernel, ?_⟩
  rintro ⟨s, hs⟩
  cases hs

end Filter

/-! ## Compiled operators -/

namespace Test

variable {p : Pattern} {test : Json → Bool}

/-- Of what is found, a pattern asks the same as a test of strings, or of strings among the items,
if and only if it matches the strings that pass. -/
theorem holds_fits_iff_selfOrElement (htest : ∀ v : Json, v.string? = none → test v = false) :
    (∀ found, (fits p).holds found = found.any fun v => v.selfOrElement test) ↔
      ∀ s, p.isMatch s = test (.string s) := by
  constructor
  · intro h s
    exact h (some (.string s))
  · intro h found
    rw [holds, funext (Json.fits_eq htest h)]

theorem holds_fits_iff (htest : ∀ v : Json, v.string? = none → test v = false) :
    (∀ found, found.any Json.isArray = false → (fits p).holds found = found.any test) ↔
      ∀ s, p.isMatch s = test (.string s) := by
  constructor
  · intro h s
    exact h (some (.string s)) rfl
  · intro h found harray
    apply holds_fits_eq (Json.fits_eq htest h)
    simp [harray]

/--
The pattern that searches for a text asks the same of every field as a search among its items does,
and of a field that is no array the same as a search within it; the pattern that starts with the
text, the same as a test of how the field begins. A text that is too long is refused, and only that.
-/
theorem compiled_agree_iff (text : String) :
    (Regex.Footprint.bytes text.toList ≤ 327673 ↔ ∀ found,
      (fits (.substring text)).holds found = (includes (.containing text)).holds found) ∧
    (Regex.Footprint.bytes text.toList ≤ 327673 ↔ ∀ found, found.any Json.isArray = false →
      (fits (.substring text)).holds found = (contains text).holds found) ∧
    (Regex.Footprint.bytes text.toList ≤ 327674 ↔ ∀ found, found.any Json.isArray = false →
      (fits (.startsWith text)).holds found = (beginsWith text).holds found) := by
  have hcontains := Json.hasText_eq_false text
  have hbegins := Json.startsWithText_eq_false text
  refine ⟨?_, ?_, ?_⟩
  · exact Pattern.isMatch_substring_iff.symm.trans (holds_fits_iff_selfOrElement hcontains).symm
  · exact Pattern.isMatch_substring_iff.symm.trans (holds_fits_iff hcontains).symm
  · exact Pattern.isMatch_startsWith_iff.symm.trans (holds_fits_iff hbegins).symm

/-- A text of metacharacters in two lines, as an item and as what a field begins with. -/
theorem compiled_agree_metacharacters :
    (fits (.substring "[a]\n.*")).holds (some (.array [.null, .string "x[a]\n.*+"])) = true ∧
      (fits (.substring "[a]\n.*")).holds (some (.string "a\n.*")) = false ∧
      (fits (.startsWith "^(")).holds (some (.string "^(a)$")) = true := by
  obtain ⟨hincludes, hcontains, -⟩ := compiled_agree_iff "[a]\n.*"
  obtain ⟨-, -, hbegins⟩ := compiled_agree_iff "^("
  rw [hincludes.mp (by decide), hcontains.mp (by decide) _ rfl, hbegins.mp (by decide) _ rfl]
  decide

end Test

end Chronicle
