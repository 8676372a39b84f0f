import Chronicle.Filter.Canonical
import Chronicle.Filter.Evaluation
import Chronicle.Filter.External
import Chronicle.Proofs.LiteralPatterns
import Chronicle.Proofs.PathText

set_option autoImplicit false

/-!
# The two forms of filters

A plain document is one that both forms read alike: its combinators stand above all fields, and
below a field there are only operators and single path segments. The external form splits such a
document into one clause per branch, each with a joined path, where the canonical form nests its
tests; a clause at a joined path holds what the nested test holds of the value at the first part
(`Filter.accepts_ofExternalField`). Main statement: the two forms of a plain document accept the
same values (`Filter.accepts_ofExternal_of_isPlain`), as far as no array is searched for a text.
-/

namespace Chronicle

/-! ## Plain documents -/

/-- The keys of combinators. -/
def combinatorNames : List String := ["and", "or", "not"]

/-- Whether a key, read as a path, is the one segment with the key itself as its name. -/
def Segment.isPlainKey (key : String) : Bool :=
  key != "" && !combinatorNames.contains key && !key.toList.contains '.' &&
    !(['[', ']'].isSuffixOf key.toList)

mutual

/-- Whether a filter document is plain; what is no object is no condition. -/
def Filter.isPlain : Json → Bool
  | .object fields => Filter.arePlain fields
  | _ => true

/-- Whether all clauses of a document are plain. -/
def Filter.arePlain : List (String × Json) → Bool
  | [] => true
  | field :: rest => Filter.isPlainClause field && Filter.arePlain rest

/-- Whether a clause is plain: a combinator of plain documents, or a plain condition. -/
def Filter.isPlainClause : String × Json → Bool
  | (key, v) =>
      if key = "and" ∨ key = "or" then Filter.arePlainChildren v
      else if key = "not" then Filter.isPlain v
      else Condition.isPlain v

/-- Whether the documents under a combinator are plain. -/
def Filter.arePlainChildren : Json → Bool
  | .array items => Filter.arePlainItems items
  | .object fields => Filter.arePlain fields
  | _ => true

/-- Whether all documents of a list are plain. -/
def Filter.arePlainItems : List Json → Bool
  | [] => true
  | v :: rest => Filter.isPlain v && Filter.arePlainItems rest

/-- Whether the condition of a field is plain; a literal is. -/
def Condition.isPlain : Json → Bool
  | .object fields => Test.arePlain fields
  | _ => true

/-- Whether all tests of an object are plain. -/
def Test.arePlain : List (String × Json) → Bool
  | [] => true
  | field :: rest => Test.isPlain field && Test.arePlain rest

/--
Whether a test is plain: an operator, where elements are to pass a plain document, or a segment
with a plain condition.
-/
def Test.isPlain : String × Json → Bool
  | (key, operand) =>
      if key = "includes" then Filter.isPlain operand
      else if operatorNames.contains key then true
      else Segment.isPlainKey key && Condition.isPlain operand

end

/-! ## What a filter searches for, and where -/

mutual

/-- The texts that the filter searches for. -/
def Filter.texts : Filter → List String
  | .all clauses => Filter.textsOf clauses
  | .any clauses => Filter.textsOf clauses
  | .not clause => clause.texts
  | .field _ condition => condition.texts

/-- The texts that the filters of a list search for. -/
def Filter.textsOf : List Filter → List String
  | [] => []
  | f :: fs => f.texts ++ Filter.textsOf fs

/-- The texts that the condition searches for. -/
def Condition.texts : Condition → List String
  | .equals _ => []
  | .passes tests => Test.textsOf tests

/-- The texts that the tests of a list search for. -/
def Test.textsOf : List Test → List String
  | [] => []
  | t :: ts => t.texts ++ Test.textsOf ts

/-- The texts that the test searches for. -/
def Test.texts : Test → List String
  | .contains text => [text]
  | .beginsWith text => [text]
  | .includes member => member.texts
  | .under _ condition => condition.texts
  | _ => []

/-- The texts that are searched for in elements. -/
def Member.texts : Member → List String
  | .containing text => [text]
  | .equalTo _ => []
  | .satisfying filter => filter.texts

end

/-- Whether the value is an array. -/
def Json.isArray : Json → Bool
  | .array _ => true
  | _ => false

mutual

/-- Whether no value that the filter searches for a text, within it or at its start, is an array. -/
def Filter.sparesArrays : Filter → Json → Bool
  | .all clauses, v => Filter.allSpareArrays clauses v
  | .any clauses, v => Filter.allSpareArrays clauses v
  | .not clause, v => clause.sparesArrays v
  | .field path condition, v => condition.sparesArrays (path.resolve v)

/-- Whether no filter of the list searches an array for a text. -/
def Filter.allSpareArrays : List Filter → Json → Bool
  | [], _ => true
  | f :: fs, v => f.sparesArrays v && Filter.allSpareArrays fs v

/-- Whether the condition searches no array for a text, in what was found. -/
def Condition.sparesArrays : Condition → Option Json → Bool
  | .equals _, _ => true
  | .passes tests, found => Test.allSpareArrays tests found

/-- Whether no test of the list searches an array for a text. -/
def Test.allSpareArrays : List Test → Option Json → Bool
  | [], _ => true
  | t :: ts, found => t.sparesArrays found && Test.allSpareArrays ts found

/-- Whether the test searches no array for a text; a filter of elements is asked about each. -/
def Test.sparesArrays : Test → Option Json → Bool
  | .contains _, found => !found.any Json.isArray
  | .beginsWith _, found => !found.any Json.isArray
  | .includes member, found => found.all fun v => member.sparesArrays v
  | .under key condition, found => condition.sparesArrays (found.bind fun v => v.step key)
  | _, _ => true

/-- Whether no element of the value is searched for a text and is itself an array. -/
def Member.sparesArrays : Member → Json → Bool
  | .satisfying filter, .array items => items.all fun v => filter.sparesArrays v
  | _, _ => true

end

/-! ## Keys -/

/-- A plain key is a name. -/
theorem FieldPath.parse_of_isPlainKey {key : String} (h : Segment.isPlainKey key = true) :
    FieldPath.parse key = [.key key] := by
  simp only [Segment.isPlainKey, Bool.and_eq_true, bne_iff_ne, Bool.not_eq_true',
    ← Bool.not_eq_true, List.contains_iff_mem, List.isSuffixOf_iff_suffix] at h
  obtain ⟨⟨⟨hempty, -⟩, hdot⟩, hmark⟩ := h
  apply parse_of_isName
  exact { ne_nil := fun hnil => hempty (String.toList_eq_nil_iff.mp hnil)
          dot_not_mem := hdot
          not_marked := hmark }

theorem Segment.isPlainKey_not_combinator {key : String} (h : isPlainKey key = true) :
    key ≠ "and" ∧ key ≠ "or" ∧ key ≠ "not" := by
  simp only [isPlainKey, Bool.and_eq_true, Bool.not_eq_true', combinatorNames] at h
  simpa using h.1.1.2

/-! ## Operators -/

theorem Test.ofComparison?_of_not_operator {key : String}
    (h : operatorNames.contains key = false) (operand : Json) :
    Test.ofComparison? key operand = none ∧ key ≠ "contains" ∧ key ≠ "beginsWith" ∧
      key ≠ "includes" := by
  have hne : ∀ name ∈ operatorNames, key ≠ name := by
    rintro name hname rfl
    rw [List.contains_iff_mem.mpr hname] at h
    cases h
  refine ⟨?_, hne _ (by decide), hne _ (by decide), hne _ (by decide)⟩
  unfold Test.ofComparison?
  split <;> first | rfl | exact absurd rfl (hne _ (by decide))

/-- The operators that do not compare the value with their operand as it is. -/
theorem Test.key_of_ofComparison?_eq_none {key : String} {operand : Json}
    (hkey : operatorNames.contains key = true) (h : Test.ofComparison? key operand = none) :
    key = "contains" ∨ key = "beginsWith" ∨ key = "includes" := by
  have hmem : key ∈ operatorNames := List.contains_iff_mem.mp hkey
  simp only [operatorNames, List.mem_cons, List.not_mem_nil, or_false] at hmem
  rcases hmem with rfl | rfl | rfl | rfl | rfl | rfl | rfl | rfl | rfl | rfl | rfl | rfl | rfl |
    rfl
  case inr.inr.inr.inr.inr.inr.inl => cases operand <;> cases h
  all_goals first | decide | cases h

/-- A key that is no operator continues the path. -/
theorem Test.ofField_of_not_operator {key : String} (h : operatorNames.contains key = false)
    (operand : Json) : Test.ofField (key, operand) = .under key (Condition.ofJson operand) := by
  obtain ⟨hnone, hcontains, hbegins, hincludes⟩ := Test.ofComparison?_of_not_operator h operand
  rw [Test.ofField, hnone]
  simp only [if_neg hcontains, if_neg hbegins, if_neg hincludes]

theorem Test.ofExternalField_of_not_operator {key : String}
    (h : operatorNames.contains key = false) (operand : Json) :
    Test.ofExternalField (key, operand) = .under key (Condition.ofExternal operand) := by
  obtain ⟨hnone, hcontains, hbegins, hincludes⟩ := Test.ofComparison?_of_not_operator h operand
  rw [Test.ofExternalField_eq, hnone]
  simp only [if_neg hcontains, if_neg hbegins, if_neg hincludes]

/-! ## Searching for a text -/

open Pattern (Literal)

namespace Json

/-- A pattern asks the same as a test of strings if it matches the strings that pass. -/
theorem fits_eq {pattern : Pattern} {test : Json → Bool}
    (htest : ∀ v : Json, v.string? = none → test v = false)
    (h : ∀ s, pattern.isMatch s = test (.string s)) (v : Json) : v.fits pattern = test v := by
  cases v with
  | string s => exact h s
  | _ => exact (htest _ rfl).symm

theorem fits_substring {part : String} (h : Pattern.Literal part) (v : Json) :
    v.fits (.substring part) = v.hasText part :=
  fits_eq (hasText_eq_false part) h.substring v

theorem fits_startsWith {part : String} (h : Pattern.Literal part) (v : Json) :
    v.fits (.startsWith part) = v.startsWithText part :=
  fits_eq (startsWithText_eq_false part) h.startsWith v

/-- Only of an array, the elements are tried. -/
theorem selfOrElement_of_not_isArray {v : Json} (h : v.isArray = false) (test : Json → Bool) :
    v.selfOrElement test = test v := by
  cases v with
  | array items => cases h
  | _ => rfl

end Json

/-- Of what is no array, a pattern asks what the test that it was made from asks. -/
theorem Test.holds_fits_eq {pattern : Pattern} {test : Json → Bool} {found : Option Json}
    (hfits : ∀ v, v.fits pattern = test v) (harray : (!found.any Json.isArray) = true) :
    (Test.fits pattern).holds found = found.any test := by
  rw [Test.holds]
  cases found with
  | none => rfl
  | some v =>
      rw [Option.any_some, Option.any_some, Json.selfOrElement_of_not_isArray, hfits]
      simpa using harray

/-! ## Agreement -/

theorem FieldPath.resolve_concat_key (path : FieldPath) (key : String) (v : Json) :
    (path ++ [Segment.key key]).resolve v = (path.resolve v).bind fun w => w.step key := by
  rw [resolve_append]
  congr 1
  funext w
  unfold resolve
  cases w.step key <;> rfl

mutual

/-- A plain document accepts in both forms the same values. -/
theorem Filter.accepts_ofExternalAt (document v : Json) (hplain : Filter.isPlain document = true)
    (htexts : ∀ text ∈ (Filter.ofJson document).texts, Literal text)
    (hspares : (Filter.ofJson document).sparesArrays v = true) :
    (Filter.ofExternalAt [] document).accepts v = (Filter.ofJson document).accepts v := by
  cases document with
  | object fields => exact Filter.allAccept_ofExternalFields fields v hplain htexts hspares
  | _ => rfl
termination_by structural document

/-- The clauses of a plain document accept in both forms the same values. -/
theorem Filter.allAccept_ofExternalFields (fields : List (String × Json)) (v : Json)
    (hplain : Filter.arePlain fields = true)
    (htexts : ∀ text ∈ Filter.textsOf (Filter.ofFields fields), Literal text)
    (hspares : Filter.allSpareArrays (Filter.ofFields fields) v = true) :
    Filter.allAccept (Filter.ofExternalFields [] fields) v =
      Filter.allAccept (Filter.ofFields fields) v := by
  cases fields with
  | nil => rfl
  | cons field rest =>
      rw [Filter.arePlain, Bool.and_eq_true] at hplain
      rw [Filter.ofFields, Filter.textsOf, List.forall_mem_append] at htexts
      rw [Filter.ofFields, Filter.allSpareArrays, Bool.and_eq_true] at hspares
      rw [Filter.ofExternalFields, Filter.ofFields, Filter.allAccept, Filter.allAccept,
        Filter.accepts_ofExternalClause field v hplain.1 htexts.1 hspares.1,
        Filter.allAccept_ofExternalFields rest v hplain.2 htexts.2 hspares.2]
termination_by structural fields

/-- A plain clause accepts in both forms the same values. -/
theorem Filter.accepts_ofExternalClause (field : String × Json) (v : Json)
    (hplain : Filter.isPlainClause field = true)
    (htexts : ∀ text ∈ (Filter.ofField field).texts, Literal text)
    (hspares : (Filter.ofField field).sparesArrays v = true) :
    (Filter.ofExternalField [] field).accepts v = (Filter.ofField field).accepts v := by
  obtain ⟨key, w⟩ := field
  rw [Filter.isPlainClause] at hplain
  rw [Filter.ofField] at htexts hspares ⊢
  by_cases hand : key = "and"
  · subst hand
    exact (Filter.accept_externalChildren w v hplain htexts hspares).1
  by_cases hor : key = "or"
  · subst hor
    exact (Filter.accept_externalChildren w v hplain htexts hspares).2
  by_cases hnot : key = "not"
  · subst hnot
    exact congrArg not (Filter.accepts_ofExternalAt w v hplain htexts hspares)
  rw [if_neg (by simp [hand, hor]), if_neg hnot] at hplain
  rw [if_neg hand, if_neg hor, if_neg hnot] at htexts hspares ⊢
  exact Filter.accepts_ofExternalField key ⟨hand, hor, hnot⟩ [] w v hplain htexts hspares
termination_by structural field

/-- The plain documents under a combinator accept in both forms the same values. -/
theorem Filter.accept_externalChildren (w v : Json) (hplain : Filter.arePlainChildren w = true)
    (htexts : ∀ text ∈ Filter.textsOf (Filter.children w), Literal text)
    (hspares : Filter.allSpareArrays (Filter.children w) v = true) :
    Filter.allAccept (Filter.externalChildren [] w) v = Filter.allAccept (Filter.children w) v ∧
      Filter.anyAccepts (Filter.externalChildren [] w) v =
        Filter.anyAccepts (Filter.children w) v := by
  cases w with
  | array items => exact Filter.accept_externalItems items v hplain htexts hspares
  | object fields =>
      have hfields := Filter.allAccept_ofExternalFields fields v hplain
        (by simpa [Filter.children, Filter.textsOf, Filter.texts] using htexts)
        (by simpa [Filter.children, Filter.allSpareArrays, Filter.sparesArrays] using hspares)
      simp only [Filter.externalChildren, Filter.children, Filter.allAccept, Filter.anyAccepts,
        Filter.accepts, hfields, and_self]
  | _ => exact ⟨rfl, rfl⟩
termination_by structural w

/-- The plain documents of a list accept in both forms the same values. -/
theorem Filter.accept_externalItems (items : List Json) (v : Json)
    (hplain : Filter.arePlainItems items = true)
    (htexts : ∀ text ∈ Filter.textsOf (Filter.ofItems items), Literal text)
    (hspares : Filter.allSpareArrays (Filter.ofItems items) v = true) :
    Filter.allAccept (Filter.ofExternalItems [] items) v =
        Filter.allAccept (Filter.ofItems items) v ∧
      Filter.anyAccepts (Filter.ofExternalItems [] items) v =
        Filter.anyAccepts (Filter.ofItems items) v := by
  cases items with
  | nil => exact ⟨rfl, rfl⟩
  | cons w rest =>
      rw [Filter.arePlainItems, Bool.and_eq_true] at hplain
      rw [Filter.ofItems, Filter.textsOf, List.forall_mem_append] at htexts
      rw [Filter.ofItems, Filter.allSpareArrays, Bool.and_eq_true] at hspares
      have hfirst := Filter.accepts_ofExternalAt w v hplain.1 htexts.1 hspares.1
      obtain ⟨hall, hany⟩ := Filter.accept_externalItems rest v hplain.2 htexts.2 hspares.2
      simp only [Filter.ofExternalItems, Filter.ofItems, Filter.allAccept, Filter.anyAccepts,
        hfirst, hall, hany, and_self]
termination_by structural items

/--
The clause of a field under a path accepts a value if the condition of the field holds of what is
found at the joined path.
-/
theorem Filter.accepts_ofExternalField (key : String)
    (hkey : key ≠ "and" ∧ key ≠ "or" ∧ key ≠ "not") (path : FieldPath) (w v : Json)
    (hplain : Condition.isPlain w = true)
    (htexts : ∀ text ∈ (Condition.ofJson w).texts, Literal text)
    (hspares : (Condition.ofJson w).sparesArrays ((path ++ .parse key).resolve v) = true) :
    (Filter.ofExternalField path (key, w)).accepts v =
      (Condition.ofJson w).holds ((path ++ .parse key).resolve v) := by
  rw [Filter.ofExternalField_eq, if_neg hkey.1, if_neg hkey.2.1, if_neg hkey.2.2]
  cases w with
  | object fields =>
      cases hoperator : Fields.hasOperator fields with
      | true =>
          simp only [hoperator, if_true]
          exact Test.allHold_ofExternalFields fields _ hplain htexts hspares
      | false =>
          simp only [hoperator, Bool.false_eq_true, if_false]
          exact Filter.allAccept_below fields hoperator _ v hplain htexts hspares
  | _ => rfl
termination_by structural w

/--
Without operators among their keys, the clauses of fields under a path accept a value if the tests
that continue the path hold of what is found there.
-/
theorem Filter.allAccept_below (fields : List (String × Json))
    (hoperator : Fields.hasOperator fields = false) (path : FieldPath) (v : Json)
    (hplain : Test.arePlain fields = true)
    (htexts : ∀ text ∈ Test.textsOf (Test.ofFields fields), Literal text)
    (hspares : Test.allSpareArrays (Test.ofFields fields) (path.resolve v) = true) :
    Filter.allAccept (Filter.ofExternalFields path fields) v =
      Test.allHold (Test.ofFields fields) (path.resolve v) := by
  cases fields with
  | nil => rfl
  | cons field rest =>
      obtain ⟨key, w⟩ := field
      rw [Fields.hasOperator, List.any_cons, Bool.or_eq_false_iff] at hoperator
      obtain ⟨hkey, hrest⟩ := hoperator
      have hincludes := (Test.ofComparison?_of_not_operator hkey w).2.2.2
      rw [Test.arePlain, Test.isPlain, if_neg hincludes, if_neg (by simpa using hkey),
        Bool.and_eq_true, Bool.and_eq_true] at hplain
      obtain ⟨⟨hsegment, hcondition⟩, hothers⟩ := hplain
      have hpath : (path ++ .parse key).resolve v =
          (path.resolve v).bind fun u => u.step key := by
        rw [FieldPath.parse_of_isPlainKey hsegment, FieldPath.resolve_concat_key]
      rw [Test.ofFields, Test.ofField_of_not_operator hkey, Test.textsOf, Test.texts,
        List.forall_mem_append] at htexts
      rw [Test.ofFields, Test.ofField_of_not_operator hkey, Test.allSpareArrays,
        Test.sparesArrays, ← hpath, Bool.and_eq_true] at hspares
      rw [Filter.ofExternalFields, Filter.allAccept, Test.ofFields, Test.allHold,
        Test.ofField_of_not_operator hkey, Test.holds, ← hpath,
        Filter.accepts_ofExternalField key (Segment.isPlainKey_not_combinator hsegment) path w v
          hcondition htexts.1 hspares.1,
        Filter.allAccept_below rest hrest path v hothers htexts.2 hspares.2]
termination_by structural fields

/-- A plain condition below a key holds in both forms of the same. -/
theorem Condition.holds_ofExternal (operand : Json) (found : Option Json)
    (hplain : Condition.isPlain operand = true)
    (htexts : ∀ text ∈ (Condition.ofJson operand).texts, Literal text)
    (hspares : (Condition.ofJson operand).sparesArrays found = true) :
    (Condition.ofExternal operand).holds found = (Condition.ofJson operand).holds found := by
  cases operand with
  | object fields => exact Test.allHold_ofExternalFields fields found hplain htexts hspares
  | _ => rfl
termination_by structural operand

/-- The tests of a plain object of operators hold in both forms of the same. -/
theorem Test.allHold_ofExternalFields (fields : List (String × Json)) (found : Option Json)
    (hplain : Test.arePlain fields = true)
    (htexts : ∀ text ∈ Test.textsOf (Test.ofFields fields), Literal text)
    (hspares : Test.allSpareArrays (Test.ofFields fields) found = true) :
    Test.allHold (Test.ofExternalFields fields) found =
      Test.allHold (Test.ofFields fields) found := by
  cases fields with
  | nil => rfl
  | cons field rest =>
      rw [Test.arePlain, Bool.and_eq_true] at hplain
      rw [Test.ofFields, Test.textsOf, List.forall_mem_append] at htexts
      rw [Test.ofFields, Test.allSpareArrays, Bool.and_eq_true] at hspares
      rw [Test.ofExternalFields, Test.ofFields, Test.allHold, Test.allHold,
        Test.holds_ofExternalField field found hplain.1 htexts.1 hspares.1,
        Test.allHold_ofExternalFields rest found hplain.2 htexts.2 hspares.2]
termination_by structural fields

/-- A plain test holds in both forms of the same. -/
theorem Test.holds_ofExternalField (field : String × Json) (found : Option Json)
    (hplain : Test.isPlain field = true)
    (htexts : ∀ text ∈ (Test.ofField field).texts, Literal text)
    (hspares : (Test.ofField field).sparesArrays found = true) :
    (Test.ofExternalField field).holds found = (Test.ofField field).holds found := by
  obtain ⟨key, operand⟩ := field
  cases hkey : operatorNames.contains key with
  | false =>
      have hincludes := (Test.ofComparison?_of_not_operator hkey operand).2.2.2
      rw [Test.isPlain, if_neg hincludes, if_neg (by simpa using hkey), Bool.and_eq_true]
        at hplain
      rw [Test.ofField_of_not_operator hkey] at htexts hspares ⊢
      rw [Test.ofExternalField_of_not_operator hkey]
      exact Condition.holds_ofExternal operand _ hplain.2 htexts hspares
  | true =>
      cases hcomparison : Test.ofComparison? key operand with
      | some test => rw [Test.ofExternalField_eq, Test.ofField, hcomparison]
      | none =>
          -- what is left are the operators that search
          rcases Test.key_of_ofComparison?_eq_none hkey hcomparison with rfl | rfl | rfl
          · rw [Test.ofExternalField_eq]
            exact Test.holds_fits_eq (Json.fits_substring (htexts _ List.mem_cons_self)) hspares
          · rw [Test.ofExternalField_eq]
            exact Test.holds_fits_eq (Json.fits_startsWith (htexts _ List.mem_cons_self)) hspares
          · exact Test.holds_includes operand found hplain htexts hspares
termination_by structural field

/-- A search for elements finds in both forms the same. -/
theorem Test.holds_includes (operand : Json) (found : Option Json)
    (hplain : Filter.isPlain operand = true)
    (htexts : ∀ text ∈ (Member.ofJson operand).texts, Literal text)
    (hspares : (Test.includes (Member.ofJson operand)).sparesArrays found = true) :
    (Test.ofExternalField ("includes", operand)).holds found =
      (Test.ofField ("includes", operand)).holds found := by
  cases operand with
  | string text =>
      have hfits := Json.fits_substring (htexts text List.mem_cons_self)
      show (found.any fun v => v.selfOrElement fun w => w.fits (.substring text)) =
        found.any fun v => v.selfOrElement fun w => w.hasText text
      rw [funext hfits]
  | object fields =>
      show (found.any fun v =>
          (Member.satisfying (.all (Filter.ofExternalFields [] fields))).isIn v) =
        found.any fun v => (Member.satisfying (.all (Filter.ofFields fields))).isIn v
      rcases found with - | v
      · rfl
      cases v with
      | array items =>
          have hitems : ∀ w ∈ items, Filter.allSpareArrays (Filter.ofFields fields) w = true :=
            List.all_eq_true.mp hspares
          show (items.any fun w => Filter.allAccept (Filter.ofExternalFields [] fields) w) =
            items.any fun w => Filter.allAccept (Filter.ofFields fields) w
          rw [Bool.eq_iff_iff, List.any_eq_true, List.any_eq_true]
          refine exists_congr fun w => and_congr_right fun hw => ?_
          rw [Filter.allAccept_ofExternalFields fields w hplain htexts (hitems w hw)]
      | _ => rfl
  | _ => rfl
termination_by structural operand

end

/--
A plain document accepts in both forms the same values, as far as its texts are not too long for
a pattern and no value that is searched for one of them is an array.
-/
theorem Filter.accepts_ofExternal_of_isPlain (document v : Json)
    (hplain : Filter.isPlain document = true)
    (htexts : ∀ text ∈ (Filter.ofJson document).texts, Literal text)
    (hspares : (Filter.ofJson document).sparesArrays v = true) :
    (Filter.ofExternal document).accepts v = (Filter.ofJson document).accepts v :=
  Filter.accepts_ofExternalAt document v hplain htexts hspares

/-- A plain document with combinators, nested fields, an extended operator object and elements. -/
def Filter.plainDocument : Json :=
  .object [
    ("or", .array [
      .object [("customer", .object [("city", .object [("beginsWith", .string "Os")])]),
        ("tags", .object [("includes", .string "a+b")])],
      .object [("not", .object [("customer.city", .string "Oslo")])]]),
    ("lines", .object [("includes", .object [
      ("item", .object [("sku", .object [("contains", .string ".x")]), ("count", .ofInt 2)])])]),
    ("note", .object [("isDefined", .bool true), ("kind", .object [("in", .string "gift")])])]

/-- A value that both forms of the document accept. -/
def Filter.plainOrder : Json :=
  .object [
    ("customer", .object [("city", .string "Oslo")]),
    ("tags", .array [.string "c", .string "a+b+c"]),
    ("lines", .array [.object [("item", .object [("sku", .string "1.x"), ("count", .ofInt 2)])]]),
    ("note", .object [("kind", .string "gift")])]

theorem Filter.accepts_plainDocument :
    (Filter.ofExternal plainDocument).accepts plainOrder =
        (Filter.ofJson plainDocument).accepts plainOrder ∧
      (Filter.ofJson plainDocument).accepts plainOrder = true :=
  ⟨Filter.accepts_ofExternal_of_isPlain plainDocument plainOrder (by decide)
    (fun text htext => Pattern.literal_iff.mpr (by revert text; decide)) (by decide), by decide⟩

end Chronicle
