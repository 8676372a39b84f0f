import Chronicle.Filter.Evaluation
import Chronicle.Proofs.ValueEquality

set_option autoImplicit false

/-!
# Equal filters

Filters are equal as trees, where values are compared up to the order of keys and patterns by their
source. Each test asks the same of values that are alike, and a path finds alike values in them, so
equal filters agree about them. Main statement: a filter accepts a value if and only if every equal
filter accepts every value that is the same (`Filter.accepts_of_same`).
-/

namespace Chronicle

/-! ## Filters whose values repeat no key -/

mutual

/-- Whether no value in the filter repeats a key. -/
def Filter.hasDistinctKeys : Filter → Bool
  | .all clauses => Filter.haveDistinctKeys clauses
  | .any clauses => Filter.haveDistinctKeys clauses
  | .not clause => clause.hasDistinctKeys
  | .field _ condition => condition.hasDistinctKeys

/-- Whether no value in the filters of the list repeats a key. -/
def Filter.haveDistinctKeys : List Filter → Bool
  | [] => true
  | f :: fs => f.hasDistinctKeys && Filter.haveDistinctKeys fs

/-- Whether no value in the condition repeats a key. -/
def Condition.hasDistinctKeys : Condition → Bool
  | .equals v => v.hasDistinctKeys
  | .passes tests => Test.haveDistinctKeys tests

/-- Whether no value in the tests of the list repeats a key. -/
def Test.haveDistinctKeys : List Test → Bool
  | [] => true
  | t :: ts => t.hasDistinctKeys && Test.haveDistinctKeys ts

/-- Whether no value in the test repeats a key. -/
def Test.hasDistinctKeys : Test → Bool
  | .equal v => v.hasDistinctKeys
  | .differs v => v.hasDistinctKeys
  | .compares _ bound => bound.hasDistinctKeys
  | .oneOf values => Json.itemsHaveDistinctKeys values
  | .includes member => member.hasDistinctKeys
  | .under _ condition => condition.hasDistinctKeys
  | _ => true

/-- Whether no value in what elements must be repeats a key. -/
def Member.hasDistinctKeys : Member → Bool
  | .containing _ => true
  | .equalTo v => v.hasDistinctKeys
  | .satisfying filter => filter.hasDistinctKeys

end

/-! ## What is asked of alike values -/

namespace Json

variable {v w e e' : Json}

/-- Whether the value is a number. -/
def isNumber : Json → Bool
  | number _ => true
  | _ => false

theorem eq_number_of_isNumber (h : v.isNumber = true) : ∃ n, v = number n := by
  cases v with
  | number n => exact ⟨n, rfl⟩
  | _ => cases h

theorem isNumber_of_same (h : v.same w = true) : v.isNumber = w.isNumber := by
  cases v <;> cases w <;> first | rfl | cases h

theorem isNull_of_same (h : v.same w = true) : v.isNull = w.isNull := by
  cases v <;> cases w <;> first | rfl | cases h

/-- Unless both are numbers, filters compare values structurally. -/
theorem agrees_of_not_number (h : ¬(v.isNumber = true ∧ e.isNumber = true)) :
    v.agrees e = v.same e := by
  cases v <;> cases e <;> first | rfl | exact absurd ⟨rfl, rfl⟩ h

namespace Alike

/-- Filters compare alike values in the same way. -/
theorem agrees (hv : Alike v w) (he : Alike e e') : v.agrees e = w.agrees e' := by
  by_cases hnumbers : v.isNumber = true ∧ e.isNumber = true
  · -- the values that they are alike to are numbers too
    obtain ⟨m, rfl⟩ := eq_number_of_isNumber hnumbers.1
    obtain ⟨k, rfl⟩ := eq_number_of_isNumber hnumbers.2
    obtain ⟨n, rfl⟩ := eq_number_of_isNumber (isNumber_of_same hv.same).symm
    obtain ⟨l, rfl⟩ := eq_number_of_isNumber (isNumber_of_same he.same).symm
    show (m.compare k == .eq) = (n.compare l == .eq)
    rw [Number.compare_congr hv.same he.same]
  · have hnumbers' : ¬(w.isNumber = true ∧ e'.isNumber = true) := by
      rwa [← isNumber_of_same hv.same, ← isNumber_of_same he.same]
    rw [agrees_of_not_number hnumbers, agrees_of_not_number hnumbers', Bool.eq_iff_iff]
    constructor
    · intro h
      exact same_trans (same_symm hv.distinct hv.same) (same_trans h he.same)
    · intro h
      exact same_trans hv.same (same_trans h (same_symm he.distinct he.same))

end Alike

theorem order?_of_same (hv : v.same w = true) (he : e.same e' = true) :
    v.order? e = w.order? e' := by
  cases v <;> cases w <;> first | rfl | cases hv | skip
  case number.number m n =>
    cases e <;> cases e' <;> first | rfl | cases he | skip
    exact congrArg some (Number.compare_congr hv he)
  case string.string s t =>
    obtain rfl : s = t := beq_iff_eq.mp hv
    cases e <;> cases e' <;> first | rfl | cases he | skip
    case string.string s' t' =>
      obtain rfl : s' = t' := beq_iff_eq.mp he
      rfl
  case bool.bool p q =>
    obtain rfl : p = q := beq_iff_eq.mp hv
    cases e <;> cases e' <;> first | rfl | cases he | skip
    case bool.bool p' q' =>
      obtain rfl : p' = q' := beq_iff_eq.mp he
      rfl

/-- A test that only strings pass tells values apart no further than equality does. -/
theorem test_of_same {test : Json → Bool}
    (htest : ∀ u : Json, u.string? = none → test u = false) (h : v.same w = true) :
    test v = test w := by
  cases v <;> cases w <;> simp only [same, beq_iff_eq, Bool.false_eq_true] at h
  case string.string s t => rw [h]
  all_goals exact (htest _ rfl).trans (htest _ rfl).symm

theorem hasText_of_same (text : String) (h : v.same w = true) : v.hasText text = w.hasText text :=
  test_of_same (hasText_eq_false text) h

theorem startsWithText_of_same (text : String) (h : v.same w = true) :
    v.startsWithText text = w.startsWithText text :=
  test_of_same (startsWithText_eq_false text) h

theorem fits_of_same (pattern : Pattern) (h : v.same w = true) : v.fits pattern = w.fits pattern :=
  test_of_same (fits_eq_false pattern) h

/-! ## Tests of items and of what was found -/

variable {test test' : Json → Bool}

/-- Of alike lists, both or none have an item that passes. -/
theorem any_of_forall₂ {as bs : List Json} (h : List.Forall₂ Alike as bs)
    (htest : ∀ a b, Alike a b → test a = test' b) : as.any test = bs.any test' := by
  induction h with
  | nil => rfl
  | cons hab _ ih => rw [List.any_cons, List.any_cons, htest _ _ hab, ih]

/-- Of what was found in alike values, both or none pass. -/
theorem any_of_rel {found found' : Option Json} (h : Option.Rel Alike found found')
    (htest : ∀ a b, Alike a b → test a = test' b) : found.any test = found'.any test' := by
  cases h with
  | none => rfl
  | some hab => exact htest _ _ hab

theorem Alike.selfOrElement (h : Alike v w) (htest : ∀ a b, Alike a b → test a = test' b) :
    v.selfOrElement test = w.selfOrElement test' := by
  cases v
  case array as =>
    cases w with
    | array bs => exact any_of_forall₂ h.items htest
    | _ => cases h.same
  all_goals
    cases w <;> first | exact htest _ _ h | cases h.same

end Json

/-! ## Equal filters agree -/

open Json (Alike)

mutual

/-- Equal filters accept alike values, or neither does. -/
theorem Filter.accepts_of_alike (f g : Filter) (hf : f.hasDistinctKeys = true)
    (hfg : f.same g = true) (v w : Json) (h : Alike v w) : f.accepts v = g.accepts w := by
  cases f with
  | all fs =>
      cases g <;> simp only [Filter.same, Bool.false_eq_true] at hfg
      case all gs => exact (Filter.accept_of_alike fs gs hf hfg v w h).1
  | any fs =>
      cases g <;> simp only [Filter.same, Bool.false_eq_true] at hfg
      case any gs => exact (Filter.accept_of_alike fs gs hf hfg v w h).2
  | not f =>
      cases g <;> simp only [Filter.same, Bool.false_eq_true] at hfg
      case not g => exact congrArg not (Filter.accepts_of_alike f g hf hfg v w h)
  | field path condition =>
      cases g <;> simp only [Filter.same, Bool.and_eq_true, beq_iff_eq, Bool.false_eq_true] at hfg
      case field path' condition' =>
        obtain ⟨rfl, hcondition⟩ := hfg
        exact Condition.holds_of_alike condition condition' hf hcondition _ _ (h.resolve path)
termination_by structural f

/-- All filters of a list accept a value, or some of them, as those of an equal list do. -/
theorem Filter.accept_of_alike (fs gs : List Filter) (hf : Filter.haveDistinctKeys fs = true)
    (hfg : Filter.sameList fs gs = true) (v w : Json) (h : Alike v w) :
    Filter.allAccept fs v = Filter.allAccept gs w ∧
      Filter.anyAccepts fs v = Filter.anyAccepts gs w := by
  cases fs with
  | nil =>
      cases gs <;> simp only [Filter.sameList, Bool.false_eq_true] at hfg
      exact ⟨rfl, rfl⟩
  | cons f fs =>
      cases gs <;> simp only [Filter.sameList, Bool.and_eq_true, Bool.false_eq_true] at hfg
      case cons g gs =>
        obtain ⟨hf, hfs⟩ := Bool.and_eq_true_iff.mp hf
        have hfirst := Filter.accepts_of_alike f g hf hfg.1 v w h
        obtain ⟨hall, hany⟩ := Filter.accept_of_alike fs gs hfs hfg.2 v w h
        simp only [Filter.allAccept, Filter.anyAccepts, hfirst, hall, hany, and_self]
termination_by structural fs

/-- Equal conditions hold of what was found in alike values, or neither does. -/
theorem Condition.holds_of_alike (c d : Condition) (hc : c.hasDistinctKeys = true)
    (hcd : c.same d = true) (found found' : Option Json) (h : Option.Rel Alike found found') :
    c.holds found = d.holds found' := by
  cases c with
  | equals expected =>
      cases d <;> simp only [Condition.same, Bool.false_eq_true] at hcd
      case equals expected' => exact Json.any_of_rel h fun a b hab => hab.agrees ⟨hc, hcd⟩
  | passes tests =>
      cases d <;> simp only [Condition.same, Bool.false_eq_true] at hcd
      case passes tests' => exact Test.allHold_of_alike tests tests' hc hcd found found' h
termination_by structural c

/-- The tests of equal lists all hold of what was found in alike values, or not all of either. -/
theorem Test.allHold_of_alike (ts us : List Test) (ht : Test.haveDistinctKeys ts = true)
    (htu : Test.sameList ts us = true) (found found' : Option Json)
    (h : Option.Rel Alike found found') : Test.allHold ts found = Test.allHold us found' := by
  cases ts with
  | nil =>
      cases us <;> simp only [Test.sameList, Bool.false_eq_true] at htu
      rfl
  | cons t ts =>
      cases us <;> simp only [Test.sameList, Bool.and_eq_true, Bool.false_eq_true] at htu
      case cons u us =>
        obtain ⟨ht, hts⟩ := Bool.and_eq_true_iff.mp ht
        rw [Test.allHold, Test.allHold, Test.holds_of_alike t u ht htu.1 found found' h,
          Test.allHold_of_alike ts us hts htu.2 found found' h]
termination_by structural ts

/-- Equal tests hold of what was found in alike values, or neither does. -/
theorem Test.holds_of_alike (t u : Test) (ht : t.hasDistinctKeys = true) (htu : t.same u = true)
    (found found' : Option Json) (h : Option.Rel Alike found found') :
    t.holds found = u.holds found' := by
  cases t with
  | equal expected =>
      cases u <;> simp only [Test.same, Bool.false_eq_true] at htu
      case equal expected' => exact Json.any_of_rel h fun a b hab => hab.agrees ⟨ht, htu⟩
  | differs expected =>
      cases u <;> simp only [Test.same, Bool.false_eq_true] at htu
      case differs expected' =>
        exact congrArg not (Json.any_of_rel h fun a b hab => hab.agrees ⟨ht, htu⟩)
  | compares relation bound =>
      cases u <;> simp only [Test.same, Bool.and_eq_true, beq_iff_eq, Bool.false_eq_true] at htu
      case compares relation' bound' =>
        obtain ⟨rfl, hbound⟩ := htu
        cases h with
        | none => rfl
        | some hab =>
            exact congrArg (Option.any relation.holds) (Json.order?_of_same hab.same hbound)
  | oneOf values =>
      cases u <;> simp only [Test.same, Bool.false_eq_true] at htu
      case oneOf values' =>
        have hvalues : Alike (.array values) (.array values') := ⟨ht, htu⟩
        refine Json.any_of_rel h fun a b hab => ?_
        exact Json.any_of_forall₂ hvalues.items fun c d hcd => hab.agrees hcd
  | defined expected =>
      cases u <;> simp only [Test.same, beq_iff_eq, Bool.false_eq_true] at htu
      case defined expected' =>
        subst htu
        have hnull := Json.any_of_rel h fun a b hab =>
          congrArg not (Json.isNull_of_same hab.same)
        exact congrArg (· == expected) hnull
  | contains text =>
      cases u <;> simp only [Test.same, beq_iff_eq, Bool.false_eq_true] at htu
      case contains text' =>
        subst htu
        exact Json.any_of_rel h fun a b hab => Json.hasText_of_same text hab.same
  | beginsWith text =>
      cases u <;> simp only [Test.same, beq_iff_eq, Bool.false_eq_true] at htu
      case beginsWith text' =>
        subst htu
        exact Json.any_of_rel h fun a b hab => Json.startsWithText_of_same text hab.same
  | fits pattern =>
      cases u <;> simp only [Test.same, beq_iff_eq, Bool.false_eq_true] at htu
      case fits pattern' =>
        subst htu
        refine Json.any_of_rel h fun a b hab => ?_
        exact hab.selfOrElement fun c d hcd => Json.fits_of_same pattern hcd.same
  | includes member =>
      cases u <;> simp only [Test.same, Bool.false_eq_true] at htu
      case includes member' =>
        exact Json.any_of_rel h fun a b hab => Member.isIn_of_alike member member' ht htu a b hab
  | under key condition =>
      cases u <;> simp only [Test.same, Bool.and_eq_true, beq_iff_eq, Bool.false_eq_true] at htu
      case under key' condition' =>
        obtain ⟨rfl, hcondition⟩ := htu
        refine Condition.holds_of_alike condition condition' ht hcondition _ _ ?_
        cases h with
        | none => exact .none
        | some hab => exact hab.step key
termination_by structural t

/-- Alike values have elements that are as asked for, or neither has. -/
theorem Member.isIn_of_alike (m n : Member) (hm : m.hasDistinctKeys = true)
    (hmn : m.same n = true) (v w : Json) (h : Alike v w) : m.isIn v = n.isIn w := by
  cases m with
  | containing text =>
      cases n <;> simp only [Member.same, beq_iff_eq, Bool.false_eq_true] at hmn
      case containing text' =>
        subst hmn
        exact h.selfOrElement fun a b hab => Json.hasText_of_same text hab.same
  | equalTo expected =>
      cases n <;> simp only [Member.same, Bool.false_eq_true] at hmn
      case equalTo expected' =>
        cases v <;> cases w <;> first | rfl | cases h.same | skip
        exact Json.any_of_forall₂ h.items fun a b hab => hab.agrees ⟨hm, hmn⟩
  | satisfying f =>
      cases n <;> simp only [Member.same, Bool.false_eq_true] at hmn
      case satisfying g =>
        cases v <;> cases w <;> first | rfl | cases h.same | skip
        exact Json.any_of_forall₂ h.items fun a b hab =>
          Filter.accepts_of_alike f g hm hmn a b hab
termination_by structural m

end

/--
Equal filters agree about values that are the same: neither the order of keys, in the value or in
what it is compared with, nor the sign of a zero decides.
-/
theorem Filter.accepts_of_same (f g : Filter) (v w : Json) (hf : f.hasDistinctKeys = true)
    (hv : v.hasDistinctKeys = true) (hfg : f.same g = true) (hvw : v.same w = true) :
    f.accepts v = g.accepts w :=
  Filter.accepts_of_alike f g hf hfg v w ⟨hv, hvw⟩

namespace Filter

/-- The size of a parcel, its keys in the other order if it is turned. -/
def parcelSize (turned : Bool) : Json :=
  if turned then .object [("width", .ofInt 3), ("height", .ofInt 2)]
  else .object [("height", .ofInt 2), ("width", .ofInt 3)]

/-- A weight of zero, negative if the parcel is turned. -/
def parcelWeight (turned : Bool) : Json := .number (.float ⟨turned, 0⟩)

/-- The filter for orders whose parcels are all of the size, and the first not lighter than zero. -/
def parcelFilter (turned : Bool) : Filter :=
  .not (.any [
    .field [.key "parcels"] (.passes [.includes (.satisfying
      (.field [.key "size"] (.passes [.differs (parcelSize turned)])))]),
    .field [.key "parcels", .each, .key "0", .key "weight"] (.passes [
      .compares .less (parcelWeight turned)])])

/-- An order of one parcel. -/
def parcelOrder (turned : Bool) : Json :=
  .object [("parcels", .array [.object
    [("size", parcelSize turned), ("weight", parcelWeight turned)]])]

theorem accepts_of_same_parcels :
    (parcelFilter false).accepts (parcelOrder true) =
        (parcelFilter true).accepts (parcelOrder false) ∧
      (parcelFilter false).accepts (parcelOrder true) = true := by
  have hfilters : (parcelFilter false).same (parcelFilter true) = true := by decide +kernel
  have hvalues : (parcelOrder true).same (parcelOrder false) = true := by decide
  exact ⟨accepts_of_same _ _ _ _ (by decide) (by decide) hfilters hvalues, by decide⟩

end Filter

end Chronicle
