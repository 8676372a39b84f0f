import Chronicle.Proofs.FilterEquality
import Chronicle.ReadModel.Query

set_option autoImplicit false

/-!
# Integers written as floats

An integer and the float of its value are two spellings of one number. Filters and the order of
values see through the spelling of a number, and the order also through that of numbers in an
array; filters compare what arrays and objects hold structurally, and so keep the spellings there
apart. Main statement: all ways to ask for equality judge alike, and of two values that differ in
such spellings they find those equal that are numbers or do not differ at all
(`Json.judged_of_respelled`).
-/

namespace Chronicle

/-! ## Numbers -/

/-- One number, or an integer and the float of its value. -/
inductive Number.Respelled : Number → Number → Prop
  | refl (n : Number) : Respelled n n
  | toFloat {n : Int} {x : Binary64} (hx : x.Representable) (h : x.value = n * Binary64.one) :
      Respelled (int n) (float x)
  | toInt {n : Int} {x : Binary64} (hx : x.Representable) (h : x.value = n * Binary64.one) :
      Respelled (float x) (int n)

namespace Number.Respelled

variable {a b : Number}

/-- Numbers are compared by value, however they are spelled. -/
theorem compare_eq (h : Respelled a b) : a.compare b = .eq := by
  cases h with
  | refl => exact compare_self a
  | toFloat hx h =>
      rw [compare_float]
      exact compare_eq_iff_eq.mpr (Binary64.value_ofInt_of_representable hx h)
  | toInt hx h =>
      rw [float_compare]
      exact compare_eq_iff_eq.mpr (Binary64.value_ofInt_of_representable hx h).symm

theorem eq_of_same (h : Respelled a b) (hsame : a.same b = true) : a = b := by
  cases h with
  | refl => rfl
  | toFloat => cases hsame
  | toInt => cases hsame

end Number.Respelled

namespace Json

variable {a b v w : Json}

/-! ## Values -/

/-- The values differ in the spelling of numbers at most, at whatever depth. -/
inductive Respelled : Json → Json → Prop
  | null : Respelled null null
  | bool (p : Bool) : Respelled (bool p) (bool p)
  | number {m n : Number} (h : m.Respelled n) : Respelled (number m) (number n)
  | string (text : String) : Respelled (string text) (string text)
  | array {as bs : List Json} (h : List.Forall₂ Respelled as bs) :
      Respelled (array as) (array bs)
  | object {as bs : Fields} (hkeys : Fields.keys as = Fields.keys bs)
      (h : List.Forall₂ Respelled (as.map Prod.snd) (bs.map Prod.snd)) :
      Respelled (object as) (object bs)

mutual

/-- Whether there is no object in the value. -/
def isObjectFree : Json → Bool
  | array items => areObjectFree items
  | object _ => false
  | _ => true

/-- Whether there is no object in any of the items. -/
def areObjectFree : List Json → Bool
  | [] => true
  | v :: rest => isObjectFree v && areObjectFree rest

end

theorem areObjectFree_iff {items : List Json} :
    areObjectFree items = true ↔ ∀ v ∈ items, v.isObjectFree = true := by
  induction items with
  | nil => simp [areObjectFree]
  | cons v rest ih => rw [areObjectFree, Bool.and_eq_true, List.forall_mem_cons, ih]

/-- With the keys in one order, the values of objects that are the same are so pairwise. -/
theorem values_of_same_object {as bs : Fields} (hkeys : Fields.keys as = Fields.keys bs)
    (hdistinct : (Fields.keys as).Nodup) (h : (object as).same (object bs) = true) :
    List.Forall₂ (fun a b => a.same b = true) (as.map Prod.snd) (bs.map Prod.snd) := by
  obtain ⟨hlength, hwithin⟩ := same_object_iff.mp h
  rw [List.forall₂_map_left_iff, List.forall₂_map_right_iff]
  refine List.forall₂_iff_get.mpr ⟨hlength, ?_⟩
  intro i hi hj
  obtain ⟨b, hb, hsame⟩ := hwithin _ (List.get_mem as ⟨i, hi⟩)
  -- the key stands at one place in both, and in the second object nowhere else
  have hkey : (as.get ⟨i, hi⟩).1 = (bs.get ⟨i, hj⟩).1 := by
    have hat := congrArg (fun keys : List String => keys[i]?) hkeys
    simpa [Fields.keys, hi, hj] using hat
  rw [hkey, get?_of_mem (hkeys ▸ hdistinct) (List.get_mem bs ⟨i, hj⟩)] at hb
  obtain rfl := Option.some.inj hb
  exact hsame

theorem compareItems_eq {as bs : List Json}
    (h : List.Forall₂ (fun a b => a.compare b = .eq) as bs) : compareItems as bs = .eq := by
  induction h with
  | nil => rfl
  | cons hab _ ih =>
      rw [compareItems, hab, ih]
      rfl

namespace Respelled

/-- Items of which each is equal to its counterpart if it is the same. -/
theorem items_eq {as bs : List Json} (h : List.Forall₂ Respelled as bs)
    (hsame : List.Forall₂ (fun a b => a.same b = true) as bs)
    (heq : ∀ a ∈ as, ∀ b, Respelled a b → a.same b = true → a = b) : as = bs := by
  induction h with
  | nil => rfl
  | cons hab _ ih =>
      obtain ⟨hfirst, hrest⟩ := List.forall₂_cons.mp hsame
      obtain ⟨heqfirst, heqrest⟩ := List.forall_mem_cons.mp heq
      rw [heqfirst _ hab hfirst, ih hrest heqrest]

/-- Structural equality keeps the spellings apart. -/
theorem eq_of_same (h : Respelled a b) (ha : a.hasDistinctKeys = true)
    (hsame : a.same b = true) : a = b := by
  induction a using ind generalizing b with
  | null | bool | string =>
      cases h
      rfl
  | number m =>
      cases h with
      | number h => rw [h.eq_of_same hsame]
  | array as ih =>
      cases h with
      | array h =>
          have hitems := hasDistinctKeys_array.mp ha
          apply congrArg Json.array
          apply items_eq h (sameItems_iff.mp hsame)
          intro a hmem b hab
          exact ih a hmem hab (hitems a hmem)
  | object as ih =>
      cases h with
      | @object _ bs hkeys h =>
          obtain ⟨hdistinct, hfields⟩ := hasDistinctKeys_object.mp ha
          have hvalues : as.map Prod.snd = bs.map Prod.snd := by
            apply items_eq h (values_of_same_object hkeys hdistinct hsame)
            intro a hmem b hab
            obtain ⟨e, he, rfl⟩ := List.mem_map.mp hmem
            exact ih e he hab (hfields e he)
          apply congrArg Json.object
          exact (List.zip_of_prod hkeys hvalues).trans (List.zip_of_prod rfl rfl).symm

/-- The order of values looks through the spelling, unless it compares objects by their texts. -/
theorem compare_eq (h : Respelled a b) (ha : a.isObjectFree = true) : a.compare b = .eq := by
  induction a using ind generalizing b with
  | object => cases ha
  | null | bool | string =>
      cases h
      exact compare_self _
  | number m =>
      cases h with
      | number h => exact h.compare_eq
  | array as ih =>
      cases h with
      | array h =>
          obtain ⟨hlength, hitems⟩ := List.forall₂_iff_get.mp h
          refine compareItems_eq (List.forall₂_iff_get.mpr ⟨hlength, ?_⟩)
          intro i hi hj
          have hmem := List.get_mem as ⟨i, hi⟩
          exact ih _ hmem (hitems i hi hj) (areObjectFree_iff.mp ha _ hmem)

/-- Filters look through the spelling of a number, and through no other. -/
theorem agrees_iff (h : Respelled a b) (ha : a.hasDistinctKeys = true) :
    a.agrees b = true ↔ a = b ∨ a.isNumber = true := by
  by_cases hnumber : a.isNumber = true
  · obtain ⟨m, rfl⟩ := eq_number_of_isNumber hnumber
    cases h with
    | number h => exact iff_of_true (beq_iff_eq.mpr h.compare_eq) (Or.inr hnumber)
  · rw [agrees_of_not_number fun hboth => hnumber hboth.1]
    constructor
    · intro hsame
      exact Or.inl (h.eq_of_same ha hsame)
    · rintro (rfl | hisNumber)
      · exact same_self ha
      · exact absurd hisNumber hnumber

end Respelled

/-! ## The ways to ask for equality -/

/-- The verdict that every way to ask for equality has on a value and the one it is compared
with. -/
structure JudgedAs (a b : Json) (verdict : Bool) : Prop where
  equal : (Test.equal b).holds (some a) = verdict
  literal : (Condition.equals b).holds (some a) = verdict
  /-- As one of several values that are allowed. -/
  oneOf : ∀ before after : List Json, (Test.oneOf (before ++ b :: after)).holds (some a) =
    (verdict || (Test.oneOf (before ++ after)).holds (some a))
  /-- As one of several elements. -/
  element : ∀ before after : List Json,
    (Test.includes (.equalTo b)).holds (some (.array (before ++ a :: after))) =
      (verdict || (Test.includes (.equalTo b)).holds (some (.array (before ++ after))))
  /-- As a value that a query asks for. -/
  queried : ∀ (path : FieldPath) (m : ReadModel), path.resolve m.value = some a →
    ({ valueEquals := [(path, b)] } : ReadModelQuery).matchesReadModel m = verdict

theorem any_insert {α : Type} (test : α → Bool) (before after : List α) (x : α) :
    (before ++ x :: after).any test = (test x || (before ++ after).any test) := by
  rw [List.any_append, List.any_cons, List.any_append, Bool.or_left_comm]

/-- There is one equality behind all ways to ask for it. -/
theorem judgedAs_agrees (a b : Json) : JudgedAs a b (a.agrees b) where
  equal := rfl
  literal := rfl
  oneOf before after := any_insert _ before after b
  element before after := any_insert _ before after a
  queried path m h := by simp [ReadModelQuery.matchesReadModel, h]

/--
All ways to ask for equality judge alike. Of two values that differ in the spelling of numbers they
find those equal that are numbers or do not differ at all, while the order of values finds them
equal wherever there is no object.
-/
theorem judged_of_respelled (h : Respelled a b) (ha : a.hasDistinctKeys = true) :
    JudgedAs a b (a.agrees b) ∧ (a.agrees b = true ↔ a = b ∨ a.isNumber = true) ∧
      (a.isObjectFree = true → a.compare b = .eq) :=
  ⟨judgedAs_agrees a b, h.agrees_iff ha, h.compare_eq⟩

/-- The number as a float. -/
def threeAsFloat : Json := number (.float (Binary64.ofInt 3))

theorem respelled_three : Respelled (ofInt 3) threeAsFloat :=
  .number (.toFloat ⟨by decide +kernel, by decide +kernel⟩ (by decide +kernel))

/-- A number is found equal to its other spelling by itself, but not within arrays, where only the
order of values sees through the spelling. -/
theorem judged_of_respelled_three :
    JudgedAs (ofInt 3) threeAsFloat true ∧
      JudgedAs (array [null, array [ofInt 3]]) (array [null, array [threeAsFloat]]) false ∧
      (array [null, array [ofInt 3]]).compare (array [null, array [threeAsFloat]]) = .eq := by
  have hnested : Respelled (array [null, array [ofInt 3]]) (array [null, array [threeAsFloat]]) :=
    .array (.cons .null (.cons (.array (.cons respelled_three .nil)) .nil))
  obtain ⟨hsingle, hagrees, -⟩ := judged_of_respelled respelled_three rfl
  obtain ⟨hwithin, -, hcompare⟩ := judged_of_respelled hnested rfl
  rw [hagrees.mpr (Or.inr rfl)] at hsingle
  exact ⟨hsingle, hwithin, hcompare rfl⟩

/-- In an array, a number is not found equal to its other spelling. -/
theorem not_judged_equal_of_respelled :
    ¬∀ a b : Json, Respelled a b → a.hasDistinctKeys = true → JudgedAs a b true := by
  intro h
  have hspelled : Respelled (array [ofInt 3]) (array [threeAsFloat]) :=
    .array (.cons respelled_three .nil)
  have hequal := (h _ _ hspelled rfl).equal
  cases hequal

end Json

end Chronicle
