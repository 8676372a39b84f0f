import Chronicle.Proofs.Fragments
import Chronicle.Proofs.ValueOrder
import Mathlib.Data.List.Forall2
import Mathlib.Data.List.Perm.Basic

set_option autoImplicit false

/-!
# Equality of values

Values are the same if they differ in the order of keys at most; integers and floats are kept
apart, and the two zeros among the floats are one number. Main statements: for values that repeat
no key this is an equivalence (`Json.same_self`, `Json.same_symm`, `Json.same_trans`), and a path
finds nothing or the same in values that are the same (`Json.Alike.resolve`).
-/

namespace Chronicle

/-! ## Numbers -/

namespace Number

variable {a b c d : Number}

/-- Numbers are the same if they are one integer, or floats of one value. -/
theorem same_iff : a.same b = true ↔
    (∃ n, a = int n ∧ b = int n) ∨ ∃ x y, a = float x ∧ b = float y ∧ x.value = y.value := by
  cases a with
  | int m =>
      cases b with
      | int n =>
          rw [same, beq_iff_eq]
          constructor
          · rintro rfl
            exact Or.inl ⟨m, rfl, rfl⟩
          · rintro (⟨k, ⟨⟩, ⟨⟩⟩ | ⟨x, y, ⟨⟩, -⟩)
            rfl
      | float y => simp [same]
  | float x =>
      cases b with
      | int n => simp [same]
      | float y => simp [same, Binary64.compare]

theorem same_symm (h : a.same b = true) : b.same a = true := by
  rw [same_iff] at h ⊢
  rcases h with ⟨n, rfl, rfl⟩ | ⟨x, y, rfl, rfl, hxy⟩
  · exact Or.inl ⟨n, rfl, rfl⟩
  · exact Or.inr ⟨y, x, rfl, rfl, hxy.symm⟩

theorem same_trans (hab : a.same b = true) (hbc : b.same c = true) : a.same c = true := by
  rw [same_iff] at hab hbc
  rcases hab with ⟨n, rfl, rfl⟩ | ⟨x, y, rfl, rfl, hxy⟩
  · exact same_iff.mpr hbc
  · rcases hbc with ⟨n, ⟨⟩, -⟩ | ⟨y, z, ⟨⟩, rfl, hyz⟩
    exact same_iff.mpr (Or.inr ⟨x, z, rfl, rfl, hxy.trans hyz⟩)

/-- Numbers that are the same compare in the same way. -/
theorem compare_congr (hab : a.same b = true) (hcd : c.same d = true) :
    a.compare c = b.compare d := by
  rcases same_iff.mp hab with ⟨m, rfl, rfl⟩ | ⟨x, y, rfl, rfl, hxy⟩
  · rcases same_iff.mp hcd with ⟨n, rfl, rfl⟩ | ⟨z, w, rfl, rfl, hzw⟩
    · rfl
    · rw [compare_float, compare_float, hzw]
  · have hvalue : c.toBinary64.value = d.toBinary64.value := by
      rcases same_iff.mp hcd with ⟨n, rfl, rfl⟩ | ⟨z, w, rfl, rfl, hzw⟩
      · rfl
      · exact hzw
    rw [float_compare, float_compare, hxy, hvalue]

end Number

namespace Json

variable {a b c v w : Json}

/-- Induction over values: an array or an object comes after all that is in it. -/
@[elab_as_elim]
theorem ind {motive : Json → Prop} (null : motive null) (bool : ∀ p, motive (bool p))
    (number : ∀ n, motive (number n)) (string : ∀ text, motive (string text))
    (array : ∀ items, (∀ v ∈ items, motive v) → motive (array items))
    (object : ∀ fields, (∀ e ∈ fields, motive e.2) → motive (object fields)) (v : Json) :
    motive v := by
  -- the lists of items and of fields have motives of their own
  refine @Json.rec motive (fun items => ∀ v ∈ items, motive v)
    (fun fields => ∀ e ∈ fields, motive e.2) (fun e => motive e.2)
    null bool number string array object ?_ ?_ ?_ ?_ ?_ v
  · exact List.forall_mem_nil _
  · exact fun _ _ hv hrest => List.forall_mem_cons.mpr ⟨hv, hrest⟩
  · exact List.forall_mem_nil _
  · exact fun _ _ he hrest => List.forall_mem_cons.mpr ⟨he, hrest⟩
  · exact fun _ _ hv => hv

/-! ## Items and fields -/

theorem sameItems_iff {as bs : List Json} :
    sameItems as bs = true ↔ List.Forall₂ (fun a b => a.same b = true) as bs := by
  induction as generalizing bs with
  | nil =>
      cases bs with
      | nil => simp [sameItems]
      | cons b bs => exact iff_of_false Bool.false_ne_true (by rintro ⟨⟩)
  | cons a as ih =>
      cases bs with
      | nil => exact iff_of_false Bool.false_ne_true (by rintro ⟨⟩)
      | cons b bs => rw [sameItems, Bool.and_eq_true, List.forall₂_cons, ih]

theorem fieldsWithin_iff {as bs : Fields} :
    fieldsWithin as bs = true ↔
      ∀ e ∈ as, ∃ b, Fields.get? e.1 bs = some b ∧ e.2.same b = true := by
  induction as with
  | nil => simp [fieldsWithin]
  | cons e as ih =>
      obtain ⟨key, a⟩ := e
      rw [fieldsWithin, Bool.and_eq_true, ih, List.forall_mem_cons]
      cases Fields.get? key bs <;> simp

theorem same_object_iff {as bs : Fields} :
    (object as).same (object bs) = true ↔
      as.length = bs.length ∧ ∀ e ∈ as, ∃ b, Fields.get? e.1 bs = some b ∧ e.2.same b = true := by
  rw [same, Bool.and_eq_true, beq_iff_eq, fieldsWithin_iff]

/-- A key that is not repeated leads to the value that stands with it. -/
theorem get?_of_mem {fields : Fields} (hkeys : (Fields.keys fields).Nodup) {e : String × Json}
    (he : e ∈ fields) : Fields.get? e.1 fields = some e.2 := by
  induction fields with
  | nil => cases he
  | cons d rest ih =>
      obtain ⟨key, v⟩ := d
      rw [Fields.keys_cons, List.nodup_cons] at hkeys
      rw [Fields.get?]
      rcases List.mem_cons.mp he with rfl | hrest
      · exact if_pos rfl
      · rw [if_neg, ih hkeys.2 hrest]
        rintro rfl
        exact hkeys.1 (List.mem_map_of_mem hrest)

/-- Objects that are the same have the same keys, in whatever order. -/
theorem keys_perm_of_same {as bs : Fields} (hkeys : (Fields.keys as).Nodup)
    (h : (object as).same (object bs) = true) : (Fields.keys as).Perm (Fields.keys bs) := by
  obtain ⟨hlength, hwithin⟩ := same_object_iff.mp h
  have hsub : Fields.keys as ⊆ Fields.keys bs := by
    intro key hkey
    obtain ⟨e, he, rfl⟩ := List.mem_map.mp hkey
    obtain ⟨b, hb, -⟩ := hwithin e he
    rw [← Fields.get?_isSome_iff, hb]
    rfl
  -- there are as many keys, and those of the first object are all different
  refine (List.subperm_of_subset hkeys hsub).perm_of_length_le ?_
  rw [Fields.keys, Fields.keys, List.length_map, List.length_map, hlength]

/-! ## An equivalence -/

theorem same_self (h : a.hasDistinctKeys = true) : a.same a = true :=
  same_of_view a a h h fun _ => rfl

/-- Which of the values is given first does not matter, if it repeats no key. -/
theorem same_symm (ha : a.hasDistinctKeys = true) (h : a.same b = true) : b.same a = true := by
  induction a using ind generalizing b with
  | null => cases b <;> first | rfl | cases h
  | bool p =>
      cases b with
      | bool q => exact beq_iff_eq.mpr (beq_iff_eq.mp h).symm
      | _ => cases h
  | number m =>
      cases b with
      | number n => exact Number.same_symm h
      | _ => cases h
  | string text =>
      cases b with
      | string text' => exact beq_iff_eq.mpr (beq_iff_eq.mp h).symm
      | _ => cases h
  | array as ih =>
      cases b with
      | array bs =>
          have hitems := hasDistinctKeys_array.mp ha
          rw [same, sameItems_iff, List.forall₂_iff_get] at h ⊢
          refine ⟨h.1.symm, fun i hb ha => ?_⟩
          have hmem := List.get_mem as ⟨i, ha⟩
          exact ih _ hmem (hitems _ hmem) (h.2 i ha hb)
      | _ => cases h
  | object as ih =>
      cases b with
      | object bs =>
          obtain ⟨hkeys, hvalues⟩ := hasDistinctKeys_object.mp ha
          have hperm := keys_perm_of_same hkeys h
          obtain ⟨hlength, hwithin⟩ := same_object_iff.mp h
          refine same_object_iff.mpr ⟨hlength.symm, fun e he => ?_⟩
          have hkey : e.1 ∈ Fields.keys as := hperm.mem_iff.mpr (List.mem_map_of_mem he)
          obtain ⟨d, hd, hde⟩ := List.mem_map.mp hkey
          obtain ⟨b, hb, hsame⟩ := hwithin d hd
          -- the second object does not repeat the key either, so it leads to this very field
          rw [hde, get?_of_mem (hperm.nodup hkeys) he] at hb
          obtain rfl := Option.some.inj hb
          exact ⟨d.2, hde ▸ get?_of_mem hkeys hd, ih d hd (hvalues d hd) hsame⟩
      | _ => cases h

theorem same_trans (hab : a.same b = true) (hbc : b.same c = true) : a.same c = true := by
  induction a using ind generalizing b c with
  | null => cases b <;> first | exact hbc | cases hab
  | bool p =>
      cases b with
      | bool q =>
          obtain rfl : p = q := beq_iff_eq.mp hab
          exact hbc
      | _ => cases hab
  | string text =>
      cases b with
      | string text' =>
          obtain rfl : text = text' := beq_iff_eq.mp hab
          exact hbc
      | _ => cases hab
  | number m =>
      cases b with
      | number n =>
          cases c with
          | number k => exact Number.same_trans hab hbc
          | _ => cases hbc
      | _ => cases hab
  | array as ih =>
      cases b with
      | array bs =>
          cases c with
          | array cs =>
              rw [same, sameItems_iff, List.forall₂_iff_get] at hab hbc ⊢
              refine ⟨hab.1.trans hbc.1, fun i ha hc => ?_⟩
              have hb : i < bs.length := hab.1 ▸ ha
              exact ih _ (List.get_mem as ⟨i, ha⟩) (hab.2 i ha hb) (hbc.2 i hb hc)
          | _ => cases hbc
      | _ => cases hab
  | object as ih =>
      cases b with
      | object bs =>
          cases c with
          | object cs =>
              rw [same_object_iff] at hab hbc ⊢
              refine ⟨hab.1.trans hbc.1, fun e he => ?_⟩
              obtain ⟨b, hb, hsame⟩ := hab.2 e he
              obtain ⟨c, hc, hsame'⟩ := hbc.2 _ (Fields.mem_of_get? hb)
              exact ⟨c, hc, ih e he hsame hsame'⟩
          | _ => cases hbc
      | _ => cases hab

/-! ## What a path finds -/

/-- The first value repeats no key, and the second one is the same. -/
structure Alike (v w : Json) : Prop where
  distinct : v.hasDistinctKeys = true
  same : v.same w = true

namespace Alike

theorem items {as bs : List Json} (h : Alike (array as) (array bs)) :
    List.Forall₂ Alike as bs := by
  obtain ⟨hdistinct, hsame⟩ := h
  rw [Json.same, sameItems_iff, List.forall₂_iff_get] at hsame
  refine List.forall₂_iff_get.mpr ⟨hsame.1, fun i ha hb => ⟨?_, hsame.2 i ha hb⟩⟩
  exact hasDistinctKeys_array.mp hdistinct _ (List.get_mem as ⟨i, ha⟩)

/-- A step leads nowhere in both values, or to values that are alike. -/
theorem enter (h : Alike v w) (s : Step) : Option.Rel Alike (v.enter s) (w.enter s) := by
  cases ha : v.enter s with
  | some a =>
      obtain ⟨b, hb, hsame⟩ := enter_of_same h.same ha
      rw [hb]
      exact .some ⟨hasDistinctKeys_of_enter h.distinct ha, hsame⟩
  | none =>
      cases hb : w.enter s with
      | none => exact .none
      | some b =>
          obtain ⟨a, ha', -⟩ := enter_of_same (same_symm h.distinct h.same) hb
          rw [ha] at ha'
          cases ha'

/-- A key leads nowhere in both values, or to values that are alike. -/
theorem step (h : Alike v w) (key : String) : Option.Rel Alike (v.step key) (w.step key) := by
  cases v
  case object fields =>
    cases w with
    | object fields' => exact h.enter (.key key)
    | _ => cases h.same
  case array items =>
    cases w with
    | array items' =>
        rw [Json.step, Json.step]
        cases arrayIndex? key with
        | none => exact .none
        | some i => exact h.enter (.index i)
    | _ => cases h.same
  all_goals
    cases w <;> first | exact .none | cases h.same

/-- A path finds nothing in both values, or values that are alike. -/
theorem resolve (h : Alike v w) (path : FieldPath) :
    Option.Rel Alike (path.resolve v) (path.resolve w) := by
  induction path generalizing v w with
  | nil => exact .some h
  | cons s path ih =>
      cases s with
      | each => exact ih h
      | key name =>
          have hstep := h.step name
          rw [FieldPath.resolve, FieldPath.resolve]
          generalize v.step name = found, w.step name = found' at hstep
          cases hstep with
          | none => exact .none
          | some hab => exact ih hab

end Alike

end Json

end Chronicle
