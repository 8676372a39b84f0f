import Chronicle.Proofs.Numerals
import Chronicle.ReadModel.Envelope

set_option autoImplicit false

/-!
# Unique keys

The key of a stored read model joins its type, its id and its version with colons. A version has
none in its numeral, so keys that are equal are cut off at the same version; type and id may hold
colons, and then a part of one can as well be a part of the other. Main statements: two keys are
equal if and only if the versions are, and type and id are equal or differ by such a part only
(`StoredReadModel.uniqueKey_eq_iff`); where no type holds a colon the keys of different versions
are different (`StoredReadModel.eq_of_uniqueKey_eq`).
-/

namespace Chronicle

/-! ## Parts with a separator between them -/

section Joined

variable {α : Type} {s : α} {front back front' back' : List α}

/-- Where one front goes on with a gap behind the other, either there is none, or it starts with
the separator that ends the shorter front. -/
theorem cut_of_gap {gap : List α} (hfront : front' = front ++ gap)
    (hback : s :: back = gap ++ s :: back') :
    front = front' ∧ back = back' ∨
      ∃ part, front' = front ++ s :: part ∧ back = part ++ s :: back' := by
  cases gap with
  | nil =>
      rw [List.append_nil] at hfront
      exact Or.inl ⟨hfront.symm, (List.cons.inj hback).2⟩
  | cons c part =>
      obtain ⟨rfl, hrest⟩ := List.cons.inj hback
      exact Or.inr ⟨part, hfront, hrest⟩

/-- What is joined at a separator was cut at the same separator, or at different ones with a part
between them. -/
theorem joined_eq_iff : front ++ s :: back = front' ++ s :: back' ↔
    front = front' ∧ back = back' ∨
      (∃ part, front' = front ++ s :: part ∧ back = part ++ s :: back') ∨
      ∃ part, front = front' ++ s :: part ∧ back' = part ++ s :: back := by
  constructor
  · intro h
    rcases List.append_eq_append_iff.mp h with ⟨gap, hfront, hback⟩ | ⟨gap, hfront, hback⟩
    · exact (cut_of_gap hfront hback).imp_right Or.inl
    · rcases cut_of_gap hfront hback with ⟨rfl, rfl⟩ | hpart
      · exact Or.inl ⟨rfl, rfl⟩
      · exact Or.inr (Or.inr hpart)
  · rintro (⟨rfl, rfl⟩ | ⟨part, rfl, rfl⟩ | ⟨part, rfl, rfl⟩)
    · rfl
    · rw [List.append_assoc, List.cons_append]
    · rw [List.append_assoc, List.cons_append]

/-- The last separator is where what comes after it has none. -/
theorem joined_eq_iff_of_notMem_back (hback : s ∉ back) (hback' : s ∉ back') :
    front ++ s :: back = front' ++ s :: back' ↔ front = front' ∧ back = back' := by
  rw [joined_eq_iff]
  apply or_iff_left
  rintro (⟨part, -, rfl⟩ | ⟨part, -, rfl⟩)
  · exact hback List.mem_append_cons_self
  · exact hback' List.mem_append_cons_self

/-- The first separator is where what comes before it has none. -/
theorem joined_eq_iff_of_notMem_front (hfront : s ∉ front) (hfront' : s ∉ front') :
    front ++ s :: back = front' ++ s :: back' ↔ front = front' ∧ back = back' := by
  rw [joined_eq_iff]
  apply or_iff_left
  rintro (⟨part, rfl, -⟩ | ⟨part, rfl, -⟩)
  · exact hfront' List.mem_append_cons_self
  · exact hfront List.mem_append_cons_self

end Joined

namespace Text

theorem colon_notMem_toDigits (n : Nat) : ':' ∉ Nat.toDigits 10 n := by
  intro h
  cases isDigit_of_mem_toDigits h

theorem toDigits_inj {m n : Nat} : Nat.toDigits 10 m = Nat.toDigits 10 n ↔ m = n := by
  constructor
  · intro h
    rw [← digitsValue_toDigits m, h, digitsValue_toDigits]
  · rintro rfl
    rfl

end Text

/-! ## The keys of read models -/

theorem Name.toList_text_inj {kind : NameKind} {a b : Name kind} :
    a.text.toList = b.text.toList ↔ a = b := by
  constructor
  · intro h
    apply Name.ext_text
    exact String.toList_inj.mp h
  · rintro rfl
    rfl

/-- The type of the second read model goes on where that of the first ends, with a part that the
id of the first one has in front. -/
def ReadModel.Shifts (a b : ReadModel) : Prop :=
  ∃ part : String, b.typeName.text = a.typeName.text ++ ":" ++ part ∧
    a.id.text = part ++ ":" ++ b.id.text

theorem ReadModel.shifts_iff {a b : ReadModel} : a.Shifts b ↔ ∃ part : List Char,
    b.typeName.text.toList = a.typeName.text.toList ++ ':' :: part ∧
      a.id.text.toList = part ++ ':' :: b.id.text.toList := by
  constructor
  · rintro ⟨part, htype, hid⟩
    exact ⟨part.toList, by simp [htype], by simp [hid]⟩
  · rintro ⟨part, htype, hid⟩
    refine ⟨String.ofList part, String.toList_inj.mp ?_, String.toList_inj.mp ?_⟩
    · simp [htype]
    · simp [hid]

namespace StoredReadModel

/-- The version is what comes after the last colon. -/
theorem uniqueKey_eq_iff_joined {a b : ReadModel} :
    (ofReadModel a).uniqueKey = (ofReadModel b).uniqueKey ↔
      a.typeName.text.toList ++ ':' :: a.id.text.toList =
          b.typeName.text.toList ++ ':' :: b.id.text.toList ∧ a.version = b.version := by
  have hkey : ∀ m : ReadModel, (ofReadModel m).uniqueKey.toList =
      (m.typeName.text.toList ++ ':' :: m.id.text.toList) ++
        ':' :: Nat.toDigits 10 m.version := by
    intro m
    simp [ofReadModel, Text.numeral]
  rw [← String.toList_inj, hkey, hkey, joined_eq_iff_of_notMem_back
    (Text.colon_notMem_toDigits _) (Text.colon_notMem_toDigits _), Text.toDigits_inj]

/--
Two read models have one unique key if and only if their versions are equal, and their types and
ids are equal or differ in nothing but a part, cut off at colons, that the id of one and the type
of the other has.
-/
theorem uniqueKey_eq_iff (a b : ReadModel) :
    (ofReadModel a).uniqueKey = (ofReadModel b).uniqueKey ↔
      (a.typeName = b.typeName ∧ a.id = b.id ∨ a.Shifts b ∨ b.Shifts a) ∧
        a.version = b.version := by
  rw [uniqueKey_eq_iff_joined, joined_eq_iff, Name.toList_text_inj, Name.toList_text_inj,
    ReadModel.shifts_iff, ReadModel.shifts_iff]

/-- The read model whose document has nothing but the id. -/
def bare (typeName : ReadModelTypeName) (id : ReadModelId) : ReadModel :=
  { typeName, id, value := .object [("id", .string id.text)] }

/-- A colon in the type of one and one in the id of the other can give them one key. -/
theorem uniqueKey_not_unique : ¬∀ a b : ReadModel,
    (ofReadModel a).uniqueKey = (ofReadModel b).uniqueKey →
      a.typeName = b.typeName ∧ a.id = b.id ∧ a.version = b.version := by
  intro h
  let longType : ReadModelTypeName := ⟨"a:b", by decide, by decide, by decide, rfl⟩
  let shortType : ReadModelTypeName := ⟨"a", by decide, by decide, by decide, rfl⟩
  let shortId : ReadModelId := ⟨"c", by decide, by decide, by decide, rfl⟩
  let longId : ReadModelId := ⟨"b:c", by decide, by decide, by decide, rfl⟩
  have hequal := h (bare longType shortId) (bare shortType longId) (by decide)
  exact absurd hequal.1 (by decide)

/-- Where no type holds a colon, the key tells type, id and version. -/
theorem eq_of_uniqueKey_eq {a b : ReadModel} (ha : ':' ∉ a.typeName.text.toList)
    (hb : ':' ∉ b.typeName.text.toList)
    (h : (ofReadModel a).uniqueKey = (ofReadModel b).uniqueKey) :
    a.typeName = b.typeName ∧ a.id = b.id ∧ a.version = b.version := by
  rw [uniqueKey_eq_iff_joined, joined_eq_iff_of_notMem_front ha hb, Name.toList_text_inj,
    Name.toList_text_inj, and_assoc] at h
  exact h

end StoredReadModel

end Chronicle
