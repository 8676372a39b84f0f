import Chronicle.OrderedMap
import Chronicle.OrderedSet
import Mathlib.Data.List.Nodup

set_option autoImplicit false

/-!
# Ascending lists as maps and sets

What the operations on ordered maps and ordered sets do to the entries that are found in them.
Main statements: two ascending maps in which the same entries are found are equal
(`OrderedMap.ext`), and so are two ascending sets with the same members (`OrderedSet.ext`).
-/

namespace Chronicle

variable {κ α : Type} [Ord κ]

namespace OrderedMap

@[simp] theorem find?_nil (k : κ) : find? k ([] : OrderedMap κ α) = none := rfl

theorem find?_cons (k k' : κ) (a : α) (m : OrderedMap κ α) :
    find? k ((k', a) :: m) =
      match compare k k' with
      | .lt => none
      | .eq => some a
      | .gt => find? k m := rfl

theorem insert_cons (k k' : κ) (a a' : α) (m : OrderedMap κ α) :
    insert k a ((k', a') :: m) =
      match compare k k' with
      | .lt => (k, a) :: (k', a') :: m
      | .eq => (k, a) :: m
      | .gt => (k', a') :: insert k a m := rfl

theorem erase_cons (k k' : κ) (a : α) (m : OrderedMap κ α) :
    erase k ((k', a) :: m) =
      match compare k k' with
      | .lt => (k', a) :: m
      | .eq => m
      | .gt => (k', a) :: erase k m := rfl

@[simp] theorem ascending_nil : Ascending ([] : OrderedMap κ α) := List.Pairwise.nil

theorem ascending_cons {e : κ × α} {m : OrderedMap κ α} :
    Ascending (e :: m) ↔ (∀ f ∈ m, compare e.1 f.1 = .lt) ∧ Ascending m := List.pairwise_cons

/-- Nothing is found under a key below all others. -/
theorem find?_eq_none_of_lt {k : κ} {m : OrderedMap κ α}
    (h : ∀ e ∈ m, compare k e.1 = .lt) : find? k m = none := by
  cases m with
  | nil => rfl
  | cons e m =>
      obtain ⟨k', a⟩ := e
      simp [find?_cons, h (k', a) List.mem_cons_self]

theorem mem_insert {k : κ} {a : α} {m : OrderedMap κ α} {e : κ × α} (h : e ∈ insert k a m) :
    e = (k, a) ∨ e ∈ m := by
  induction m with
  | nil => exact Or.inl (by simpa [insert] using h)
  | cons e₀ m ih =>
      obtain ⟨k₀, a₀⟩ := e₀
      rw [insert_cons] at h
      cases hk : compare k k₀ with
      | lt =>
          rw [hk] at h
          exact List.mem_cons.mp h
      | eq =>
          -- the new entry stands in the place of the first
          rw [hk] at h
          rcases List.mem_cons.mp h with h | h
          · exact Or.inl h
          · exact Or.inr (List.mem_cons_of_mem _ h)
      | gt =>
          rw [hk] at h
          rcases List.mem_cons.mp h with rfl | h
          · exact Or.inr List.mem_cons_self
          · exact (ih h).imp_right (List.mem_cons_of_mem _)

theorem erase_sublist (k : κ) (m : OrderedMap κ α) : (erase k m).Sublist m := by
  induction m with
  | nil => exact List.Sublist.refl _
  | cons e m ih =>
      obtain ⟨k', a⟩ := e
      rw [erase_cons]
      cases compare k k' with
      | lt => exact List.Sublist.refl _
      | eq => exact List.sublist_cons_self _ _
      | gt => exact ih.cons_cons _

theorem ascending_erase (k : κ) {m : OrderedMap κ α} (hm : Ascending m) :
    Ascending (erase k m) :=
  hm.sublist (erase_sublist k m)

end OrderedMap

namespace OrderedSet

theorem insert_cons (a b : κ) (s : OrderedSet κ) :
    insert a (b :: s) =
      match compare a b with
      | .lt => a :: b :: s
      | .eq => b :: s
      | .gt => b :: insert a s := rfl

theorem erase_cons (a b : κ) (s : OrderedSet κ) :
    erase a (b :: s) =
      match compare a b with
      | .lt => b :: s
      | .eq => s
      | .gt => b :: erase a s := rfl

theorem contains_cons (a b : κ) (s : OrderedSet κ) :
    contains a (b :: s) =
      match compare a b with
      | .lt => false
      | .eq => true
      | .gt => contains a s := rfl

@[simp] theorem ascending_nil : Ascending ([] : OrderedSet κ) := List.Pairwise.nil

theorem ascending_cons {a : κ} {s : OrderedSet κ} :
    Ascending (a :: s) ↔ (∀ b ∈ s, compare a b = .lt) ∧ Ascending s := List.pairwise_cons

theorem erase_sublist (a : κ) (s : OrderedSet κ) : (erase a s).Sublist s := by
  induction s with
  | nil => exact List.Sublist.refl _
  | cons c s ih =>
      rw [erase_cons]
      cases compare a c with
      | lt => exact List.Sublist.refl _
      | eq => exact List.sublist_cons_self _ _
      | gt => exact ih.cons_cons _

theorem ascending_erase (a : κ) {s : OrderedSet κ} (hs : Ascending s) : Ascending (erase a s) :=
  hs.sublist (erase_sublist a s)

end OrderedSet

variable [Std.TransOrd κ] [Std.LawfulEqOrd κ]

omit [Std.LawfulEqOrd κ] in
theorem ne_of_compare_ne {k l : κ} (h : compare k l ≠ .eq) : k ≠ l :=
  Std.ReflCmp.ne_of_cmp_ne_eq h

omit [Std.LawfulEqOrd κ] in
theorem not_compare_self_lt (k : κ) : compare k k ≠ .lt := by
  rw [Std.ReflOrd.compare_self]
  exact Ordering.noConfusion

omit [Std.LawfulEqOrd κ] in
/-- Ascending lists with the same elements are equal, whatever key they ascend in. -/
theorem eq_of_ascending (key : α → κ) {xs ys : List α}
    (hxs : xs.Pairwise fun a b => compare (key a) (key b) = .lt)
    (hys : ys.Pairwise fun a b => compare (key a) (key b) = .lt)
    (h : ∀ a, a ∈ xs ↔ a ∈ ys) : xs = ys := by
  have nodup : ∀ {zs : List α}, zs.Pairwise (fun a b => compare (key a) (key b) = .lt) →
      zs.Nodup := by
    intro zs hzs
    refine hzs.imp ?_
    rintro a b hab rfl
    exact not_compare_self_lt _ hab
  -- without repetitions, lists with the same elements are permutations of each other
  have hperm : xs.Perm ys := (List.perm_ext_iff_of_nodup (nodup hxs) (nodup hys)).mpr h
  -- and a strict order leaves only one permutation
  refine hperm.eq_of_pairwise ?_ hxs hys
  intro a b _ _ hab hba
  exact absurd hba (Std.OrientedCmp.not_lt_of_lt hab)

namespace OrderedMap

/-! ## What is found -/

omit [Std.TransOrd κ] in
@[simp] theorem find?_insert_self (k : κ) (a : α) (m : OrderedMap κ α) :
    find? k (insert k a m) = some a := by
  induction m with
  | nil => simp [insert, find?_cons]
  | cons e m ih =>
      obtain ⟨k', a'⟩ := e
      rw [insert_cons]
      cases hk : compare k k' with
      | lt => simp [find?_cons]
      | eq => simp [find?_cons]
      | gt => simp [find?_cons, hk, ih]

theorem find?_insert_of_ne {k k' : κ} (h : k' ≠ k) (a : α) (m : OrderedMap κ α) :
    find? k' (insert k a m) = find? k' m := by
  induction m with
  | nil =>
      cases hk : compare k' k with
      | eq => exact absurd (Std.LawfulEqOrd.eq_of_compare hk) h
      | lt => simp [insert, find?_cons, hk]
      | gt => simp [insert, find?_cons, hk]
  | cons e m ih =>
      obtain ⟨k₀, a₀⟩ := e
      rw [insert_cons]
      cases hk : compare k k₀ with
      | lt =>
          -- a key below the new entry is below all that follows it
          simp only [find?_cons]
          cases hk' : compare k' k with
          | eq => exact absurd (Std.LawfulEqOrd.eq_of_compare hk') h
          | lt => simp [Std.TransCmp.lt_trans hk' hk]
          | gt => rfl
      | eq =>
          obtain rfl := Std.LawfulEqOrd.eq_of_compare hk
          simp only [find?_cons]
          cases hk' : compare k' k with
          | eq => exact absurd (Std.LawfulEqOrd.eq_of_compare hk') h
          | lt => rfl
          | gt => rfl
      | gt => simp only [find?_cons, ih]

/-- What is found once an entry is put into the map. -/
theorem find?_insert [DecidableEq κ] (k k' : κ) (a : α) (m : OrderedMap κ α) :
    find? k' (insert k a m) = if k' = k then some a else find? k' m := by
  by_cases h : k' = k
  · subst h
    simp
  · rw [if_neg h, find?_insert_of_ne h]

/-- What is found in an ascending map are its entries. -/
theorem find?_eq_some_iff {m : OrderedMap κ α} (hm : Ascending m) (k : κ) (a : α) :
    find? k m = some a ↔ (k, a) ∈ m := by
  induction m with
  | nil => simp
  | cons e m ih =>
      obtain ⟨k', a'⟩ := e
      obtain ⟨hlt, hm'⟩ := ascending_cons.mp hm
      -- a key below the first entry stands nowhere in the rest
      have below : compare k k' = .lt → (k, a) ∉ m := by
        intro hk hmem
        have hk' : compare k' k = .lt := hlt (k, a) hmem
        exact absurd hk' (Std.OrientedCmp.not_lt_of_lt hk)
      rw [find?_cons]
      cases hk : compare k k' with
      | lt =>
          have hne : k ≠ k' := ne_of_compare_ne (by simp [hk])
          simp [hne, below hk]
      | eq =>
          obtain rfl := Std.LawfulEqOrd.eq_of_compare hk
          -- all keys in the rest are above that of the first entry
          have hnot : (k, a) ∉ m := by
            intro hmem
            exact not_compare_self_lt k (hlt (k, a) hmem)
          simp [hnot, eq_comm]
      | gt =>
          have hne : k ≠ k' := ne_of_compare_ne (by simp [hk])
          simp [hne, ih hm']

/-- Two ascending maps in which the same is found are equal. -/
theorem ext {m n : OrderedMap κ α} (hm : Ascending m) (hn : Ascending n)
    (h : ∀ k, find? k m = find? k n) : m = n := by
  refine eq_of_ascending Prod.fst hm hn ?_
  rintro ⟨k, a⟩
  rw [← find?_eq_some_iff hm, ← find?_eq_some_iff hn, h k]

/-! ## What keeps a map ascending -/

theorem ascending_insert (k : κ) (a : α) {m : OrderedMap κ α} (hm : Ascending m) :
    Ascending (insert k a m) := by
  induction m with
  | nil => simp [insert, Ascending]
  | cons e m ih =>
      obtain ⟨k', a'⟩ := e
      obtain ⟨hlt, hm'⟩ := ascending_cons.mp hm
      rw [insert_cons]
      cases hk : compare k k' with
      | lt =>
          -- the new key is below the first, and so below all
          refine ascending_cons.mpr ⟨?_, hm⟩
          intro f hf
          rcases List.mem_cons.mp hf with rfl | hf
          · exact hk
          · exact Std.TransCmp.lt_trans hk (hlt f hf)
      | eq =>
          obtain rfl := Std.LawfulEqOrd.eq_of_compare hk
          exact ascending_cons.mpr ⟨hlt, hm'⟩
      | gt =>
          -- what follows the first entry is the new one, or followed it before
          refine ascending_cons.mpr ⟨?_, ih hm'⟩
          intro f hf
          rcases mem_insert hf with rfl | hf
          · exact Std.OrientedCmp.lt_of_gt hk
          · exact hlt f hf

/-- What is found once an entry is taken out of an ascending map. -/
theorem find?_erase [DecidableEq κ] {m : OrderedMap κ α} (hm : Ascending m) (k k' : κ) :
    find? k' (erase k m) = if k' = k then none else find? k' m := by
  induction m with
  | nil => simp [erase]
  | cons e m ih =>
      obtain ⟨k₀, a₀⟩ := e
      obtain ⟨hlt, hm'⟩ := ascending_cons.mp hm
      rw [erase_cons]
      cases hk : compare k k₀ with
      | lt =>
          -- the key is below all others: nothing is taken out
          have hself : find? k ((k₀, a₀) :: m) = none := by simp [find?_cons, hk]
          by_cases h : k' = k
          · rw [if_pos h, h, hself]
          · rw [if_neg h]
      | eq =>
          obtain rfl := Std.LawfulEqOrd.eq_of_compare hk
          -- the first entry goes, and what is left lies above its key
          by_cases h : k' = k
          · rw [if_pos h, h, find?_eq_none_of_lt hlt]
          · rw [if_neg h, find?_cons]
            cases hk' : compare k' k with
            | lt => exact find?_eq_none_of_lt fun f hf => Std.TransCmp.lt_trans hk' (hlt f hf)
            | eq => exact absurd (Std.LawfulEqOrd.eq_of_compare hk') h
            | gt => rfl
      | gt =>
          rw [find?_cons, find?_cons, ih hm']
          by_cases h : k' = k
          · subst h
            simp [hk]
          · simp [h]

end OrderedMap

namespace OrderedSet

variable {s t : OrderedSet κ}

omit [Std.LawfulEqOrd κ] in
/-- An ascending set is given by its members. -/
theorem ext (hs : Ascending s) (ht : Ascending t) (h : ∀ a, a ∈ s ↔ a ∈ t) : s = t :=
  eq_of_ascending id hs ht h

omit [Std.TransOrd κ] in
@[simp] theorem mem_insert {a b : κ} : b ∈ insert a s ↔ b = a ∨ b ∈ s := by
  induction s with
  | nil => simp [insert]
  | cons c s ih =>
      rw [insert_cons]
      cases hc : compare a c with
      | lt => simp
      | eq =>
          obtain rfl := Std.LawfulEqOrd.eq_of_compare hc
          simp
      | gt =>
          simp only [List.mem_cons, ih]
          exact or_left_comm

theorem ascending_insert (a : κ) (hs : Ascending s) : Ascending (insert a s) := by
  induction s with
  | nil => simp [insert, Ascending]
  | cons c s ih =>
      obtain ⟨hlt, hs'⟩ := ascending_cons.mp hs
      rw [insert_cons]
      cases hc : compare a c with
      | lt =>
          refine ascending_cons.mpr ⟨?_, hs⟩
          intro b hb
          rcases List.mem_cons.mp hb with rfl | hb
          · exact hc
          · exact Std.TransCmp.lt_trans hc (hlt b hb)
      | eq => exact hs
      | gt =>
          refine ascending_cons.mpr ⟨?_, ih hs'⟩
          intro b hb
          rcases mem_insert.mp hb with rfl | hb
          · exact Std.OrientedCmp.lt_of_gt hc
          · exact hlt b hb

omit [Std.LawfulEqOrd κ] in
/-- A member of an ascending set is not below its first. -/
theorem not_mem_of_lt {a b : κ} (hs : Ascending (b :: s)) (h : compare a b = .lt) :
    a ∉ b :: s := by
  intro hmem
  rcases List.mem_cons.mp hmem with rfl | hmem
  · exact not_compare_self_lt a h
  · have hba : compare b a = .lt := (ascending_cons.mp hs).1 a hmem
    exact absurd hba (Std.OrientedCmp.not_lt_of_lt h)

theorem mem_erase {a b : κ} (hs : Ascending s) : b ∈ erase a s ↔ b ≠ a ∧ b ∈ s := by
  induction s with
  | nil => simp [erase]
  | cons c s ih =>
      obtain ⟨hlt, hs'⟩ := ascending_cons.mp hs
      rw [erase_cons]
      cases hc : compare a c with
      | lt =>
          -- `a` is below all members: nothing is taken away
          refine ⟨fun hb => ⟨?_, hb⟩, And.right⟩
          rintro rfl
          exact not_mem_of_lt hs hc hb
      | eq =>
          obtain rfl := Std.LawfulEqOrd.eq_of_compare hc
          constructor
          · intro hb
            refine ⟨?_, List.mem_cons_of_mem _ hb⟩
            rintro rfl
            exact not_compare_self_lt b (hlt b hb)
          · rintro ⟨hne, hb⟩
            exact (List.mem_cons.mp hb).resolve_left hne
      | gt =>
          -- the first member stays, for `a` is above it
          have hca : c ≠ a := by
            rintro rfl
            exact not_compare_self_lt c (Std.OrientedCmp.lt_of_gt hc)
          simp only [List.mem_cons, ih hs']
          constructor
          · rintro (rfl | ⟨hne, hb⟩)
            · exact ⟨hca, Or.inl rfl⟩
            · exact ⟨hne, Or.inr hb⟩
          · rintro ⟨hne, rfl | hb⟩
            · exact Or.inl rfl
            · exact Or.inr ⟨hne, hb⟩

omit [Std.LawfulEqOrd κ] in
theorem Ascending.nodup (hs : Ascending s) : s.Nodup :=
  hs.imp fun hlt => ne_of_compare_ne (by simp [hlt])

/-- The members of an ascending set are what it contains. -/
theorem contains_iff_mem {a : κ} (hs : Ascending s) : contains a s = true ↔ a ∈ s := by
  induction s with
  | nil => simp [contains]
  | cons b s ih =>
      obtain ⟨-, hs'⟩ := ascending_cons.mp hs
      rw [contains_cons]
      cases hb : compare a b with
      | lt => simpa using not_mem_of_lt hs hb
      | eq => simp [Std.LawfulEqOrd.eq_of_compare hb]
      | gt =>
          have hab : a ≠ b := by
            rintro rfl
            exact not_compare_self_lt a (Std.OrientedCmp.lt_of_gt hb)
          simp [hab, ih hs']

omit [Std.TransOrd κ] in
theorem insert_ne_nil (a : κ) (s : OrderedSet κ) : insert a s ≠ [] :=
  List.ne_nil_of_mem (mem_insert.mpr (Or.inl rfl))

theorem ascending_ofElements (as : List κ) : Ascending (ofElements as) := by
  -- the induction is on the elements, whatever set they are put into
  suffices h : ∀ s : OrderedSet κ, Ascending s →
      Ascending (as.foldl (fun s a => insert a s) s) from h [] ascending_nil
  induction as with
  | nil => exact fun s hs => hs
  | cons a as ih => exact fun s hs => ih _ (ascending_insert a hs)

omit [Std.TransOrd κ] in
@[simp] theorem mem_ofElements {as : List κ} {b : κ} : b ∈ ofElements as ↔ b ∈ as := by
  suffices h : ∀ s : OrderedSet κ,
      b ∈ as.foldl (fun s a => insert a s) s ↔ b ∈ as ∨ b ∈ s by
    simpa [ofElements] using h []
  induction as with
  | nil => simp
  | cons a as ih =>
      intro s
      rw [List.foldl_cons, ih, mem_insert, List.mem_cons]
      tauto

end OrderedSet

end Chronicle
