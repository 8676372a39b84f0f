import Chronicle.StableSort
import Mathlib.Data.List.Perm.Basic

set_option autoImplicit false

/-!
# What sorting answers

Sorting rearranges the elements of a list. Main statements: the elements are the same, each as
often as before (`stableSort_perm`); if the comparison is one of a total preorder, they stand in
ascending order (`pairwise_stableSort`), a list that ascends strictly is what every
rearrangement of it is sorted into (`stableSort_eq_of_perm`), and elements that all differ are
sorted alike whatever order they come in (`stableSort_congr`). Elements that do not differ keep
their order (`filter_stableSort`), and no other ascending list has the elements in these orders
(`eq_of_filter_eq`).
-/

namespace Chronicle

variable {α : Type}

theorem placeBack_perm (less : α → α → Bool) (a : α) (items : List α) :
    (placeBack less a items).Perm (a :: items) := by
  induction items with
  | nil => exact .refl _
  | cons b rest ih =>
      rw [placeBack]
      split
      · exact (ih.cons b).trans (.swap a b rest)
      · exact .refl _

/-- Sorting neither loses nor repeats an element. -/
theorem stableSort_perm (less : α → α → Bool) (items : List α) :
    (stableSort less items).Perm items := by
  have hfold : ∀ sorted : List α,
      (items.foldl (fun sorted a => placeBack less a sorted) sorted).Perm (items ++ sorted) := by
    induction items with
    | nil => exact fun sorted => .refl _
    | cons a rest ih =>
        intro sorted
        refine (ih _).trans ?_
        exact ((placeBack_perm less a sorted).append_left rest).trans List.perm_middle
  have hall := hfold []
  rw [List.append_nil] at hall
  exact (List.reverse_perm _).trans hall

/-- Elements that are sorted by what a function makes of them are moved as that is. -/
theorem stableSort_map {β : Type} (f : α → β) (less : β → β → Bool) (items : List α) :
    stableSort less (items.map f) = (stableSort (fun a b => less (f a) (f b)) items).map f := by
  have hplace : ∀ (a : α) (sorted : List α), placeBack less (f a) (sorted.map f) =
      (placeBack (fun a b => less (f a) (f b)) a sorted).map f := by
    intro a sorted
    induction sorted with
    | nil => rfl
    | cons b rest ih =>
        rw [List.map_cons, placeBack, placeBack, apply_ite (List.map f), ih]
        rfl
  have hfold : ∀ sorted : List α,
      (items.map f).foldl (fun sorted b => placeBack less b sorted) (sorted.map f) =
        (items.foldl (fun sorted a => placeBack (fun a b => less (f a) (f b)) a sorted)
          sorted).map f := by
    induction items with
    | nil => exact fun sorted => rfl
    | cons a rest ih =>
        intro sorted
        rw [List.map_cons, List.foldl_cons, List.foldl_cons, hplace, ih]
  rw [stableSort, stableSort, List.map_reverse, ← hfold []]
  rfl

/-- An element is not moved past those that it is not less than. -/
theorem filter_placeBack {less : α → α → Bool} {keep : α → Bool}
    (h : ∀ a b, keep a = true → keep b = true → less a b = false) (a : α) (items : List α) :
    (placeBack less a items).filter keep = (a :: items).filter keep := by
  induction items with
  | nil => rfl
  | cons b rest ih =>
      rw [placeBack]
      split
      · next hless =>
          rw [List.filter_cons, ih, List.filter_cons, List.filter_cons, List.filter_cons]
          cases ha : keep a with
          | false => rfl
          | true =>
              cases hb : keep b with
              | false => rfl
              | true =>
                  rw [h a b ha hb] at hless
                  cases hless
      · rfl

/-- Sorting keeps the order of elements none of which is less than another. -/
theorem filter_stableSort {less : α → α → Bool} {keep : α → Bool}
    (h : ∀ a b, keep a = true → keep b = true → less a b = false) (items : List α) :
    (stableSort less items).filter keep = items.filter keep := by
  have hfold : ∀ sorted : List α,
      (items.foldl (fun sorted a => placeBack less a sorted) sorted).filter keep =
        (items.reverse ++ sorted).filter keep := by
    induction items with
    | nil => exact fun sorted => rfl
    | cons a rest ih =>
        intro sorted
        rw [List.foldl_cons, ih, List.filter_append, filter_placeBack h, ← List.filter_append,
          List.reverse_cons, List.append_assoc, List.singleton_append]
  rw [stableSort, List.filter_reverse, hfold, List.append_nil, ← List.filter_reverse,
    List.reverse_reverse]

variable {cmp : α → α → Ordering} [Std.TransCmp cmp]

/-- Placing an element keeps a list sorted backwards. -/
theorem pairwise_placeBack (a : α) {items : List α}
    (h : items.Pairwise fun x y => (cmp y x).isLE) :
    (placeBack (fun x y => cmp x y == .lt) a items).Pairwise fun x y => (cmp y x).isLE := by
  induction items with
  | nil => exact List.pairwise_singleton _ a
  | cons b rest ih =>
      obtain ⟨hb, hrest⟩ := List.pairwise_cons.mp h
      rw [placeBack]
      split
      · next hless =>
          have hlt : cmp a b = .lt := by simpa using hless
          refine List.pairwise_cons.mpr ⟨fun z hz => ?_, ih hrest⟩
          rcases List.mem_cons.mp ((placeBack_perm _ a rest).mem_iff.mp hz) with rfl | hz
          · rw [hlt]
            rfl
          · exact hb z hz
      · next hless =>
          have hle : (cmp b a).isLE := by
            have hswap : cmp b a = (cmp a b).swap := Std.OrientedCmp.eq_swap
            rw [hswap]
            cases hab : cmp a b with
            | lt => exact absurd hab (by simpa using hless)
            | eq => rfl
            | gt => rfl
          refine List.pairwise_cons.mpr ⟨fun z hz => ?_, h⟩
          rcases List.mem_cons.mp hz with rfl | hz
          · exact hle
          · exact Std.TransCmp.isLE_trans (hb z hz) hle

/-- Under a total preorder the sorted elements ascend. -/
theorem pairwise_stableSort (items : List α) :
    (stableSort (fun x y => cmp x y == .lt) items).Pairwise fun x y => (cmp x y).isLE := by
  have hfold : ∀ sorted : List α, sorted.Pairwise (fun x y => (cmp y x).isLE) →
      (items.foldl (fun sorted a => placeBack (fun x y => cmp x y == .lt) a sorted)
        sorted).Pairwise fun x y => (cmp y x).isLE := by
    induction items with
    | nil => exact fun sorted h => h
    | cons a rest ih => exact fun sorted h => ih _ (pairwise_placeBack a h)
  exact List.pairwise_reverse.mpr (hfold [] List.Pairwise.nil)

/-- The elements that do not differ from one of their own are among them. -/
theorem mem_iff_of_filter_eq {items items' : List α}
    (hsame : ∀ a, items.filter (fun b => cmp a b == .eq) = items'.filter fun b => cmp a b == .eq)
    (a : α) : a ∈ items ↔ a ∈ items' := by
  have hself : cmp a a = .eq := Std.ReflCmp.compare_self
  have hclass : a ∈ items.filter (fun b => cmp a b == .eq) ↔
      a ∈ items'.filter fun b => cmp a b == .eq := by rw [hsame a]
  simpa [List.mem_filter, hself] using hclass

/-- The first of ascending elements is not after any of them. -/
theorem isLE_of_mem_cons {x a : α} {rest : List α}
    (h : (x :: rest).Pairwise fun x y => (cmp x y).isLE) (ha : a ∈ x :: rest) :
    (cmp x a).isLE := by
  rcases List.mem_cons.mp ha with rfl | hrest
  · have hself : cmp a a = .eq := Std.ReflCmp.compare_self
    rw [hself]
    rfl
  · exact List.rel_of_pairwise_cons h hrest

/-- Ascending lists that have the elements that do not differ in the same order are the same. -/
theorem eq_of_filter_eq {items items' : List α} (h : items.Pairwise fun x y => (cmp x y).isLE)
    (h' : items'.Pairwise fun x y => (cmp x y).isLE)
    (hsame : ∀ a, items.filter (fun b => cmp a b == .eq) = items'.filter fun b => cmp a b == .eq) :
    items = items' := by
  induction items generalizing items' with
  | nil =>
      refine (List.eq_nil_iff_forall_not_mem.mpr fun a ha => ?_).symm
      exact List.not_mem_nil ((mem_iff_of_filter_eq hsame a).mpr ha)
  | cons x rest ih =>
      cases items' with
      | nil => exact absurd ((mem_iff_of_filter_eq hsame x).mp List.mem_cons_self) List.not_mem_nil
      | cons y rest' =>
          -- each of the first elements is somewhere in the other list, so they do not differ
          have hxy := isLE_of_mem_cons h ((mem_iff_of_filter_eq hsame y).mpr List.mem_cons_self)
          have hyx := isLE_of_mem_cons h' ((mem_iff_of_filter_eq hsame x).mp List.mem_cons_self)
          have heq : cmp x y = .eq := Std.OrientedCmp.isLE_antisymm hxy hyx
          have hself : cmp x x = .eq := Std.ReflCmp.compare_self
          have hfirst := hsame x
          rw [List.filter_cons, List.filter_cons, if_pos (by rw [hself]; rfl),
            if_pos (by rw [heq]; rfl)] at hfirst
          obtain ⟨rfl, -⟩ := List.cons.inj hfirst
          rw [ih h.of_cons h'.of_cons fun a => ?_]
          have hclass := hsame a
          rw [List.filter_cons, List.filter_cons] at hclass
          split at hclass
          · exact (List.cons.inj hclass).2
          · exact hclass

/-- In a list that ascends strictly, elements that do not differ are the same. -/
theorem eq_of_compare_eq {items : List α} (h : items.Pairwise fun x y => cmp x y = .lt) {a b : α}
    (ha : a ∈ items) (hb : b ∈ items) (hab : cmp a b = .eq) : a = b := by
  have hsame : items.Pairwise fun x y => cmp x y = .eq → x = y :=
    h.imp fun hlt heq => by rw [hlt] at heq; cases heq
  have hflip : items.Pairwise fun x y => cmp y x = .eq → y = x := by
    refine h.imp fun {x y} hlt heq => ?_
    have hswap : cmp y x = (cmp x y).swap := Std.OrientedCmp.eq_swap
    rw [hswap, hlt] at heq
    cases heq
  exact hsame.forall_of_forall_of_flip (fun _ _ _ => rfl) hflip ha hb hab

/-- Whatever order the elements of a strictly ascending list come in, that list is the answer. -/
theorem stableSort_eq_of_perm {items sorted : List α}
    (h : sorted.Pairwise fun x y => cmp x y = .lt) (hperm : items.Perm sorted) :
    stableSort (fun x y => cmp x y == .lt) items = sorted := by
  have hall := (stableSort_perm (fun x y => cmp x y == .lt) items).trans hperm
  have hsorted : sorted.Pairwise fun x y => (cmp x y).isLE :=
    h.imp fun hlt => by rw [hlt]; rfl
  refine hall.eq_of_pairwise ?_ (pairwise_stableSort items) hsorted
  intro a b ha hb hab hba
  refine eq_of_compare_eq h (hall.mem_iff.mp ha) hb ?_
  exact Std.OrientedCmp.isLE_antisymm hab hba

/-- Elements that all differ ascend strictly once they are sorted. -/
theorem strict_stableSort {items : List α} (h : items.Pairwise fun x y => cmp x y ≠ .eq) :
    (stableSort (fun x y => cmp x y == .lt) items).Pairwise fun x y => cmp x y = .lt := by
  have hflip : ∀ {x y : α}, cmp x y ≠ .eq → cmp y x ≠ .eq := by
    intro x y hne heq
    have hswap : cmp x y = (cmp y x).swap := Std.OrientedCmp.eq_swap
    exact hne (by rw [hswap, heq]; rfl)
  have hdiffer : (stableSort (fun x y => cmp x y == .lt) items).Pairwise
      fun x y => cmp x y ≠ .eq :=
    (List.Perm.pairwise_iff hflip (stableSort_perm _ items)).mpr h
  refine ((pairwise_stableSort items).and hdiffer).imp ?_
  intro x y hxy
  cases hcmp : cmp x y with
  | lt => rfl
  | eq => exact absurd hcmp hxy.2
  | gt => rw [hcmp] at hxy; cases hxy.1

/-- Elements that all differ are sorted alike, whatever order they come in. -/
theorem stableSort_congr {items items' : List α} (hperm : items.Perm items')
    (h : items.Pairwise fun x y => cmp x y ≠ .eq) :
    stableSort (fun x y => cmp x y == .lt) items =
      stableSort (fun x y => cmp x y == .lt) items' := by
  refine (stableSort_eq_of_perm (strict_stableSort h) ?_).symm
  exact hperm.symm.trans (stableSort_perm _ items).symm

end Chronicle
