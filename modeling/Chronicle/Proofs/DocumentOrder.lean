import Chronicle.Proofs.StableSort
import Chronicle.Proofs.ValueOrder
import Mathlib.Data.List.Lemmas
import Mathlib.Data.List.Perm.Basic

set_option autoImplicit false

/-!
# Sorting documents by several keys

Among documents all of whose numbers are integers of 64 bits no rounding takes place, so the values
that a key finds in them, missing ones included, are in a total preorder, and so are the documents
under several keys. Main statement: such documents are sorted stably by the first key that tells
them apart, and there is only one way to do so (`SortKeys.sort_stable`).
-/

namespace Chronicle

/-! ## Documents whose numbers are integers -/

namespace Json

mutual

/-- Whether all numbers in the value, at any depth, are integers of 64 bits. -/
def isIntegral : Json → Bool
  | number (.int n) => Number.minSigned ≤ n && n < Number.unsignedLimit
  | number (.float _) => false
  | array items => areIntegral items
  | object fields => fieldsAreIntegral fields
  | _ => true

/-- Whether all numbers in the items are integers of 64 bits. -/
def areIntegral : List Json → Bool
  | [] => true
  | v :: rest => isIntegral v && areIntegral rest

/-- Whether all numbers in the fields are integers of 64 bits. -/
def fieldsAreIntegral : List (String × Json) → Bool
  | [] => true
  | (_, v) :: rest => isIntegral v && fieldsAreIntegral rest

end

theorem isIntegral_of_mem {v : Json} {items : List Json} (h : areIntegral items = true)
    (hv : v ∈ items) : v.isIntegral = true := by
  induction items with
  | nil => cases hv
  | cons w rest ih =>
      rw [areIntegral, Bool.and_eq_true] at h
      rcases List.mem_cons.mp hv with rfl | hrest
      · exact h.1
      · exact ih h.2 hrest

theorem isIntegral_of_get? {key : String} {v : Json} {fields : Fields}
    (h : fieldsAreIntegral fields = true) (hv : Fields.get? key fields = some v) :
    v.isIntegral = true := by
  induction fields with
  | nil => cases hv
  | cons field rest ih =>
      obtain ⟨name, w⟩ := field
      rw [fieldsAreIntegral, Bool.and_eq_true] at h
      rw [Fields.get?] at hv
      split at hv
      · cases hv
        exact h.1
      · exact ih h.2 hv

/-- What a key leads to in a document of integers has integers only. -/
theorem isIntegral_of_step {key : String} {v w : Json} (h : v.isIntegral = true)
    (hw : v.step key = some w) : w.isIntegral = true := by
  cases v with
  | array items =>
      rw [step] at hw
      split at hw
      · exact isIntegral_of_mem h (List.mem_of_getElem? hw)
      · cases hw
  | object fields => exact isIntegral_of_get? h hw
  | _ => cases hw

/-- So has what stands at the end of a path. -/
theorem isIntegral_of_resolve {path : FieldPath} {v w : Json} (h : v.isIntegral = true)
    (hw : path.resolve v = some w) : w.isIntegral = true := by
  induction path generalizing v with
  | nil =>
      cases hw
      exact h
  | cons segment rest ih =>
      cases segment with
      | each => exact ih h hw
      | key name =>
          rw [FieldPath.resolve] at hw
          split at hw
          · next u hu => exact ih (isIntegral_of_step h hu) hw
          · cases hw

mutual

/-- The numbers that the order looks at in a document of integers are integers of 64 bits. -/
theorem int_of_mem_numbers {k : Number} : ∀ {v : Json}, v.isIntegral = true → k ∈ v.numbers →
    k.IsStorable ∧ ∃ n, k = .int n
  | number (.int n), h, hk => by
      rw [numbers, List.mem_singleton] at hk
      subst hk
      rw [isIntegral, Bool.and_eq_true, decide_eq_true_eq, decide_eq_true_eq] at h
      exact ⟨h, n, rfl⟩
  | array items, h, hk => int_of_mem_numbersOfItems h hk

theorem int_of_mem_numbersOfItems {k : Number} : ∀ {items : List Json},
    areIntegral items = true → k ∈ numbersOfItems items → k.IsStorable ∧ ∃ n, k = .int n
  | v :: rest, h, hk => by
      rw [areIntegral, Bool.and_eq_true] at h
      rcases List.mem_append.mp hk with hv | hrest
      · exact int_of_mem_numbers h.1 hv
      · exact int_of_mem_numbersOfItems h.2 hrest

end

/-- Values of integers go on from each other. -/
theorem compare_chains_of_isIntegral {a b c : Json} (ha : a.isIntegral = true)
    (hb : b.isIntegral = true) (hc : c.isIntegral = true) :
    Chains (a.compare b) (b.compare c) (a.compare c) := by
  have hall : areIntegral [a, b, c] = true := by simp only [areIntegral, ha, hb, hc, Bool.and_self]
  have hsep : Number.Separated (numbersOfItems [a, b, c]) := by
    intro m n x _ _ hx
    obtain ⟨-, k, hk⟩ := int_of_mem_numbersOfItems hall hx
    cases hk
  exact compare_chains hsep (fun n hn => (int_of_mem_numbersOfItems hall hn).1) a b c
    (numbers_subset (by simp)) (numbers_subset (by simp)) (numbers_subset (by simp))

theorem compare?_swap (a b : Option Json) : compare? b a = (compare? a b).swap := by
  cases a with
  | none => cases b <;> rfl
  | some v =>
      cases b with
      | none => rfl
      | some w => exact compare_swap v w

/-- So do values of which any may be missing. -/
theorem compare?_chains {a b c : Option Json} (ha : ∀ v ∈ a, v.isIntegral = true)
    (hb : ∀ v ∈ b, v.isIntegral = true) (hc : ∀ v ∈ c, v.isIntegral = true) :
    Chains (compare? a b) (compare? b c) (compare? a c) := by
  cases a with
  | none =>
      cases b with
      | none => cases c <;> exact fun _ _ => rfl
      | some w =>
          cases c with
          | none => exact fun _ hbc => absurd rfl hbc
          | some u => exact fun _ _ => rfl
  | some v =>
      cases b with
      | none => exact fun hab _ => absurd rfl hab
      | some w =>
          cases c with
          | none => exact fun _ hbc => absurd rfl hbc
          | some u => exact compare_chains_of_isIntegral (ha v rfl) (hb w rfl) (hc u rfl)

end Json

/-! ## The order under several keys -/

/-- The order of two documents under one key. -/
def SortKey.compare (key : SortKey) (v w : Json) : Ordering :=
  key.direction.orient (Json.compare? (key.path.resolve v) (key.path.resolve w))

namespace SortKey

/-- No direction tells equal values apart. -/
theorem compare_eq_eq_iff {key : SortKey} {v w : Json} :
    key.compare v w = .eq ↔ Json.compare? (key.path.resolve v) (key.path.resolve w) = .eq := by
  rw [compare]
  cases key.direction with
  | ascending => exact Iff.rfl
  | descending => exact Ordering.swap_eq_eq

theorem compare_swap (key : SortKey) (v w : Json) : key.compare w v = (key.compare v w).swap := by
  rw [compare, compare, Json.compare?_swap (key.path.resolve v)]
  cases key.direction <;> rfl

theorem compare_chains (key : SortKey) {a b c : Json} (ha : a.isIntegral = true)
    (hb : b.isIntegral = true) (hc : c.isIntegral = true) :
    Chains (key.compare a b) (key.compare b c) (key.compare a c) := by
  have hfound := fun {v : Json} (hv : v.isIntegral = true) (w : Json)
    (hw : w ∈ key.path.resolve v) => Json.isIntegral_of_resolve hv hw
  have hchains := Json.compare?_chains (hfound ha) (hfound hb) (hfound hc)
  rw [compare, compare, compare]
  cases key.direction with
  | ascending => exact hchains
  | descending =>
      -- the other way round the steps are taken from the last value to the first
      have hback := (Json.compare?_chains (hfound hc) (hfound hb) (hfound ha)).comm
      show Chains (Ordering.swap _) (Ordering.swap _) (Ordering.swap _)
      rw [← Json.compare?_swap, ← Json.compare?_swap, ← Json.compare?_swap]
      exact hback

end SortKey

namespace SortKeys

variable {keys : SortKeys}

theorem compare_cons (key : SortKey) (rest : SortKeys) (v w : Json) :
    compare (key :: rest) v w = (key.compare v w).then (compare rest v w) := rfl

/-- Documents are equal if they are equal on all keys. -/
theorem compare_eq_eq_iff {v w : Json} :
    keys.compare v w = .eq ↔ ∀ key ∈ keys, key.compare v w = .eq := by
  induction keys with
  | nil => exact ⟨fun _ key hkey => absurd hkey List.not_mem_nil, fun _ => rfl⟩
  | cons key rest ih => rw [compare_cons, Ordering.then_eq_eq, ih, List.forall_mem_cons]

/-- The first key on which documents differ decides. -/
theorem compare_append_cons {front rest : SortKeys} {key : SortKey} {v w : Json}
    (hfront : ∀ k ∈ front, k.compare v w = .eq) (hkey : key.compare v w ≠ .eq) :
    compare (front ++ key :: rest) v w = key.compare v w := by
  induction front with
  | nil =>
      rw [List.nil_append, compare_cons]
      cases h : key.compare v w with
      | eq => exact absurd h hkey
      | _ => rfl
  | cons k front ih =>
      obtain ⟨hk, hfront⟩ := List.forall_mem_cons.mp hfront
      rw [List.cons_append, compare_cons, hk, Ordering.eq_then, ih hfront]

theorem compare_swap (keys : SortKeys) (v w : Json) :
    keys.compare w v = (keys.compare v w).swap := by
  induction keys with
  | nil => rfl
  | cons key rest ih =>
      rw [compare_cons, compare_cons, Ordering.swap_then, key.compare_swap v w, ih]

theorem compare_chains (keys : SortKeys) {a b c : Json} (ha : a.isIntegral = true)
    (hb : b.isIntegral = true) (hc : c.isIntegral = true) :
    Chains (keys.compare a b) (keys.compare b c) (keys.compare a c) := by
  induction keys with
  | nil => exact fun _ _ => rfl
  | cons key rest ih => exact (key.compare_chains ha hb hc).lex fun _ _ => ih

/-! ## Sorted documents -/

/-- The items in ascending order of their documents, and those whose documents are equal on all
keys, whatever document one compares with, in the order they had. -/
structure Sorts {α : Type} (keys : SortKeys) (valueOf : α → Json) (items sorted : List α) :
    Prop where
  perm : sorted.Perm items
  ordered : sorted.Pairwise fun a b => keys.compare (valueOf a) (valueOf b) ≠ .gt
  stable : ∀ v : Json, v.isIntegral = true →
    sorted.filter (fun a => keys.compare v (valueOf a) == .eq) =
      items.filter fun a => keys.compare v (valueOf a) == .eq

section Carriers

variable {α : Type} {valueOf : α → Json} {items sorted : List α}

/-- Carriers of documents of integers. -/
abbrev Integral (valueOf : α → Json) : Type := { a : α // (valueOf a).isIntegral = true }

/-- The order of the documents that are carried. -/
def compareCarried (keys : SortKeys) (valueOf : α → Json) (a b : Integral valueOf) : Ordering :=
  keys.compare (valueOf a.1) (valueOf b.1)

instance (keys : SortKeys) (valueOf : α → Json) : Std.TransCmp (keys.compareCarried valueOf) where
  eq_swap {a b} := keys.compare_swap (valueOf b.1) (valueOf a.1)
  isLE_trans {a b c} hab hbc := by
    rw [Ordering.isLE_iff_ne_gt] at hab hbc ⊢
    exact (keys.compare_chains a.2 b.2 c.2).ne_gt hab hbc

theorem exists_carriers (h : ∀ a ∈ items, (valueOf a).isIntegral = true) :
    ∃ xs : List (Integral valueOf), xs.map Subtype.val = items :=
  ⟨items.attachWith _ h, List.attachWith_map_subtype_val h⟩

theorem sort_carriers (keys : SortKeys) (xs : List (Integral valueOf)) :
    keys.sort valueOf (xs.map Subtype.val) =
      (stableSort (fun a b => keys.compareCarried valueOf a b == .lt) xs).map Subtype.val :=
  stableSort_map _ _ xs

/-- Documents that are equal to one document of integers are not told apart. -/
theorem not_less_of_compare_eq {v : Json} (hv : v.isIntegral = true) (a b : Integral valueOf)
    (ha : (keys.compare v (valueOf a.1) == .eq) = true)
    (hb : (keys.compare v (valueOf b.1) == .eq) = true) :
    (keys.compareCarried valueOf a b == .lt) = false := by
  rw [beq_iff_eq] at ha hb
  have hback : keys.compare (valueOf a.1) v = .eq := by
    rw [keys.compare_swap v, ha]
    rfl
  have hchain := keys.compare_chains a.2 hv b.2 (by simp [hback]) (by simp [hb])
  rw [compareCarried, hchain, hback, hb]
  rfl

/-- Documents of integers are sorted stably. -/
theorem sorts_sort (keys : SortKeys) (h : ∀ a ∈ items, (valueOf a).isIntegral = true) :
    keys.Sorts valueOf items (keys.sort valueOf items) := by
  refine ⟨stableSort_perm _ items, ?_, fun v hv => ?_⟩
  · obtain ⟨xs, rfl⟩ := exists_carriers h
    have hxs : (stableSort (fun a b => keys.compareCarried valueOf a b == .lt) xs).Pairwise
        fun a b => (keys.compareCarried valueOf a b).isLE := pairwise_stableSort xs
    rw [sort_carriers, List.pairwise_map]
    exact hxs.imp Ordering.isLE_iff_ne_gt.mp
  · obtain ⟨xs, rfl⟩ := exists_carriers h
    rw [sort_carriers, List.filter_map, List.filter_map]
    exact congrArg _ (filter_stableSort (not_less_of_compare_eq hv) xs)

/-- There is one way to sort documents of integers. -/
theorem Sorts.unique {other : List α} (h : ∀ a ∈ items, (valueOf a).isIntegral = true)
    (hsorted : keys.Sorts valueOf items sorted) (hother : keys.Sorts valueOf items other) :
    other = sorted := by
  obtain ⟨xs, rfl⟩ := exists_carriers fun a ha => h a (hsorted.perm.mem_iff.mp ha)
  obtain ⟨ys, rfl⟩ := exists_carriers fun a ha => h a (hother.perm.mem_iff.mp ha)
  have hxs : xs.Pairwise fun a b => (keys.compareCarried valueOf a b).isLE :=
    (List.pairwise_map.mp hsorted.ordered).imp Ordering.isLE_iff_ne_gt.mpr
  have hys : ys.Pairwise fun a b => (keys.compareCarried valueOf a b).isLE :=
    (List.pairwise_map.mp hother.ordered).imp Ordering.isLE_iff_ne_gt.mpr
  have hsame : ys = xs := by
    refine eq_of_filter_eq hys hxs fun a => ?_
    have hclass := (hother.stable (valueOf a.1) a.2).trans (hsorted.stable (valueOf a.1) a.2).symm
    rw [List.filter_map, List.filter_map] at hclass
    exact List.map_injective_iff.mpr Subtype.val_injective hclass
  rw [hsame]

/-- Documents of integers no two of which are equal are sorted alike whatever order they come in. -/
theorem sort_perm {items' : List α} (h : ∀ a ∈ items, (valueOf a).isIntegral = true)
    (hperm : items'.Perm items)
    (hdiffer : items.Pairwise fun a b => keys.compare (valueOf a) (valueOf b) ≠ .eq) :
    keys.sort valueOf items' = keys.sort valueOf items := by
  obtain ⟨xs', rfl⟩ := exists_carriers fun a ha => h a (hperm.mem_iff.mp ha)
  obtain ⟨xs, rfl⟩ := exists_carriers h
  have hxs : xs.Pairwise fun a b => keys.compareCarried valueOf a b ≠ .eq :=
    List.pairwise_map.mp hdiffer
  have hcarriers : xs.Perm xs' := (List.map_perm_map_iff Subtype.val_injective).mp hperm.symm
  rw [sort_carriers, sort_carriers, stableSort_congr hcarriers hxs]

end Carriers

/--
Items whose documents hold no other numbers than integers of 64 bits are sorted stably, and every
list that is a stable sorting of them is this one; where no two documents are equal on all keys,
the answer does not depend on the order in which the items come. The keys compare any two documents
by the first key on which they differ, in its direction, and as equal if there is none.
-/
theorem sort_stable {α : Type} (keys : SortKeys) (valueOf : α → Json) {items : List α}
    (h : ∀ a ∈ items, (valueOf a).isIntegral = true) :
    keys.Sorts valueOf items (keys.sort valueOf items) ∧
      (∀ sorted, keys.Sorts valueOf items sorted → sorted = keys.sort valueOf items) ∧
      (∀ items' : List α, items'.Perm items →
        (items.Pairwise fun a b => keys.compare (valueOf a) (valueOf b) ≠ .eq) →
          keys.sort valueOf items' = keys.sort valueOf items) ∧
      ∀ v w : Json,
        (keys.compare v w = .eq ↔
          ∀ key ∈ keys, Json.compare? (key.path.resolve v) (key.path.resolve w) = .eq) ∧
        ∀ (front rest : SortKeys) (key : SortKey), keys = front ++ key :: rest →
          (∀ k ∈ front, Json.compare? (k.path.resolve v) (k.path.resolve w) = .eq) →
          Json.compare? (key.path.resolve v) (key.path.resolve w) ≠ .eq →
            keys.compare v w =
              key.direction.orient (Json.compare? (key.path.resolve v) (key.path.resolve w)) := by
  have hsorts := sorts_sort keys h
  refine ⟨hsorts, fun sorted => hsorts.unique h, fun items' => sort_perm h, fun v w => ⟨?_, ?_⟩⟩
  · simp only [compare_eq_eq_iff, SortKey.compare_eq_eq_iff]
  · rintro front rest key rfl hfront hkey
    exact compare_append_cons (fun k hk => SortKey.compare_eq_eq_iff.mpr (hfront k hk))
      fun heq => hkey (SortKey.compare_eq_eq_iff.mp heq)

/-- By amount, the greatest first, and then by tags. -/
def byAmountAndTags : SortKeys :=
  [⟨[.key "amount"], .descending⟩, ⟨[.key "tags", .each], .ascending⟩]

/-- Numbered documents with amounts below and beyond the signed integers, and without one. -/
def numberedDocuments : List (Nat × Json) :=
  [(0, .object [("tags", .array [.ofInt 1])]),
    (1, .object [("amount", .ofInt (-1)), ("tags", .array [.ofInt 2, .null])]),
    (2, .object [("amount", .ofInt 18446744073709551615)]),
    (3, .object [("amount", .ofInt (-1)), ("tags", .array [.ofInt 2])]),
    (4, .object [("amount", .ofInt (-1)), ("tags", .array [.ofInt 2, .null])])]

/-- Of the three documents with one amount the shorter tags come first, and the other two are equal
on both keys and stay as they were. -/
theorem sort_stable_numberedDocuments :
    (byAmountAndTags.sort Prod.snd numberedDocuments).map Prod.fst = [2, 3, 1, 4, 0] ∧
      byAmountAndTags.Sorts Prod.snd numberedDocuments
        (byAmountAndTags.sort Prod.snd numberedDocuments) :=
  ⟨by decide +kernel, (sort_stable byAmountAndTags Prod.snd (by decide +kernel)).1⟩

end SortKeys

end Chronicle
