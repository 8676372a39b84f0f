import Chronicle.Proofs.Index
import Mathlib.Data.Finset.Card
import Mathlib.Data.Finset.Image

set_option autoImplicit false

/-!
# An index after any changes

Whatever changes are made to an index, it stands for a finite set of pairs, and each change makes
of that set what its name says: a pair is added, taken away, or all are. One change keeps the index
and the set together (`Relates.change`), and so does any list of them (`relates_after`). Main
statement: all that an index answers is told by that set, and by no other (`represents_after`).
-/

namespace Chronicle.Index

variable {κ ρ : Type}

/-! ## Changes of a set of pairs -/

section

variable [DecidableEq κ] [DecidableEq ρ]

/-- The pairs that are recorded once a change is made. -/
def Change.record (pairs : Finset (κ × ρ)) : Change κ ρ → Finset (κ × ρ)
  | .insert key primary => {(key, primary)} ∪ pairs
  | .erase key primary => pairs.erase (key, primary)
  | .clear => ∅

/-- The pairs that are recorded by changes that are made one after another, at first none. -/
def recorded (changes : List (Change κ ρ)) : Finset (κ × ρ) := changes.foldl Change.record ∅

theorem recorded_concat (changes : List (Change κ ρ)) (c : Change κ ρ) :
    recorded (changes ++ [c]) = c.record (recorded changes) := List.foldl_append

end

/-! ## The same changes of an index -/

variable [Ord κ] [Ord ρ]

/-- The index after changes that are made one after another, at first an empty one. -/
def after (changes : List (Change κ ρ)) : Index κ ρ :=
  changes.foldl (fun index c => (index.change c).1) []

theorem after_concat (changes : List (Change κ ρ)) (c : Change κ ρ) :
    after (changes ++ [c]) = ((after changes).change c).1 := List.foldl_append

/-- The index is well-formed, and the pairs are those that it records. -/
structure Relates (index : Index κ ρ) (pairs : Finset (κ × ρ)) : Prop extends
    WellFormed index where
  mem_get : ∀ k p, p ∈ index.get k ↔ (k, p) ∈ pairs

variable {index : Index κ ρ} {pairs : Finset (κ × ρ)}

theorem relates_nil : Relates ([] : Index κ ρ) ∅ where
  toWellFormed := wellFormed_nil
  mem_get k p := by simp [get]

variable [Std.TransOrd κ] [Std.LawfulEqOrd κ] [Std.TransOrd ρ] [Std.LawfulEqOrd ρ]

/-- A change is made to the index and to the pairs alike. -/
theorem Relates.change [DecidableEq κ] [DecidableEq ρ] (h : Relates index pairs)
    (c : Change κ ρ) : Relates (index.change c).1 (c.record pairs) := by
  cases c with
  | insert key primary =>
      refine { toWellFormed := h.toWellFormed.insert key primary, mem_get := ?_ }
      intro k p
      have hinsert : p ∈ (index.insert key primary).get k ↔
          (k = key ∧ p = primary) ∨ p ∈ index.get k := mem_get_insert
      simp [Index.change, Change.record, hinsert, h.mem_get]
  | erase key primary =>
      refine { toWellFormed := h.toWellFormed.erase key primary, mem_get := ?_ }
      intro k p
      have herase : p ∈ (index.erase key primary).get k ↔
          ¬(k = key ∧ p = primary) ∧ p ∈ index.get k := mem_get_erase h.toWellFormed
      simp [Index.change, Change.record, herase, h.mem_get]
  | clear => exact relates_nil

theorem relates_after [DecidableEq κ] [DecidableEq ρ] (changes : List (Change κ ρ)) :
    Relates (after changes) (recorded changes) := by
  induction changes using List.reverseRecOn with
  | nil => exact relates_nil
  | append_singleton changes c ih =>
      rw [after_concat, recorded_concat]
      exact ih.change c

/-! ## What an index answers -/

section Keys

omit [Std.TransOrd ρ] [Std.LawfulEqOrd ρ]

/-- The keys that stand in an index are those with something recorded under them. -/
theorem WellFormed.mem_keys_iff (h : WellFormed index) (k : κ) :
    k ∈ index.map Prod.fst ↔ index.get k ≠ [] := by
  constructor
  · intro hk
    obtain ⟨⟨k', primaries⟩, hmem, rfl⟩ := List.mem_map.mp hk
    have hfind := (OrderedMap.find?_eq_some_iff h.keys k' primaries).mpr hmem
    rw [get_of_find? hfind]
    exact h.nonempty _ hmem
  · intro hget
    have hfind := find?_eq_some_get h k
    rw [if_neg hget, OrderedMap.find?_eq_some_iff h.keys] at hfind
    exact List.mem_map_of_mem hfind

theorem WellFormed.containsKey_iff (h : WellFormed index) (k : κ) :
    index.containsKey k = true ↔ index.get k ≠ [] := by
  rw [containsKey, OrderedMap.contains, find?_eq_some_get h]
  by_cases hget : index.get k = []
  · simp [hget]
  · simp [hget]

/-- An index has as many entries as there are keys in its pairs. -/
theorem Relates.length_eq [DecidableEq κ] (h : Relates index pairs) :
    index.length = (pairs.image Prod.fst).card := by
  have hnodup : (index.map Prod.fst).Nodup :=
    OrderedSet.Ascending.nodup (List.pairwise_map.mpr h.keys)
  have hkeys : (index.map Prod.fst).toFinset = pairs.image Prod.fst := by
    ext k
    rw [List.mem_toFinset, h.mem_keys_iff, Ne, List.eq_nil_iff_forall_not_mem]
    simp [h.mem_get]
  rw [← hkeys, List.toFinset_card_of_nodup hnodup, List.length_map]

end Keys

theorem Relates.has_eq [DecidableEq κ] [DecidableEq ρ] (h : Relates index pairs) (k : κ) (p : ρ) :
    index.has k p = decide ((k, p) ∈ pairs) := by
  have hcontains : index.has k p = true ↔ p ∈ index.get k :=
    OrderedSet.contains_iff_mem (ascending_get h.toWellFormed k)
  rw [h.mem_get] at hcontains
  exact Bool.eq_iff_iff.mpr (hcontains.trans decide_eq_true_iff.symm)

/-- The pairs tell all that the index answers. -/
structure Represents [DecidableEq κ] [DecidableEq ρ] (index : Index κ ρ)
    (pairs : Finset (κ × ρ)) : Prop where
  ascending_get : ∀ k, OrderedSet.Ascending (index.get k)
  mem_get : ∀ k p, p ∈ index.get k ↔ (k, p) ∈ pairs
  containsKey : ∀ k, index.containsKey k = true ↔ index.get k ≠ []
  /-- A key counts once, however many pairs it is in. -/
  length : index.length = (pairs.image Prod.fst).card
  isEmpty : index.isEmpty = true ↔ pairs = ∅
  /-- Recording a pair answers whether it is new. -/
  insert : ∀ k p, (index.change (.insert k p)).2 = some (decide ((k, p) ∉ pairs))
  /-- Taking a pair away answers whether it was there. -/
  erase : ∀ k p, (index.change (.erase k p)).2 = some (decide ((k, p) ∈ pairs))

theorem Relates.represents [DecidableEq κ] [DecidableEq ρ] (h : Relates index pairs) :
    Represents index pairs where
  ascending_get := Index.ascending_get h.toWellFormed
  mem_get := h.mem_get
  containsKey := h.containsKey_iff
  length := h.length_eq
  isEmpty := by
    -- no key stands over an empty set, so an index without pairs has no entries
    rw [List.isEmpty_iff_length_eq_zero, h.length_eq, Finset.card_eq_zero, Finset.image_eq_empty]
  insert k p := by simp [Index.change, h.has_eq]
  erase k p := by simp [Index.change, h.has_eq]

/--
An index stands for a finite set of pairs, whatever changes were made to it: it represents the pairs
that the changes record, and it represents no others.
-/
theorem represents_after [DecidableEq κ] [DecidableEq ρ] (changes : List (Change κ ρ))
    (pairs : Finset (κ × ρ)) : Represents (after changes) pairs ↔ pairs = recorded changes := by
  have hafter := relates_after changes
  constructor
  · intro hpairs
    ext ⟨k, p⟩
    rw [← hpairs.mem_get, hafter.mem_get]
  · rintro rfl
    exact hafter.represents

/-- Pairs of a customer and an order. After the index was cleared, one pair is recorded twice, pairs
that are not there are taken away under customers who have others, and of two customers who lose
their last order one gets it back. -/
def orderChanges : List (Change String Nat) :=
  [.insert "bob" 7, .clear, .insert "ann" 3, .insert "bob" 2, .insert "ann" 1, .insert "ann" 3,
    .erase "ann" 2, .erase "bob" 2, .insert "bob" 2, .erase "bob" 7, .insert "eve" 5,
    .erase "eve" 5]

/-- Three pairs are left, under two keys. -/
theorem represents_after_orderChanges :
    Represents (after orderChanges) {("ann", 1), ("ann", 3), ("bob", 2)} :=
  (represents_after orderChanges _).mpr (by decide)

end Chronicle.Index
