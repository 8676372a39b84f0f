import Chronicle.Index
import Chronicle.Proofs.Ordered

set_option autoImplicit false

/-!
# The relation of an index

An index stands for a set of pairs of a lookup key and a primary key. Main statements: recording
and taking away change that set by the one pair that they name (`mem_get_insert`,
`mem_get_erase`), and a well-formed index is determined by it (`WellFormed.ext`).
-/

namespace Chronicle.Index

variable {κ ρ : Type} [Ord κ] [Ord ρ] {index : Index κ ρ}

/-- Keys and primary keys ascend, and no key stands over an empty set. -/
structure WellFormed (index : Index κ ρ) : Prop where
  keys : OrderedMap.Ascending index
  primaries : ∀ e ∈ index, OrderedSet.Ascending e.2
  nonempty : ∀ e ∈ index, e.2 ≠ []

theorem wellFormed_nil : WellFormed ([] : Index κ ρ) where
  keys := OrderedMap.ascending_nil
  primaries _ he := absurd he List.not_mem_nil
  nonempty _ he := absurd he List.not_mem_nil

omit [Ord ρ] in
theorem get_of_find? {k : κ} {primaries : OrderedSet ρ}
    (hk : OrderedMap.find? k index = some primaries) : index.get k = primaries := by
  simp [get, hk]

theorem erase_of_find? {k : κ} {primaries : OrderedSet ρ}
    (hk : OrderedMap.find? k index = some primaries) (p : ρ) :
    index.erase k p =
      if OrderedSet.erase p primaries = [] then OrderedMap.erase k index
      else OrderedMap.insert k (OrderedSet.erase p primaries) index := by
  rw [erase, hk]
  cases h : OrderedSet.erase p primaries <;> simp [h]

variable [Std.TransOrd κ] [Std.LawfulEqOrd κ]

/-- A key under which something is recorded stands in the index. -/
theorem find?_eq_some_get (h : WellFormed index) (k : κ) :
    OrderedMap.find? k index = if index.get k = [] then none else some (index.get k) := by
  cases hk : OrderedMap.find? k index with
  | none => simp [get, hk]
  | some primaries =>
      have hmem := (OrderedMap.find?_eq_some_iff h.keys k primaries).mp hk
      have hne : primaries ≠ [] := h.nonempty _ hmem
      rw [get_of_find? hk, if_neg hne]

theorem ascending_get (h : WellFormed index) (k : κ) : OrderedSet.Ascending (index.get k) := by
  cases hk : OrderedMap.find? k index with
  | none => simp [get, hk]
  | some primaries =>
      have hmem := (OrderedMap.find?_eq_some_iff h.keys k primaries).mp hk
      rw [get_of_find? hk]
      exact h.primaries _ hmem

theorem get_insert [DecidableEq κ] (k k' : κ) (p : ρ) (index : Index κ ρ) :
    (index.insert k p).get k' =
      if k' = k then OrderedSet.insert p (index.get k) else index.get k' := by
  unfold insert
  rw [get, OrderedMap.find?_insert]
  by_cases h : k' = k
  · simp [h]
  · simp [h, get]

theorem get_erase [DecidableEq κ] (h : WellFormed index) (k k' : κ) (p : ρ) :
    (index.erase k p).get k' =
      if k' = k then OrderedSet.erase p (index.get k) else index.get k' := by
  cases hk : OrderedMap.find? k index with
  | none =>
      -- nothing stands under the key, so nothing is taken away
      have hkeep : index.erase k p = index := by simp [erase, hk]
      rw [hkeep]
      by_cases hkk : k' = k
      · simp [hkk, get, hk, OrderedSet.erase]
      · simp [hkk]
  | some primaries =>
      rw [erase_of_find? hk, get_of_find? hk]
      -- with its last primary key the key goes, too
      by_cases hleft : OrderedSet.erase p primaries = []
      · rw [if_pos hleft, get, OrderedMap.find?_erase h.keys]
        by_cases hkk : k' = k <;> simp [hkk, hleft, get]
      · rw [if_neg hleft, get, OrderedMap.find?_insert]
        by_cases hkk : k' = k <;> simp [hkk, get]

/-- A well-formed index is given by what stands under its keys. -/
theorem WellFormed.ext_get {other : Index κ ρ} (h : WellFormed index) (h' : WellFormed other)
    (hget : ∀ k, index.get k = other.get k) : index = other := by
  refine OrderedMap.ext h.keys h'.keys ?_
  intro k
  rw [find?_eq_some_get h, find?_eq_some_get h', hget k]

variable [Std.TransOrd ρ]

/-- A well-formed index is given by the pairs that it stands for. -/
theorem WellFormed.ext {other : Index κ ρ} (h : WellFormed index) (h' : WellFormed other)
    (hmem : ∀ k p, p ∈ index.get k ↔ p ∈ other.get k) : index = other := by
  refine h.ext_get h' ?_
  intro k
  exact OrderedSet.ext (ascending_get h k) (ascending_get h' k) (hmem k)

variable [Std.LawfulEqOrd ρ]

/-- Taking a pair away takes that pair away and no other. -/
theorem mem_get_erase [DecidableEq κ] (h : WellFormed index) {k k' : κ} {p p' : ρ} :
    p' ∈ (index.erase k p).get k' ↔ ¬(k' = k ∧ p' = p) ∧ p' ∈ index.get k' := by
  rw [get_erase h]
  by_cases hkk : k' = k
  · subst hkk
    simp [OrderedSet.mem_erase (ascending_get h k')]
  · simp [hkk]

omit [Std.TransOrd ρ] in
/-- Recording a pair adds that pair and no other. -/
theorem mem_get_insert [DecidableEq κ] {k k' : κ} {p p' : ρ} :
    p' ∈ (index.insert k p).get k' ↔ (k' = k ∧ p' = p) ∨ p' ∈ index.get k' := by
  rw [get_insert]
  by_cases hkk : k' = k
  · simp [hkk]
  · simp [hkk]

omit [Std.TransOrd ρ] [Std.LawfulEqOrd ρ] in
/-- A set put under a key keeps the index well-formed. -/
theorem WellFormed.insert_set (h : WellFormed index) (k : κ) {primaries : OrderedSet ρ}
    (hasc : OrderedSet.Ascending primaries) (hne : primaries ≠ []) :
    WellFormed (OrderedMap.insert k primaries index) where
  keys := OrderedMap.ascending_insert _ _ h.keys
  primaries e he := by
    rcases OrderedMap.mem_insert he with rfl | he
    · exact hasc
    · exact h.primaries e he
  nonempty e he := by
    rcases OrderedMap.mem_insert he with rfl | he
    · exact hne
    · exact h.nonempty e he

theorem WellFormed.insert (h : WellFormed index) (k : κ) (p : ρ) :
    WellFormed (index.insert k p) :=
  h.insert_set k (OrderedSet.ascending_insert p (ascending_get h k))
    (OrderedSet.insert_ne_nil p _)

omit [Std.TransOrd ρ] [Std.LawfulEqOrd ρ] in
theorem WellFormed.erase (h : WellFormed index) (k : κ) (p : ρ) :
    WellFormed (index.erase k p) := by
  cases hk : OrderedMap.find? k index with
  | none =>
      have hkeep : index.erase k p = index := by simp [Index.erase, hk]
      rw [hkeep]
      exact h
  | some primaries =>
      have hmem := (OrderedMap.find?_eq_some_iff h.keys k primaries).mp hk
      rw [erase_of_find? hk]
      -- an empty set is not kept, so that no key stands over one
      by_cases hleft : OrderedSet.erase p primaries = []
      · rw [if_pos hleft]
        have hsub := OrderedMap.erase_sublist k index
        exact {
          keys := OrderedMap.ascending_erase k h.keys
          primaries := fun e he => h.primaries e (hsub.subset he)
          nonempty := fun e he => h.nonempty e (hsub.subset he) }
      · rw [if_neg hleft]
        exact h.insert_set k (OrderedSet.ascending_erase p (h.primaries _ hmem)) hleft

end Chronicle.Index
