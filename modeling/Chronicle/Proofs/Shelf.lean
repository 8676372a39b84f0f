import Chronicle.Proofs.Index
import Chronicle.ReadModel.Shelf

set_option autoImplicit false

/-!
# The contents of a shelf

What storing and removing do to the read models that are found on a shelf. Main statements: the
index by type leads to exactly the read models that are stored (`WellFormed`), whatever is done;
and a shelf is made again of its own records (`Keyed.ofRecords_records`).
-/

namespace Chronicle.Shelf

variable {shelf : Shelf}

/-- Documents and index ascend, and the index pairs the type of each document with its id. -/
structure WellFormed (shelf : Shelf) : Prop where
  documents : OrderedMap.Ascending shelf.documents
  index : Index.WellFormed shelf.byType
  indexed : ∀ typeName id, id ∈ Index.get typeName shelf.byType ↔
    (shelf.find? ⟨typeName, id⟩).isSome

theorem wellFormed_empty : WellFormed empty where
  documents := OrderedMap.ascending_nil
  index := Index.wellFormed_nil
  indexed _ _ := by simp [empty, Index.get, find?]

/-- A stored read model is found under its key, and nothing else changes. -/
theorem find?_insert (m : ReadModel) (key : ReadModelKey) (shelf : Shelf) :
    (shelf.insert m).find? key = if key = m.key then some m else shelf.find? key :=
  OrderedMap.find?_insert _ _ _ _

/-- Nothing is found under the key of a removed read model, and nothing else changes. -/
theorem find?_erase (h : shelf.WellFormed) (key key' : ReadModelKey) :
    (shelf.erase key).find? key' = if key' = key then none else shelf.find? key' := by
  unfold erase
  cases hkey : shelf.find? key with
  | none =>
      -- nothing was found under the key before
      by_cases hkk : key' = key
      · simp [hkk, hkey]
      · simp [hkk]
  | some m => exact OrderedMap.find?_erase h.documents key key'

@[simp] theorem find?_empty (key : ReadModelKey) : empty.find? key = none := rfl

theorem WellFormed.insert (h : shelf.WellFormed) (m : ReadModel) :
    (shelf.insert m).WellFormed where
  documents := OrderedMap.ascending_insert _ _ h.documents
  index := h.index.insert _ _
  indexed typeName id := by
    rw [find?_insert, Shelf.insert, Index.mem_get_insert, h.indexed]
    by_cases hkey : (⟨typeName, id⟩ : ReadModelKey) = m.key
    -- the pair of the new document; it may have been there before
    · have hparts : typeName = m.typeName ∧ id = m.id := by
        cases hkey
        exact ⟨rfl, rfl⟩
      rw [if_pos hkey]
      simp [hparts]
    · have hparts : ¬(typeName = m.typeName ∧ id = m.id) := by
        rintro ⟨rfl, rfl⟩
        exact hkey rfl
      rw [if_neg hkey]
      simp [hparts]

theorem WellFormed.erase (h : shelf.WellFormed) (key : ReadModelKey) :
    (shelf.erase key).WellFormed := by
  have hfound := find?_erase h key
  unfold Shelf.erase at hfound ⊢
  cases hkey : shelf.find? key with
  -- what is not there need not be removed
  | none => exact h
  | some m =>
      rw [hkey] at hfound
      refine ⟨OrderedMap.ascending_erase _ h.documents, h.index.erase _ _, ?_⟩
      intro typeName id
      rw [hfound, Index.mem_get_erase h.index, h.indexed]
      by_cases hkk : (⟨typeName, id⟩ : ReadModelKey) = key
      · subst hkk
        simp
      · have hparts : ¬(typeName = key.typeName ∧ id = key.id) := by
          rintro ⟨rfl, rfl⟩
          exact hkk rfl
        simp [hkk, hparts]

/-! ## Documents under their own keys -/

/-- A well-formed shelf that keeps each document under the key of that document. -/
structure Keyed (shelf : Shelf) : Prop extends WellFormed shelf where
  key_of_find? : ∀ key m, shelf.find? key = some m → m.key = key

theorem keyed_empty : Keyed empty where
  toWellFormed := wellFormed_empty
  key_of_find? _ _ hm := by cases hm

theorem Keyed.insert (h : shelf.Keyed) (m : ReadModel) : (shelf.insert m).Keyed where
  toWellFormed := h.toWellFormed.insert m
  key_of_find? key m' hm := by
    rw [find?_insert] at hm
    split at hm
    · next hkey =>
        cases hm
        exact hkey.symm
    · exact h.key_of_find? key m' hm

theorem Keyed.erase (h : shelf.Keyed) (key : ReadModelKey) : (shelf.erase key).Keyed where
  toWellFormed := h.toWellFormed.erase key
  key_of_find? key' m hm := by
    rw [find?_erase h.toWellFormed] at hm
    split at hm
    · cases hm
    · exact h.key_of_find? key' m hm

/-- A shelf made of records keeps each of them under its key. -/
theorem keyed_ofRecords (records : List StoredReadModel) : (ofRecords records).Keyed := by
  have hfold : ∀ shelf : Shelf, shelf.Keyed →
      (records.foldl (fun shelf r => shelf.insert r.readModel) shelf).Keyed := by
    induction records with
    | nil => exact fun shelf h => h
    | cons r records ih => exact fun shelf h => ih _ (h.insert r.readModel)
  exact hfold empty keyed_empty

/-- The index of a well-formed shelf is given by what is found on it. -/
theorem WellFormed.ext {other : Shelf} (h : shelf.WellFormed) (h' : other.WellFormed)
    (hfind : ∀ key, shelf.find? key = other.find? key) : shelf = other := by
  have hdocuments : shelf.documents = other.documents :=
    OrderedMap.ext h.documents h'.documents hfind
  have hindex : shelf.byType = other.byType := by
    refine h.index.ext h'.index ?_
    intro typeName id
    rw [h.indexed, h'.indexed, hfind]
  cases shelf
  cases other
  cases hdocuments
  cases hindex
  rfl

theorem Keyed.mem_readModels (h : shelf.Keyed) (m : ReadModel) :
    m ∈ shelf.readModels ↔ shelf.find? m.key = some m := by
  rw [readModels, List.mem_map]
  constructor
  · rintro ⟨⟨key, m'⟩, hentry, rfl⟩
    have hfound := (OrderedMap.find?_eq_some_iff h.documents key m').mpr hentry
    obtain rfl : m'.key = key := h.key_of_find? key m' hfound
    exact hfound
  · intro hfound
    exact ⟨(m.key, m), (OrderedMap.find?_eq_some_iff h.documents m.key m).mp hfound, rfl⟩

/-- The documents of a shelf stand in the order of their keys. -/
theorem Keyed.ascending_readModels (h : shelf.Keyed) :
    shelf.readModels.Pairwise fun m n => compare m.key n.key = .lt := by
  refine List.pairwise_map.mpr (h.documents.imp_of_mem ?_)
  intro e f he hf hlt
  have hkey : ∀ e ∈ shelf.documents, e.2.key = e.1 := fun e he =>
    h.key_of_find? e.1 e.2 ((OrderedMap.find?_eq_some_iff h.documents e.1 e.2).mpr he)
  rw [hkey e he, hkey f hf]
  exact hlt

/-- Documents that are found on another shelf are found as they are there once they are stored. -/
theorem find?_foldl_insert {other : Shelf} {documents : List ReadModel}
    (h : ∀ m ∈ documents, other.find? m.key = some m) (shelf : Shelf) (key : ReadModelKey) :
    (documents.foldl (fun shelf m => shelf.insert m) shelf).find? key =
      if key ∈ documents.map ReadModel.key then other.find? key else shelf.find? key := by
  induction documents generalizing shelf with
  | nil => rfl
  | cons m rest ih =>
      rw [List.foldl_cons, ih (fun n hn => h n (List.mem_cons_of_mem _ hn)), find?_insert]
      by_cases hrest : key ∈ rest.map ReadModel.key
      · simp [hrest]
      · by_cases hkey : key = m.key
        · simp [hkey, h m List.mem_cons_self]
        · simp [hrest, hkey]

/-- A shelf is made again of its own records. -/
theorem Keyed.ofRecords_records (h : shelf.Keyed) : ofRecords shelf.records = shelf := by
  have hfold : ofRecords shelf.records =
      shelf.readModels.foldl (fun shelf m => shelf.insert m) empty := List.foldl_map
  refine (keyed_ofRecords _).toWellFormed.ext h.toWellFormed fun key => ?_
  rw [hfold, find?_foldl_insert (fun m hm => (h.mem_readModels m).mp hm), find?_empty]
  split
  · rfl
  · next hkey =>
      -- a document under another key than the stored ones would be stored
      cases hfound : shelf.find? key with
      | none => rfl
      | some m =>
          have hmkey := h.key_of_find? key m hfound
          have hmem := (h.mem_readModels m).mpr (hmkey.symm ▸ hfound)
          exact absurd (hmkey ▸ List.mem_map_of_mem hmem) hkey

end Chronicle.Shelf
