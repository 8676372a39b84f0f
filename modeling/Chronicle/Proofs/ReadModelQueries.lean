import Chronicle.Proofs.Shelf
import Chronicle.Proofs.StableSort
import Chronicle.Registry.Memory

set_option autoImplicit false

/-!
# Queries of read models

A query that fixes a type and an id looks under that key, one that fixes a type only goes through
the index by type, and any other scans all documents. Main statement: whatever is loaded, stored
and removed, each of these ways leads to the answer that a scan of all documents in key order
gives, ties and pages included (`index_and_queries_of_reached`).
-/

namespace Chronicle

namespace ReadModelQuery

variable {q : ReadModelQuery} {m : ReadModel}

theorem typeName_of_matches {typeName : ReadModelTypeName} (hq : q.typeName = some typeName)
    (h : q.matchesReadModel m = true) : m.typeName = typeName := by
  simp only [matchesReadModel, hq, Option.all_some, Bool.and_eq_true, beq_iff_eq] at h
  exact h.1.1.1.symm

theorem id_of_matches {id : ReadModelId} (hq : q.id = some id)
    (h : q.matchesReadModel m = true) : m.id = id := by
  simp only [matchesReadModel, hq, Option.all_some, Bool.and_eq_true, beq_iff_eq] at h
  exact h.1.1.2.symm

/-- Without skip and limit a query answers as many read models as match. -/
theorem length_execute_unpaged (q : ReadModelQuery) (candidates : List ReadModel) :
    (({ q with skip := none, limit := none } : ReadModelQuery).execute candidates).length =
      (candidates.filter q.matchesReadModel).length := by
  rw [execute, List.length_map]
  exact (stableSort_perm _ _).length_eq

end ReadModelQuery

namespace Shelf

variable {shelf : Shelf}

/-- The documents of one type, found by the index, are in key order. -/
theorem ascending_ofType (h : shelf.Keyed) (typeName : ReadModelTypeName) :
    ((Index.get typeName shelf.byType).filterMap fun id =>
      shelf.find? ⟨typeName, id⟩).Pairwise fun m n => compare m.key n.key = .lt := by
  refine (Index.ascending_get h.index typeName).filterMap _ ?_
  intro id id' hlt m hm n hn
  rw [h.key_of_find? _ m hm, h.key_of_find? _ n hn]
  -- within one type the ids decide
  show (compare typeName typeName).then (compare id id') = .lt
  rw [Std.ReflOrd.compare_self]
  exact hlt

/-- The candidates of a query are in key order, whichever way they are found. -/
theorem ascending_candidates (h : shelf.Keyed) (q : ReadModelQuery) :
    (shelf.candidates q).Pairwise fun m n => compare m.key n.key = .lt := by
  unfold candidates
  split
  · next typeName id _ _ =>
      cases shelf.find? ⟨typeName, id⟩ with
      | none => exact List.Pairwise.nil
      | some m => exact List.pairwise_singleton _ m
  · next typeName _ _ => exact ascending_ofType h typeName
  · exact h.ascending_readModels

/-- A read model that matches a query is among the candidates exactly if it is stored. -/
theorem mem_candidates_iff (h : shelf.Keyed) {q : ReadModelQuery} {m : ReadModel}
    (hm : q.matchesReadModel m = true) :
    m ∈ shelf.candidates q ↔ shelf.find? m.key = some m := by
  unfold candidates
  split
  · next typeName id htype hid =>
      -- the query fixes the key
      have hkey : m.key = ⟨typeName, id⟩ := by
        rw [ReadModel.key, ReadModelQuery.typeName_of_matches htype hm,
          ReadModelQuery.id_of_matches hid hm]
      rw [Option.mem_toList, hkey]
  · next typeName htype _ =>
      have hkey : (⟨typeName, m.id⟩ : ReadModelKey) = m.key := by
        rw [← ReadModelQuery.typeName_of_matches htype hm]
        rfl
      rw [List.mem_filterMap]
      constructor
      · rintro ⟨id, -, hfound⟩
        rw [h.key_of_find? _ m hfound]
        exact hfound
      · intro hfound
        refine ⟨m.id, ?_, hkey ▸ hfound⟩
        rw [h.indexed, hkey, hfound]
        rfl
  · exact h.mem_readModels m

/-- Among the candidates match the same documents, in the same order, as among all. -/
theorem filter_candidates (h : shelf.Keyed) (q : ReadModelQuery) :
    (shelf.candidates q).filter q.matchesReadModel =
      shelf.readModels.filter q.matchesReadModel := by
  refine eq_of_ascending ReadModel.key ((ascending_candidates h q).filter _)
    (h.ascending_readModels.filter _) ?_
  intro m
  rw [List.mem_filter, List.mem_filter]
  refine and_congr_left fun hm => ?_
  rw [mem_candidates_iff h hm, h.mem_readModels]

/-- The shelves that a registry in memory comes to. -/
inductive Reached : Shelf → Prop
  | fromRecords (records : List StoredReadModel) : Reached (.ofRecords records)
  | restore {shelf : Shelf} (h : Reached shelf) (records : List StoredReadModel) :
      Reached (Shelf.restore records shelf).2
  | store {shelf : Shelf} (h : Reached shelf) (m : ReadModel) (expected : Nat) :
      Reached (registry.store m expected shelf).2
  | deleteById {shelf : Shelf} (h : Reached shelf) (id : ReadModelId)
      (typeName : ReadModelTypeName) : Reached (registry.deleteById id typeName shelf).2
  | deleteAll {shelf : Shelf} (h : Reached shelf) : Reached (registry.deleteAll shelf).2

/-- A store puts the read model on the shelf, or fails and leaves the shelf as it is. -/
theorem store_cases (m : ReadModel) (expected : Nat) (shelf : Shelf) :
    Shelf.store m expected shelf = (.ok (.ofReadModel m), shelf.insert m) ∨
      ∃ e, Shelf.store m expected shelf = (.error e, shelf) := by
  unfold Shelf.store
  split
  · exact Or.inr ⟨_, rfl⟩
  · dsimp only
    split
    · exact Or.inr ⟨_, rfl⟩
    · exact Or.inl rfl

theorem Keyed.store (h : shelf.Keyed) (m : ReadModel) (expected : Nat) :
    (Shelf.store m expected shelf).2.Keyed := by
  rcases store_cases m expected shelf with hstored | ⟨e, hrefused⟩
  · rw [hstored]
    exact h.insert m
  · rw [hrefused]
    exact h

theorem keyed_of_reached (h : Reached shelf) : shelf.Keyed := by
  induction h with
  | fromRecords records => exact keyed_ofRecords records
  | restore _ records _ => exact keyed_ofRecords records
  | store _ m expected ih => exact ih.store m expected
  | deleteById _ id typeName ih => exact ih.erase _
  | deleteAll _ _ => exact keyed_empty

/--
In every state that a registry in memory comes to, the index by type holds exactly the types and
ids of the stored documents, and no type without ids; a query answers what it selects from all
documents in the order of their keys, whichever way it takes to them; and its count is the number
of read models that it answers once its skip and limit are removed.
-/
theorem index_and_queries_of_reached (h : Reached shelf) :
    (∀ typeName id, id ∈ Index.get typeName shelf.byType ↔
      ∃ m ∈ shelf.readModels, m.typeName = typeName ∧ m.id = id) ∧
    (∀ entry ∈ shelf.byType, entry.2 ≠ []) ∧
    (∀ m, m ∈ shelf.readModels ↔ shelf.find? m.key = some m) ∧
    (shelf.readModels.Pairwise fun m n => compare m.key n.key = .lt) ∧
    (∀ q, registry.query q shelf = (.ok (q.execute shelf.readModels), shelf)) ∧
    (∀ q : ReadModelQuery, ∃ found,
      registry.query { q with skip := none, limit := none } shelf = (.ok found, shelf) ∧
        registry.count (some q) shelf = (.ok found.length, shelf)) := by
  have hk := keyed_of_reached h
  have hquery : ∀ q, registry.query q shelf = (.ok (q.execute shelf.readModels), shelf) := by
    intro q
    show (Except.ok (q.execute (shelf.candidates q)), shelf) = _
    simp only [ReadModelQuery.execute, ReadModelQuery.arrange, filter_candidates hk]
  refine ⟨?_, hk.index.nonempty, hk.mem_readModels, hk.ascending_readModels, hquery, ?_⟩
  · intro typeName id
    rw [hk.indexed, Option.isSome_iff_exists]
    constructor
    · rintro ⟨m, hm⟩
      have hkey := hk.key_of_find? _ m hm
      refine ⟨m, (hk.mem_readModels m).mpr (hkey ▸ hm), ?_⟩
      cases hkey
      exact ⟨rfl, rfl⟩
    · rintro ⟨m, hm, rfl, rfl⟩
      exact ⟨m, (hk.mem_readModels m).mp hm⟩
  · intro q
    refine ⟨_, hquery _, ?_⟩
    show (Except.ok ((shelf.candidates q).filter q.matchesReadModel).length, shelf) = _
    rw [filter_candidates hk, ReadModelQuery.length_execute_unpaged]

/-! ## Cards of two kinds -/

/-- The type of cards. -/
def cardType : ReadModelTypeName := ⟨"Card", by decide, by decide, by decide, by decide⟩

/-- A card, all of which are alike but for their ids. -/
def card (id : ReadModelId) : ReadModel := ⟨cardType, id, .object [("suit", .string "hearts")]⟩

def ace : ReadModelId := ⟨"ace", by decide, by decide, by decide, by decide⟩

def king : ReadModelId := ⟨"king", by decide, by decide, by decide, by decide⟩

/-- Cards by suit, without the first. -/
def secondBySuit : ReadModelQuery :=
  { typeName := some cardType, sortBy := [⟨[.key "suit"], .ascending⟩], skip := some 1 }

/-- The king comes first and is put behind the ace; an old ace is gone before that. -/
theorem index_and_queries_of_cards :
    ∃ shelf, Reached shelf ∧ king ∈ Index.get cardType shelf.byType ∧
      registry.query secondBySuit shelf = (.ok [card king], shelf) ∧
      registry.query { secondBySuit with typeName := none } shelf = (.ok [card king], shelf) ∧
      registry.count (some secondBySuit) shelf = (.ok 2, shelf) := by
  have hold := Reached.fromRecords [.ofReadModel (card king), .ofReadModel (card ace)]
  have hgone := hold.deleteById ace cardType
  have hnew := hgone.store (card ace) 0
  obtain ⟨hindex, -, hstored, -, hquery, hcount⟩ := index_and_queries_of_reached hnew
  have hking := (hstored (card king)).mpr rfl
  refine ⟨_, hnew, (hindex cardType king).mpr ⟨card king, hking, rfl, rfl⟩, hquery _, hquery _, ?_⟩
  obtain ⟨found, hfound, hnumber⟩ := hcount secondBySuit
  have hboth := hfound.symm.trans (hquery _)
  have hcards : found = [card ace, card king] := Except.ok.inj (Prod.ext_iff.mp hboth).1
  rw [hnumber, hcards]
  rfl

end Shelf

end Chronicle
