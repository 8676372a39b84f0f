import Chronicle.Proofs.Isolation
import Chronicle.Proofs.ReadModelQueries
import Chronicle.Proofs.ReadModelVersions

set_option autoImplicit false

/-!
# Expected versions

A store of a version above 1 says which version it expects to replace, and this alone is compared
with what is stored. Main statements: such a store replaces exactly the version that it expects,
and as long as the stores under a key expect the version before their own, the version of the key
grows by one at a time (`version_replaced_by_store`); with other expectations it may jump
(`version_may_jump`).
-/

namespace Chronicle

/-- The version that is stored under a key. -/
def Shelf.version? (key : ReadModelKey) (shelf : Shelf) : Option Nat :=
  (shelf.find? key).map ReadModel.version

namespace ReadModelRequest

/-- Whether the request starts the versions of a key anew, or removes what stands there. -/
def Resets (key : ReadModelKey) : ReadModelRequest → Prop
  | store m _ => m.key = key ∧ m.version = 1
  | deleteById id typeName => ⟨typeName, id⟩ = key
  | deleteAll => True
  | query _ | count _ => False

/-- A store of a version above 1 under a key expects the version before its own. -/
def ExpectsPrevious (key : ReadModelKey) : ReadModelRequest → Prop
  | store m expected => m.key = key → 1 < m.version → expected + 1 = m.version
  | deleteById _ _ | deleteAll | query _ | count _ => True

/-- The versions of a key on a shelf and after each of the requests that are served there. -/
def versionsThrough (key : ReadModelKey) : List ReadModelRequest → Shelf → List (Option Nat)
  | [], shelf => [shelf.version? key]
  | r :: rest, shelf =>
      shelf.version? key :: versionsThrough key rest (r.ask Shelf.registry shelf).2

end ReadModelRequest

namespace Shelf

open ReadModelRequest

variable {shelf : Shelf} {key : ReadModelKey}

/-- A store of a version above 1 succeeds exactly if it expects the stored version. -/
theorem store_isOk_iff {m : ReadModel} (hv : 1 < m.version) (expected : Nat) :
    (registry.store m expected shelf).1.isOk ↔ shelf.version? m.key = some expected := by
  show (Shelf.store m expected shelf).1.isOk ↔ (shelf.find? m.key).map ReadModel.version = _
  have hzero : m.version ≠ 0 := by omega
  rw [Shelf.store, if_neg hzero]
  by_cases hcurrent : (shelf.find? m.key).map ReadModel.version = some expected
  · simp [hcurrent, Except.isOk, Except.toBool]
  · simp [hv, hcurrent, Except.isOk, Except.toBool]

/-- A store that succeeds puts the read model on the shelf. -/
theorem store_of_isOk {m : ReadModel} {expected : Nat}
    (h : (Shelf.store m expected shelf).1.isOk) :
    Shelf.store m expected shelf = (.ok (.ofReadModel m), shelf.insert m) := by
  rcases store_cases m expected shelf with hstored | ⟨e, hrefused⟩
  · exact hstored
  · rw [hrefused] at h
    exact absurd h Bool.false_ne_true

/-- A store that fails changes nothing. -/
theorem store_of_not_isOk {m : ReadModel} {expected : Nat}
    (h : ¬(Shelf.store m expected shelf).1.isOk) : (Shelf.store m expected shelf).2 = shelf := by
  rcases store_cases m expected shelf with hstored | ⟨e, hrefused⟩
  · rw [hstored] at h
    exact absurd rfl h
  · rw [hrefused]

theorem version_ne_zero_of_isOk {m : ReadModel} {expected : Nat}
    (h : (Shelf.store m expected shelf).1.isOk) : m.version ≠ 0 := by
  intro hzero
  rw [Shelf.store, if_pos hzero] at h
  exact Bool.false_ne_true h

/-- Every request leaves a shelf that a registry in memory comes to. -/
theorem Reached.ask (h : Reached shelf) (r : ReadModelRequest) :
    Reached (r.ask registry shelf).2 := by
  cases r with
  | store m expected =>
      rw [ReadModelRequest.ask, Fallible.state_of_forget]
      exact h.store m expected
  | deleteById id typeName => exact h.deleteById id typeName
  | deleteAll => exact h.deleteAll
  | query q => exact h
  | count q => exact h

/-- A request that does not reset the key and expects the version before its own leaves the
version of the key, or adds one to it. -/
theorem version_step (hs : shelf.WellFormed) {r : ReadModelRequest} (hreset : ¬r.Resets key)
    (hprevious : r.ExpectsPrevious key) :
    (r.ask registry shelf).2.version? key = shelf.version? key ∨
      (r.ask registry shelf).2.version? key = (shelf.version? key).map (· + 1) := by
  cases r with
  | store m expected =>
      rw [ReadModelRequest.ask, Fallible.state_of_forget]
      have hstore : registry.store m expected = Shelf.store m expected := rfl
      by_cases hok : (Shelf.store m expected shelf).1.isOk
      · rw [hstore, store_of_isOk hok, version?, find?_insert]
        by_cases hkey : key = m.key
        · -- the store is under the key, so its version follows
          have hv : 1 < m.version := by
            have hone : m.version ≠ 1 := fun hone => hreset ⟨hkey.symm, hone⟩
            have hzero := version_ne_zero_of_isOk hok
            omega
          have hcurrent := (store_isOk_iff hv expected).mp hok
          rw [if_pos hkey, Option.map_some, hkey, hcurrent, Option.map_some]
          exact Or.inr (congrArg some (hprevious hkey.symm hv).symm)
        · rw [if_neg hkey]
          exact Or.inl rfl
      · rw [hstore, store_of_not_isOk hok]
        exact Or.inl rfl
  | deleteById id typeName =>
      have hother : key ≠ ⟨typeName, id⟩ := fun hkey => hreset hkey.symm
      refine Or.inl ?_
      show ((shelf.erase ⟨typeName, id⟩).find? key).map _ = _
      rw [find?_erase hs, if_neg hother]
      rfl
  | deleteAll => exact absurd trivial hreset
  | query q => exact Or.inl rfl
  | count q => exact Or.inl rfl

/-- Along a run of such requests the version of the key grows by one at a time. -/
theorem versionsThrough_isChain (h : Reached shelf) {requests : List ReadModelRequest}
    (hrequests : ∀ r ∈ requests, ¬r.Resets key ∧ r.ExpectsPrevious key) :
    (versionsThrough key requests shelf).IsChain fun v w => w = v ∨ w = v.map (· + 1) := by
  induction requests generalizing shelf with
  | nil => exact .singleton _
  | cons r rest ih =>
      obtain ⟨⟨hreset, hprevious⟩, hrest⟩ := List.forall_mem_cons.mp hrequests
      have hstep := version_step (keyed_of_reached h).toWellFormed hreset hprevious
      have hchain := ih (h.ask r) hrest
      -- the rest of the run starts at the version that this request left
      cases rest <;> exact .cons_cons hstep hchain

/--
In every state that a registry in memory comes to, a store of a version above 1 succeeds exactly
if the version that it expects is the stored one, which it then replaces; so it replaces the
version before its own if it expects that one. And as long as a key is not reset and each store of
a version above 1 under it expects the version before its own, the stored version of the key never
changes but by growing by one, and an absent key stays absent.
-/
theorem version_replaced_by_store (h : Reached shelf) :
    (∀ (m : ReadModel) (expected : Nat), 1 < m.version →
      ((registry.store m expected shelf).1.isOk ↔ shelf.version? m.key = some expected) ∧
      ((registry.store m expected shelf).1.isOk →
        (registry.store m expected shelf).2.version? m.key = some m.version)) ∧
    (∀ (key : ReadModelKey) (requests : List ReadModelRequest),
      (∀ r ∈ requests, ¬r.Resets key ∧ r.ExpectsPrevious key) →
      (versionsThrough key requests shelf).IsChain fun v w => w = v ∨ w = v.map (· + 1)) := by
  refine ⟨fun m expected hv => ⟨store_isOk_iff hv expected, fun hok => ?_⟩, ?_⟩
  · have hstored := store_of_isOk hok
    show (Shelf.store m expected shelf).2.version? m.key = _
    rw [hstored, version?, find?_insert, if_pos rfl, Option.map_some]
  · intro key requests hrequests
    exact versionsThrough_isChain h hrequests

/-- Stores of the second, again the second, and the third version of a profile. -/
def profileUpdates : List ReadModelRequest :=
  [.store (History.profile 2) 1, .store (History.profile 2) 1, .store (History.profile 3) 2]

/-- The second of two equal stores is refused; the version goes from 1 to 3 step by step. -/
theorem version_replaced_by_store_profile :
    ∃ shelf, Reached shelf ∧
      (registry.store (History.profile 2) 1 shelf).1.isOk ∧
      ¬(registry.store (History.profile 3) 2 shelf).1.isOk ∧
      versionsThrough (History.profile 1).key profileUpdates shelf =
        [some 1, some 2, some 2, some 3] ∧
      (versionsThrough (History.profile 1).key profileUpdates shelf).IsChain
        fun v w => w = v ∨ w = v.map (· + 1) := by
  have hfirst := (Reached.fromRecords []).store (History.profile 1) 0
  obtain ⟨hstore, hrun⟩ := version_replaced_by_store hfirst
  refine ⟨_, hfirst, ?_, ?_, by decide +kernel, ?_⟩
  · exact (hstore (History.profile 2) 1 (by decide)).1.mpr (by decide)
  · intro hok
    exact absurd ((hstore (History.profile 3) 2 (by decide)).1.mp hok) (by decide)
  · refine hrun _ _ fun r hr => ?_
    simp only [profileUpdates, List.mem_cons, List.not_mem_nil, or_false] at hr
    rcases hr with rfl | rfl | rfl
    · exact ⟨fun hreset => absurd hreset.2 (by decide), fun _ _ => rfl⟩
    · exact ⟨fun hreset => absurd hreset.2 (by decide), fun _ _ => rfl⟩
    · exact ⟨fun hreset => absurd hreset.2 (by decide), fun _ _ => rfl⟩

/-- A store that expects the stored version may skip versions: the fifth replaces the first. -/
theorem version_may_jump :
    ¬∀ shelf, Reached shelf → ∀ (m : ReadModel) (expected : Nat), 1 < m.version →
      (registry.store m expected shelf).1.isOk →
      shelf.version? m.key = some (m.version - 1) := by
  intro hprevious
  have hfirst := (Reached.fromRecords []).store (History.profile 1) 0
  have hfourth := hprevious _ hfirst (History.profile 5) 1 (by decide) (by decide)
  exact absurd hfourth (by decide)

end Shelf

end Chronicle
