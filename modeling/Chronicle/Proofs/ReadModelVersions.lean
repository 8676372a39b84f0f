import Chronicle.Proofs.Shelf
import Chronicle.Registry.Memory
import Chronicle.Service.ReadModels
import Mathlib.Data.List.Induction

set_option autoImplicit false

/-!
# Versions of read models

Several clients store and remove read models of one registry, their calls interleaved in any
order. A store of a version above 1 must replace the version before it. Main statements: the
successful stores of a key since its last reset have the versions 1, 2, …, up to the stored one
(`versions_since_reset`), and between two resets each version is stored at most once
(`not_both_succeed`).
-/

namespace Chronicle

/-- What a client asks for. -/
inductive ReadModelAction
  | store (m : ReadModel)
  | delete (typeName : ReadModelTypeName) (id : ReadModelId)
  | deleteAll

namespace ReadModelAction

/-- The call that an action makes; answers are left out. -/
def perform : ReadModelAction → Call Shelf Unit
  | store m => do
      let _ ← ReadModelService.store Shelf.registry m
  | delete typeName id => ReadModelService.delete Shelf.registry typeName id
  | deleteAll => do
      let _ ← Shelf.registry.deleteAll

/-- Whether the action starts the versions of a key anew, or removes what stands there. -/
def Resets (key : ReadModelKey) : ReadModelAction → Prop
  | store m => m.key = key ∧ m.version = 1
  | delete typeName id => ⟨typeName, id⟩ = key
  | deleteAll => True

end ReadModelAction

/-- A call of one of the clients, and whether it succeeded. -/
structure LoggedCall (κ : Type) where
  client : κ
  action : ReadModelAction
  succeeded : Bool

/-- The version that a call stored under a key, if it did. -/
def LoggedCall.written? {κ : Type} (key : ReadModelKey) (call : LoggedCall κ) : Option Nat :=
  match call.action with
  | .store m => if m.key = key ∧ call.succeeded then some m.version else none
  | _ => none

/-- The calls of all clients so far, in their order, and the shelf that they leave. -/
inductive History (κ : Type) : List (LoggedCall κ) → Shelf → Prop
  | start : History κ [] .empty
  | call {log : List (LoggedCall κ)} {shelf : Shelf} (h : History κ log shelf) (client : κ)
      (action : ReadModelAction) :
      History κ (log ++ [⟨client, action, (action.perform shelf).1.isOk⟩])
        (action.perform shelf).2

namespace ReadModelAction

variable {shelf : Shelf}

/-- When a store succeeds: the version is 1, or it follows the one that is stored. -/
def Replaces (m : ReadModel) (shelf : Shelf) : Prop :=
  m.version = 1 ∨
    1 < m.version ∧ (shelf.find? m.key).map ReadModel.version = some (m.version - 1)

/-- A store whose version follows is carried out. -/
theorem store_of_replaces {m : ReadModel} (h : Replaces m shelf) :
    ReadModelService.store Shelf.registry m shelf = (.ok (.ofReadModel m), shelf.insert m) := by
  show Shelf.store m (m.version - 1) shelf = _
  unfold Shelf.store
  rcases h with h | ⟨hv, hcurrent⟩
  · simp [h]
  · have hzero : m.version ≠ 0 := by omega
    simp [hzero, hcurrent]

/-- Any other store fails and changes nothing. -/
theorem store_of_not_replaces {m : ReadModel} (h : ¬Replaces m shelf) :
    ∃ e, ReadModelService.store Shelf.registry m shelf = (.error e, shelf) := by
  show ∃ e, Shelf.store m (m.version - 1) shelf = _
  unfold Shelf.store
  by_cases hzero : m.version = 0
  · rw [if_pos hzero]
    exact ⟨_, rfl⟩
  · rw [if_neg hzero]
    have hv : 1 < m.version := by
      have hone : m.version ≠ 1 := fun hone => h (Or.inl hone)
      omega
    have hcurrent : (shelf.find? m.key).map ReadModel.version ≠ some (m.version - 1) :=
      fun hcurrent => h (Or.inr ⟨hv, hcurrent⟩)
    simp [hv, hcurrent]

/-- What one action does: a store that follows is carried out, any other changes nothing. -/
theorem perform_store (m : ReadModel) (shelf : Shelf) :
    Replaces m shelf ∧ (store m).perform shelf = (.ok (), shelf.insert m) ∨
      ¬Replaces m shelf ∧ ∃ e, (store m).perform shelf = (.error e, shelf) := by
  have hperform : (store m).perform shelf =
      (ReadModelService.store Shelf.registry m >>= fun _ => pure ()) shelf := rfl
  rw [hperform, Fallible.bind_apply]
  by_cases h : Replaces m shelf
  · rw [store_of_replaces h]
    exact Or.inl ⟨h, rfl⟩
  · obtain ⟨e, he⟩ := store_of_not_replaces h
    rw [he]
    exact Or.inr ⟨h, e, rfl⟩

@[simp] theorem perform_delete (typeName : ReadModelTypeName) (id : ReadModelId) (shelf : Shelf) :
    (delete typeName id).perform shelf = (.ok (), shelf.erase ⟨typeName, id⟩) := rfl

end ReadModelAction

namespace History

open ReadModelAction

variable {κ : Type} {log earlier later : List (LoggedCall κ)} {shelf : Shelf}
variable {key : ReadModelKey}

/-- Each of the calls leaves a well-formed shelf. -/
theorem wellFormed (h : History κ log shelf) : shelf.WellFormed := by
  induction h with
  | start => exact Shelf.wellFormed_empty
  | @call log shelf _ client action ih =>
      cases action with
      | store m =>
          rcases perform_store m shelf with ⟨-, hp⟩ | ⟨-, e, hp⟩
          · rw [hp]
            exact ih.insert m
          · rw [hp]
            exact ih
      | delete typeName id => exact ih.erase _
      | deleteAll => exact Shelf.wellFormed_empty

/-- The last call of a history was made on the shelf that the calls before it left. -/
theorem of_concat {call : LoggedCall κ} (h : History κ (log ++ [call]) shelf) :
    ∃ before, History κ log before ∧ call.succeeded = (call.action.perform before).1.isOk ∧
      shelf = (call.action.perform before).2 := by
  generalize hwhole : log ++ [call] = whole at h
  cases h with
  | start => simp at hwhole
  | @call log' before h client action =>
      obtain ⟨rfl, hcall⟩ := List.append_inj' hwhole rfl
      obtain rfl := (List.cons.inj hcall).1
      exact ⟨before, h, rfl, rfl⟩

/-- The first calls of a history are a history. -/
theorem of_append (h : History κ (earlier ++ later) shelf) :
    ∃ before, History κ earlier before := by
  induction later using List.reverseRecOn generalizing shelf with
  | nil => exact ⟨shelf, by simpa using h⟩
  | append_singleton later call ih =>
      rw [← List.append_assoc] at h
      obtain ⟨before, hbefore, -, -⟩ := h.of_concat
      exact ih hbefore

/--
What a call can do to a key: store the version that follows there, leave alone what stands there,
or take it away.
-/
theorem call_cases (hs : shelf.WellFormed) (client : κ) (action : ReadModelAction)
    (key : ReadModelKey) :
    (∃ m, Replaces m shelf ∧ m.key = key ∧ (action.Resets key ↔ m.version = 1) ∧
        LoggedCall.written? key ⟨client, action, (action.perform shelf).1.isOk⟩ =
          some m.version ∧
        (action.perform shelf).2.find? key = some m) ∨
      (¬action.Resets key ∧
        LoggedCall.written? key ⟨client, action, (action.perform shelf).1.isOk⟩ = none ∧
        (action.perform shelf).2.find? key = shelf.find? key) ∨
      (action.Resets key ∧
        LoggedCall.written? key ⟨client, action, (action.perform shelf).1.isOk⟩ = none ∧
        (action.perform shelf).2.find? key = none) := by
  cases action with
  | store m =>
      rcases perform_store m shelf with ⟨hreplaces, hp⟩ | ⟨hreplaces, e, hp⟩
      · rw [hp]
        by_cases hkey : m.key = key
        · refine Or.inl ⟨m, hreplaces, hkey, ⟨And.right, fun hone => ⟨hkey, hone⟩⟩, ?_, ?_⟩
          · exact if_pos ⟨hkey, rfl⟩
          · rw [Shelf.find?_insert, if_pos hkey.symm]
        · -- a store under another key
          refine Or.inr (Or.inl ⟨fun hreset => hkey hreset.1, ?_, ?_⟩)
          · exact if_neg fun hwritten => hkey hwritten.1
          · rw [Shelf.find?_insert, if_neg (Ne.symm hkey)]
      · -- a store that fails cannot be one of version 1
        rw [hp]
        refine Or.inr (Or.inl ⟨fun hreset => hreplaces (Or.inl hreset.2), ?_, rfl⟩)
        exact if_neg fun hwritten => absurd hwritten.2 Bool.false_ne_true
  | delete typeName id =>
      rw [perform_delete, Shelf.find?_erase hs]
      by_cases hkey : key = ⟨typeName, id⟩
      · exact Or.inr (Or.inr ⟨hkey.symm, rfl, if_pos hkey⟩)
      · exact Or.inr (Or.inl ⟨fun hreset => hkey hreset.symm, rfl, if_neg hkey⟩)
  | deleteAll => exact Or.inr (Or.inr ⟨trivial, rfl, rfl⟩)

/-- A key was reset by a store of version 1, and climbed from there to the given version. -/
def Climbed (key : ReadModelKey) (log : List (LoggedCall κ)) (v : Nat) : Prop :=
  ∃ earlier first later, log = earlier ++ first :: later ∧ first.written? key = some 1 ∧
    (∀ call ∈ later, ¬call.action.Resets key) ∧
    (first :: later).filterMap (·.written? key) = List.range' 1 v

theorem climbed_of_written_one {call : LoggedCall κ} (hwritten : call.written? key = some 1) :
    Climbed key (log ++ [call]) 1 := by
  refine ⟨log, call, [], rfl, hwritten, fun _ hcall => absurd hcall List.not_mem_nil, ?_⟩
  simp [hwritten]

/-- A call that is no reset leaves the version, or adds the one that follows. -/
theorem Climbed.concat {call : LoggedCall κ} {v w : Nat} (h : Climbed key log v)
    (hreset : ¬call.action.Resets key)
    (hversions : List.range' 1 v ++ (call.written? key).toList = List.range' 1 w) :
    Climbed key (log ++ [call]) w := by
  obtain ⟨earlier, first, later, rfl, hfirst, hlater, hclimbed⟩ := h
  refine ⟨earlier, first, later ++ [call], by simp, hfirst, ?_, ?_⟩
  · intro c hc
    rcases List.mem_append.mp hc with hc | hc
    · exact hlater c hc
    · rw [List.mem_singleton.mp hc]
      exact hreset
  · rw [← List.cons_append, List.filterMap_append, hclimbed, ← hversions]
    cases hwritten : call.written? key <;> simp [hwritten]

/--
A stored read model was reached from a store of version 1, the last call that reset its key, by
one successful store of each version after it, in ascending order.
-/
theorem versions_since_reset (h : History κ log shelf) {m : ReadModel}
    (hm : shelf.find? key = some m) : Climbed key log m.version := by
  -- the induction is on the calls, and the read model may be another one before each of them
  induction h generalizing m with
  | start => exact absurd hm (by simp)
  | @call log shelf h client action ih =>
      rcases call_cases h.wellFormed client action key with
        ⟨m', hreplaces, hkey, hreset, hwritten, hfound⟩ | ⟨hreset, hwritten, hfound⟩ |
        ⟨-, -, hfound⟩
      · obtain rfl : m' = m := Option.some.inj (hfound.symm.trans hm)
        rcases hreplaces with hone | ⟨hv, hcurrent⟩
        · rw [hone] at hwritten ⊢
          exact climbed_of_written_one hwritten
        · rw [hkey] at hcurrent
          obtain ⟨old, hold, hversion⟩ := Option.map_eq_some_iff.mp hcurrent
          have hnext : m'.version = old.version + 1 := by omega
          refine (ih hold).concat (fun hr => ?_) ?_
          · have hone := hreset.mp hr
            omega
          · rw [hwritten, hnext, List.range'_1_concat, Nat.add_comm]
            rfl
      · refine (ih (hfound ▸ hm)).concat hreset ?_
        rw [hwritten]
        exact List.append_nil _
      · rw [hfound] at hm
        cases hm

/-- A call that stored a version was made when that version followed the one stored there. -/
theorem of_written {call : LoggedCall κ} {v : Nat} (h : History κ (log ++ [call]) shelf)
    (hwritten : call.written? key = some v) :
    ∃ before m, History κ log before ∧ Replaces m before ∧ m.key = key ∧ m.version = v ∧
      shelf.find? key = some m := by
  obtain ⟨before, hbefore, hok, rfl⟩ := h.of_concat
  obtain ⟨client, action, succeeded⟩ := call
  dsimp only at hok
  subst hok
  rcases call_cases hbefore.wellFormed client action key with
    ⟨m, hreplaces, hkey, -, hwritten', hfound⟩ | ⟨-, hwritten', -⟩ | ⟨-, hwritten', -⟩
  · exact ⟨before, m, hbefore, hreplaces, hkey,
      Option.some.inj (hwritten'.symm.trans hwritten), hfound⟩
  · rw [hwritten] at hwritten'
    cases hwritten'
  · rw [hwritten] at hwritten'
    cases hwritten'

/-- As long as a key is not reset, what stands under it has no lower version than once stored. -/
theorem version_le_of_not_reset {first : LoggedCall κ} {v : Nat}
    (h : History κ (earlier ++ first :: later) shelf) (hfirst : first.written? key = some v)
    (hlater : ∀ call ∈ later, ¬call.action.Resets key) :
    ∃ m, shelf.find? key = some m ∧ v ≤ m.version := by
  induction later using List.reverseRecOn generalizing shelf with
  | nil =>
      obtain ⟨-, m, -, -, -, hversion, hfound⟩ := h.of_written hfirst
      exact ⟨m, hfound, Nat.le_of_eq hversion.symm⟩
  | append_singleton later call ih =>
      rw [← List.cons_append, ← List.append_assoc] at h
      obtain ⟨before, hbefore, -, rfl⟩ := h.of_concat
      obtain ⟨m, hm, hv⟩ := ih hbefore fun call hcall => hlater call (by simp [hcall])
      have hreset := hlater call (by simp)
      rcases call_cases hbefore.wellFormed call.client call.action key with
        ⟨m', hreplaces, hkey, hone, -, hfound⟩ | ⟨-, -, hfound⟩ | ⟨hremoved, -, -⟩
      · -- the store is no reset, so it follows the version that stood there
        rcases hreplaces with hone' | ⟨-, hcurrent⟩
        · exact absurd (hone.mpr hone') hreset
        · rw [hkey, hm] at hcurrent
          have hversion : m.version = m'.version - 1 := Option.some.inj hcurrent
          exact ⟨m', hfound, by omega⟩
      · exact ⟨m, hfound.trans hm, hv⟩
      · exact absurd hremoved hreset

/-- Of two stores of one version above 1 with no reset of the key between them, one fails. -/
theorem not_both_succeed {first second : LoggedCall κ} {between : List (LoggedCall κ)} {v : Nat}
    (h : History κ (earlier ++ first :: between ++ second :: later) shelf) (hv : 1 < v)
    (hfirst : first.written? key = some v)
    (hbetween : ∀ call ∈ between, ¬call.action.Resets key) :
    second.written? key ≠ some v := by
  intro hsecond
  have h' : History κ ((earlier ++ first :: between) ++ [second] ++ later) shelf := by
    simpa using h
  obtain ⟨after, hafter⟩ := h'.of_append
  obtain ⟨before, m', hbefore, hreplaces, hkey, hversion, -⟩ := hafter.of_written hsecond
  obtain ⟨m, hm, hle⟩ := hbefore.version_le_of_not_reset hfirst hbetween
  -- the second store needs the version before `v`, but `v` has been reached
  rcases hreplaces with hone | ⟨-, hcurrent⟩
  · omega
  · rw [hkey, hm] at hcurrent
    have hbefore' : m.version = m'.version - 1 := Option.some.inj hcurrent
    omega

/--
Whatever the clients did before, a store of a version above 1 succeeds exactly if the version
before it is stored, one of version 1 always and one of version 0 never; a store that fails leaves
documents and index as they are. So a stored version was reached by stores of all versions from 1
on, and of two stores of one version with no reset of the key between them, one fails.
-/
theorem optimistic_locking (h : History κ log shelf) :
    (∀ m : ReadModel,
      (1 < m.version → ((ReadModelService.store Shelf.registry m shelf).1.isOk ↔
        (shelf.find? m.key).map ReadModel.version = some (m.version - 1))) ∧
      (m.version = 1 → (ReadModelService.store Shelf.registry m shelf).1.isOk) ∧
      (m.version = 0 → ¬(ReadModelService.store Shelf.registry m shelf).1.isOk) ∧
      ((ReadModelService.store Shelf.registry m shelf).1.isOk →
        (ReadModelService.store Shelf.registry m shelf).2 = shelf.insert m) ∧
      (¬(ReadModelService.store Shelf.registry m shelf).1.isOk →
        (ReadModelService.store Shelf.registry m shelf).2 = shelf)) ∧
    (∀ key m, shelf.find? key = some m →
      ∃ earlier first later, log = earlier ++ first :: later ∧ first.written? key = some 1 ∧
        (∀ call ∈ later, ¬call.action.Resets key) ∧
        (first :: later).filterMap (·.written? key) = List.range' 1 m.version) ∧
    (∀ key v earlier first between second later,
      log = earlier ++ first :: between ++ second :: later → 1 < v →
      first.written? key = some v → (∀ call ∈ between, ¬call.action.Resets key) →
      second.written? key ≠ some v) := by
  refine ⟨?_, fun _ _ hm => h.versions_since_reset hm, ?_⟩
  · intro m
    by_cases hreplaces : Replaces m shelf
    · rw [store_of_replaces hreplaces]
      have hzero : m.version ≠ 0 := by
        rcases hreplaces with hone | ⟨hv, -⟩ <;> omega
      refine ⟨fun hv => ⟨fun _ => ?_, fun _ => rfl⟩, fun _ => rfl, fun h0 => absurd h0 hzero,
        fun _ => rfl, fun hfail => absurd rfl hfail⟩
      rcases hreplaces with hone | ⟨-, hcurrent⟩
      · omega
      · exact hcurrent
    · obtain ⟨e, he⟩ := store_of_not_replaces hreplaces
      rw [he]
      have hfail : ¬(Except.error e : Except RegistryError StoredReadModel).isOk = true :=
        Bool.false_ne_true
      refine ⟨fun hv => ⟨fun hok => absurd hok hfail, fun hcurrent => ?_⟩, fun hone => ?_,
        fun _ => hfail, fun hok => absurd hok hfail, fun _ => rfl⟩
      · exact absurd (Or.inr ⟨hv, hcurrent⟩) hreplaces
      · exact absurd (Or.inl hone) hreplaces
  · rintro key v earlier first between second later rfl hv hfirst hbetween
    exact h.not_both_succeed hv hfirst hbetween

/-! ## Two clients, one version -/

/-- A profile of a given version. -/
def profile (version : Nat) : ReadModel where
  typeName := ⟨"Profile", by decide, by decide, by decide, by decide⟩
  id := ⟨"p1", by decide, by decide, by decide, by decide⟩
  value := .object [("_metadata", .object [("version", .ofNat version)])]

/-- Ann stores the first version; Ben is faster with the second. -/
def race : List (LoggedCall String) :=
  [⟨"Ann", .store (profile 1), true⟩, ⟨"Ben", .store (profile 2), true⟩,
    ⟨"Ann", .store (profile 2), false⟩]

theorem optimistic_locking_race :
    ∃ shelf, History String race shelf ∧
      (ReadModelService.store Shelf.registry (profile 3) shelf).1.isOk ∧
      ¬(ReadModelService.store Shelf.registry (profile 2) shelf).1.isOk ∧
      ∃ earlier first later, race = earlier ++ first :: later ∧
        first.written? (profile 1).key = some 1 ∧
        (first :: later).filterMap (·.written? (profile 1).key) = [1, 2] := by
  have hfirst := History.start.call "Ann" (.store (profile 1))
  have hsecond := hfirst.call "Ben" (.store (profile 2))
  have hthird := hsecond.call "Ann" (.store (profile 2))
  obtain ⟨hstore, hversions, -⟩ := optimistic_locking hthird
  refine ⟨_, hthird, ?_, ?_, ?_⟩
  · exact ((hstore (profile 3)).1 (by decide)).mpr (by decide)
  · intro hok
    exact absurd (((hstore (profile 2)).1 (by decide)).mp hok) (by decide)
  · obtain ⟨earlier, first, later, hlog, hone, -, hwritten⟩ :=
      hversions (profile 1).key (profile 2) rfl
    exact ⟨earlier, first, later, hlog, hone, hwritten⟩

end History

end Chronicle
