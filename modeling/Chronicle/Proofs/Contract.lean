import Chronicle.Proofs.EventContract
import Chronicle.Proofs.ReadModelContract

set_option autoImplicit false

/-!
# The contract raises no false alarm

Main statement: whatever answers as a registry in memory passes every scenario of the contract
(`Contract.no_false_alarm`). The registries in files answer so as long as their files can be
written (`EventArchive.likeMemory`, `ReadModelArchive.likeMemory`).
-/

namespace Chronicle

namespace SessionStep

variable {σ : Type}

/-- In a session without a break the requests are answered one after another. -/
theorem answers_requests {perform : SessionStep → Call σ EventAnswer}
    {serve : EventRequest → Call σ EventAnswer} (h : ∀ r, perform (.request r) = serve r)
    (requests : List EventRequest) (s : σ) :
    answers perform (requests.map .request) s = Fallible.answers serve requests s := by
  induction requests generalizing s with
  | nil => rfl
  | cons r rest ih => rw [List.map_cons, answers, Fallible.answers, h, ih]

theorem stores_requests (requests : List EventRequest) :
    stores (requests.map .request) = EventRequest.stores requests := by
  induction requests with
  | nil => rfl
  | cons r rest ih =>
      rw [List.map_cons, EventRequest.stores, List.countP_cons]
      cases r with
      | store e => exact congrArg (fun n => n + 1) ih
      | _ => exact ih

end SessionStep

namespace EventArchive

/-- Nothing has to be read back in a session without a break. -/
theorem readsBackWhenClosed_requests (requests : List EventRequest) (m : MemoryEvents) :
    ReadsBackWhenClosed (requests.map .request) m := by
  induction requests generalizing m with
  | nil => trivial
  | cons r rest ih => exact ih _

/-- An archive with nothing in it and files that can be written, and enough ids. -/
theorem likeMemory {s : EventArchive} {ids : IdSupply} {fresh : Nat → UniqueId} (h : Synced s)
    (unsealed : s.directory.sealedNames = []) (empty : s.memory = ⟨.empty, ids⟩)
    (distinct : ∀ n, n + 2 ≤ Word.limit 128 → (ids.upcoming n ++ [fresh 0, fresh 1]).Nodup) :
    registry.LikeMemory s fresh := by
  intro requests hroom
  have hdistinct := distinct _ hroom
  refine ⟨ids, hdistinct, ?_⟩
  have hsupplied : MemoryEvents.Supplied (SessionStep.stores (requests.map .request)) s.memory := by
    rw [SessionStep.stores_requests, empty]
    exact ⟨hdistinct.of_append_left, fun _ _ => rfl⟩
  have hanswers := answers_eq_of_synced (requests.map .request) h unsealed hsupplied
    (readsBackWhenClosed_requests requests s.memory)
  rw [SessionStep.answers_requests (fun _ => rfl), SessionStep.answers_requests (fun _ => rfl),
    empty] at hanswers
  exact hanswers

end EventArchive

namespace ReadModelArchive

open Directory Lines

variable {s : ReadModelArchive}

/-- Every file of the archive can be written. -/
structure Writable (s : ReadModelArchive) : Prop where
  separate : s.layout.Separate
  plain : s.directory.Plain
  unsealed : s.directory.sealedNames = []

/-- What is answered and what is then on the shelf are as in memory, and files can be written. -/
structure AnswersAs {α : Type} (expected : Except RegistryError α × Shelf)
    (served : Except RegistryError α × ReadModelArchive) : Prop where
  answer : served.1 = expected.1
  shelf : served.2.shelf = expected.2
  writable : Writable served.2

/-- A changed shelf is written, whatever it was before. -/
theorem Writable.written (h : Writable s) {α : Type} (answer : α) (shelf : Shelf) :
    AnswersAs (.ok answer, shelf)
      ((persistOr s.shelf >>= fun _ => pure answer : Call ReadModelArchive α)
        { s with shelf := shelf }) := by
  have hallowed := h.separate.allowed _ (EventArchive.Part.readModels_mem s.layout)
  have houtcome := replaceAll_outcome h.plain .readModels hallowed shelf.records
  obtain ⟨r, d, hcall, hplain, hagrees, -⟩ :=
    replaceAll_spec h.plain .readModels s.layout.readModels shelf.records
  rw [hcall, h.unsealed] at houtcome
  obtain rfl : r = .ok () := houtcome
  rw [Fallible.bind_apply, persistOr_eq s.shelf hcall]
  exact ⟨rfl, rfl, h.separate, hplain, hagrees.sealedNames.trans h.unsealed⟩

theorem Writable.store (h : Writable s) (m : ReadModel) (expected : Nat) :
    AnswersAs (Shelf.store m expected s.shelf) (store m expected s) := by
  obtain hstored | ⟨e, hrefused⟩ := Shelf.store_cases m expected s.shelf
  · rw [store_of_accepted hstored, hstored]
    exact h.written _ _
  · rw [store_of_refused hrefused, hrefused]
    exact ⟨rfl, rfl, h⟩

theorem Writable.deleteById (h : Writable s) (id : ReadModelId) (typeName : ReadModelTypeName) :
    AnswersAs (Shelf.deleteById id typeName s.shelf) (deleteById id typeName s) := by
  obtain ⟨n, hremoved⟩ : ∃ n, Shelf.deleteById id typeName s.shelf =
      (.ok n, s.shelf.erase ⟨typeName, id⟩) := ⟨_, rfl⟩
  rw [deleteById_apply hremoved, hremoved]
  split
  · exact h.written _ _
  · exact ⟨rfl, rfl, h.separate, h.plain, h.unsealed⟩

theorem AnswersAs.map {α β : Type} {c : Call Shelf α} {d : Call ReadModelArchive α}
    (h : AnswersAs (c s.shelf) (d s)) (f : α → β) :
    AnswersAs ((f <$> c) s.shelf) ((f <$> d) s) := by
  rw [Fallible.map_apply, Fallible.map_apply]
  exact ⟨congrArg (Except.map f) h.answer, h.shelf, h.writable⟩

/-- A request is served as in memory, and the files can be written as before. -/
theorem Writable.serve (h : Writable s) (r : ReadModelRequest) :
    AnswersAs (r.serve Shelf.registry s.shelf) (r.serve registry s) := by
  cases r with
  | store m expected => exact (h.store m expected).map ReadModelAnswer.stored
  | deleteById id typeName => exact (h.deleteById id typeName).map ReadModelAnswer.number
  | deleteAll =>
      have hdeleted : AnswersAs (Shelf.deleteAll s.shelf) (deleteAll s) := h.written _ _
      exact hdeleted.map ReadModelAnswer.number
  | query q => exact ⟨rfl, rfl, h⟩
  | count q => exact ⟨rfl, rfl, h⟩

theorem Writable.answers_eq (h : Writable s) (requests : List ReadModelRequest) :
    Fallible.answers (ReadModelRequest.serve registry) requests s =
      Fallible.answers (ReadModelRequest.serve Shelf.registry) requests s.shelf := by
  induction requests generalizing s with
  | nil => rfl
  | cons r rest ih =>
      have hserved := h.serve r
      rw [Fallible.answers, Fallible.answers, hserved.answer, ih hserved.writable, hserved.shelf]

/-- An archive with nothing in it and files that can be written. -/
theorem likeMemory (h : Writable s) (empty : s.shelf = .empty) : registry.LikeMemory s := by
  intro requests
  rw [h.answers_eq, empty]

end ReadModelArchive

/-- Ids that are counted up are different as long as there are that many. -/
theorem UniqueId.nodup_ofNat {n : Nat} (h : n ≤ Word.limit 128) :
    ((List.range n).map UniqueId.ofNat).Nodup := by
  refine List.nodup_range.map_on ?_
  intro i hi j hj heq
  have hnumber : i % Word.limit 128 = j % Word.limit 128 := congrArg UniqueId.number heq
  rw [List.mem_range] at hi hj
  rwa [Nat.mod_eq_of_lt (by omega), Nat.mod_eq_of_lt (by omega)] at hnumber

/-- Of ids that are counted up, the first two are fresh to a registry that begins behind them. -/
theorem IdSupply.nodup_upcoming_counted (n : Nat) (h : n + 2 ≤ Word.limit 128) :
    ((⟨UniqueId.ofNat, 2⟩ : IdSupply).upcoming n ++ [UniqueId.ofNat 0, .ofNat 1]).Nodup := by
  have hcounted : [UniqueId.ofNat 0, .ofNat 1] ++ (⟨UniqueId.ofNat, 2⟩ : IdSupply).upcoming n =
      (List.range (2 + n)).map UniqueId.ofNat := by
    rw [List.range_add, List.map_append, List.map_map]
    rfl
  rw [List.nodup_append_comm, hcounted]
  exact UniqueId.nodup_ofNat (by omega)

namespace Contract

/--
Every event registry that answers each list of requests as one in memory that starts empty, up to
the choice of ids, all of them different, passes all scenarios for event registries; and every
read model registry that answers each list of requests as one in memory that starts empty passes
all scenarios for read model registries.
-/
theorem no_false_alarm :
    (∀ {σ : Type} (r : EventRegistry σ) (start : σ) (fresh : Nat → UniqueId),
      r.LikeMemory start fresh →
        ∀ scenario, EventScenario.run r fresh start scenario = .ok ()) ∧
    ∀ {σ : Type} (r : ReadModelRegistry σ) (start : σ), r.LikeMemory start →
      ∀ scenario, ReadModelScenario.run r start scenario = .ok () := by
  constructor
  · intro σ r start fresh h scenario
    exact EventScenario.run_eq_ok h scenario
  · intro σ r start h scenario
    exact ReadModelScenario.run_eq_ok h scenario

/-- Registries in files that are opened on a directory that does not exist yet. -/
theorem no_false_alarm_archives :
    (∃ s d, EventArchive.openAt (.ofDataDir "data") ⟨.ofNat, 2⟩ ⟨none, []⟩ = (.ok s, d) ∧
      ∀ scenario, EventScenario.run EventArchive.registry .ofNat s scenario = .ok ()) ∧
    ∃ s d, ReadModelArchive.openAt (.ofDataDir "data") ⟨none, []⟩ = (.ok s, d) ∧
      ∀ scenario, ReadModelScenario.run ReadModelArchive.registry s scenario = .ok () := by
  have hl := Layout.separate_ofDataDir "data"
  let d : Directory := Directory.made ⟨none, []⟩
  constructor
  · refine ⟨_, d, EventArchive.openAt_empty hl rfl _, ?_⟩
    have hsynced := EventArchive.synced_empty hl (d := d) rfl ⟨.ofNat, 2⟩
    exact no_false_alarm.1 _ _ _
      (EventArchive.likeMemory hsynced rfl rfl IdSupply.nodup_upcoming_counted)
  · have hfiled := ReadModelArchive.filed_empty hl (d := d) rfl
    refine ⟨⟨.ofDataDir "data", d, .empty⟩, d, ?_, ?_⟩
    · rw [ReadModelArchive.openAt_eq hl, hfiled.load]
    · exact no_false_alarm.2 _ _ (ReadModelArchive.likeMemory ⟨hl, hfiled.plain, rfl⟩ rfl)

end Contract

end Chronicle
