import Chronicle.Proofs.Isolation
import Chronicle.Proofs.ReadModelQueries
import Chronicle.Proofs.RecordLines

set_option autoImplicit false

/-!
# Sessions with a read model archive

A session is a list of requests between which the archive may be closed and opened anew; while
each of them is served, any files may refuse to be written. Main statement: an archive that starts
in an empty directory answers every session as a registry in memory that skips exactly the
requests whose rewrite is refused, and is the same archive whenever it is opened anew
(`answers_eq_memory_and_reopened`).
-/

namespace Chronicle

/-- What a read model registry answers. -/
inductive ReadModelAnswer
  | stored (m : StoredReadModel)
  | number (n : Nat)
  | readModels (ms : List ReadModel)
  /-- The registry was closed and opened anew. -/
  | reopened

namespace ReadModelRequest

/-- Hands a request to a registry. -/
def serve {σ : Type} (registry : ReadModelRegistry σ) :
    ReadModelRequest → Call σ ReadModelAnswer
  | .store m expected => .stored <$> registry.store m expected
  | .deleteById id typeName => .number <$> registry.deleteById id typeName
  | .deleteAll => .number <$> registry.deleteAll
  | .query q => .readModels <$> registry.query q
  | .count q => .number <$> registry.count q

/--
Whether the file has to be written anew: after a store that is accepted, a removal that removes
something, and each removal of everything.
-/
def rewrites (shelf : Shelf) : ReadModelRequest → Bool
  | .store m expected => (Shelf.store m expected shelf).1.isOk
  | .deleteById id typeName => (shelf.find? ⟨typeName, id⟩).isSome
  | .deleteAll => true
  | .query _ | .count _ => false

end ReadModelRequest

/-- A step of a session with a read model registry. -/
inductive ReadModelStep
  /-- A request that is served while the files of the given names refuse to be written. -/
  | request (sealedNames : List String) (r : ReadModelRequest)
  /-- The registry is closed and opened anew. -/
  | reopen

namespace ReadModelStep

variable {σ : Type}

/-- What the steps answer, one after another. -/
def answers (perform : ReadModelStep → Call σ ReadModelAnswer) :
    List ReadModelStep → σ → List (Except RegistryError ReadModelAnswer)
  | [], _ => []
  | step :: rest, s => (perform step s).1 :: answers perform rest (perform step s).2

/-- The state after all steps. -/
def after (perform : ReadModelStep → Call σ ReadModelAnswer) : List ReadModelStep → σ → σ
  | [], s => s
  | step :: rest, s => after perform rest (perform step s).2

end ReadModelStep

namespace Lines

open Directory

/--
What comes of writing a collection file anew while the files of the given names refuse to be
written: the file beside it is written first.
-/
def rewriteOutcome (file : CollectionFileName) (sealedNames : List String) :
    Except RegistryError Unit :=
  if sealedNames.contains (stagingName file.text) then
    .error (.io (FileError.unwritable (stagingName file.text)).message)
  else if sealedNames.contains file.text then
    .error (.io (FileError.unwritable file.text).message)
  else .ok ()

variable {α : Type} {d : Directory}

/-- In a plain directory the seals alone decide what comes of a rewrite. -/
theorem replaceAll_outcome (h : d.Plain) (format : RecordFormat α) {file : CollectionFileName}
    (ha : allows file.text = true ∧ allows (stagingName file.text) = true) (records : List α) :
    (replaceAll format file records d).1 = rewriteOutcome file d.sealedNames := by
  have hstaging := h.writable_eq (stagingName file.text)
  have hfile : (staged format file records d).writable file.text =
      (allows file.text && !d.sealedNames.contains file.text) := (h.put _ _).writable_eq _
  rw [ha.1, Bool.true_and] at hfile
  rw [ha.2, Bool.true_and] at hstaging
  rw [replaceAll, Fallible.bind_apply, rewriteOutcome]
  cases hs : d.sealedNames.contains (stagingName file.text) with
  | true =>
      rw [hs] at hstaging
      rw [filing_of_error (write_of_not_writable hstaging _)]
      rfl
  | false =>
      rw [hs] at hstaging
      have hentry : entry? (staged format file records d) (stagingName file.text) =
          some (.file (spell format records)) := by
        rw [staged, entry?_put h.present, if_pos rfl]
      rw [filing_of_ok (write_of_writable hstaging _)]
      cases hf : d.sealedNames.contains file.text with
      | true =>
          rw [hf] at hfile
          exact congrArg Prod.fst (filing_of_error (rename_of_not_writable hentry hfile))
      | false =>
          rw [hf] at hfile
          exact congrArg Prod.fst (filing_of_ok (rename_of_writable hentry hfile))

end Lines

namespace Shelf

/-- A request is served, unless the file has to be written anew for it and that is refused. -/
def serveUnlessRefused (outcome : Except RegistryError Unit) (r : ReadModelRequest) :
    Call Shelf ReadModelAnswer := fun shelf =>
  match r.rewrites shelf, outcome with
  | true, .error e => (.error e, shelf)
  | _, _ => r.serve registry shelf

variable {shelf : Shelf} {r : ReadModelRequest}

theorem serveUnlessRefused_ok :
    serveUnlessRefused (.ok ()) r shelf = r.serve registry shelf := by
  unfold serveUnlessRefused
  cases r.rewrites shelf <;> rfl

theorem serveUnlessRefused_error (h : r.rewrites shelf = true) (e : RegistryError) :
    serveUnlessRefused (.error e) r shelf = (.error e, shelf) := by
  unfold serveUnlessRefused
  rw [h]

theorem serveUnlessRefused_of_not_rewrites (h : r.rewrites shelf = false)
    (outcome : Except RegistryError Unit) :
    serveUnlessRefused outcome r shelf = r.serve registry shelf := by
  unfold serveUnlessRefused
  rw [h]

/--
A step in memory. A request whose rewrite is refused is skipped: it is answered by the refusal, and
the shelf stays as it is. There is nothing to open anew.
-/
def perform : ReadModelStep → Call Shelf ReadModelAnswer
  | .request sealedNames r =>
      serveUnlessRefused (Lines.rewriteOutcome Layout.readModelsFile sealedNames) r
  | .reopen => .done .reopened

end Shelf

/-- A read model that is read back from its line as itself. -/
def ReadModel.ReadsBack (m : ReadModel) : Prop :=
  RecordFormat.readModels.reread? (.ofReadModel m) = some (.ofReadModel m)

/-- A step that stores nothing but what reads back from its line as itself. -/
def ReadModelStep.ReadsBack : ReadModelStep → Prop
  | .request _ (.store m _) => m.ReadsBack
  | _ => True

namespace ReadModelArchive

open Directory Lines ReadModelStep

variable {s : ReadModelArchive} {shelf : Shelf} {α : Type}

/-- The archive while the files of the given names refuse to be written. -/
def sealing (names : List String) (s : ReadModelArchive) : ReadModelArchive :=
  { s with directory := { s.directory with sealedNames := names } }

/-- The archive is closed, and opened anew on the file that it leaves. -/
def reopen : Call ReadModelArchive ReadModelAnswer := fun s =>
  match openAt s.layout s.directory with
  | (.ok s', _) => (.ok .reopened, s')
  | (.error e, d) => (.error e, { s with directory := d })

/-- A step served by an archive. -/
def perform : ReadModelStep → Call ReadModelArchive ReadModelAnswer
  | .request sealedNames r => fun s => r.serve registry (s.sealing sealedNames)
  | .reopen => reopen

/-- An archive whose file reads as the documents that it holds in memory. -/
structure Filed (s : ReadModelArchive) : Prop where
  separate : s.layout.Separate
  plain : s.directory.Plain
  keyed : s.shelf.Keyed
  readsBack : ∀ m ∈ s.shelf.readModels, m.ReadsBack
  read : Lines.read .readModels (s.directory.content s.layout.readModels.text) =
    .ok s.shelf.records

theorem Filed.sealing (h : Filed s) (names : List String) : Filed (s.sealing names) :=
  ⟨h.separate, ⟨h.plain.present, h.plain.ascending, h.plain.texts⟩, h.keyed, h.readsBack, h.read⟩

theorem filed_empty {layout : Layout} {d : Directory} (hl : layout.Separate)
    (hd : d.entries = some []) : Filed ⟨layout, d, .empty⟩ := by
  refine ⟨hl, plain_of_no_entries hd, Shelf.keyed_empty, fun m hm => (nomatch hm), ?_⟩
  show Lines.read .readModels (d.content layout.readModels.text) = .ok []
  rw [content, entry?_of_no_entries hd]
  rfl

/-- An archive with separate files opens if its own can be loaded. -/
theorem openAt_eq {layout : Layout} (hl : layout.Separate) (d : Directory) :
    openAt layout d =
      match load layout d.made with
      | .error e => (.error e, d.made)
      | .ok shelf => (.ok ⟨layout, d.made, shelf⟩, d.made) := by
  cases hload : load layout d.made with
  | error e => simp only [openAt, hl.validate, hload]
  | ok shelf => simp only [openAt, hl.validate, hload]

theorem Filed.load (h : Filed s) : load s.layout s.directory = .ok s.shelf := by
  have hallowed := (h.separate.allowed _ (EventArchive.Part.readModels_mem s.layout)).1
  have hlines := (Lines.load_eq_ok_iff h.plain .readModels s.layout hallowed _).mpr h.read
  rw [ReadModelArchive.load, hlines]
  exact congrArg Except.ok h.keyed.ofRecords_records

/-- An archive that is opened on the file of another is the same one. -/
theorem Filed.openAt_eq_self (h : Filed s) :
    openAt s.layout s.directory = (.ok s, s.directory) := by
  rw [openAt_eq h.separate, h.plain.made_eq, h.load]

/-- What is made of an archive and its file once the memory holds a new shelf. -/
theorem persistOr_eq (before : Shelf) {t : ReadModelArchive} {r : Except RegistryError Unit}
    {d : Directory}
    (h : replaceAll .readModels t.layout.readModels t.shelf.records t.directory = (r, d)) :
    persistOr before t =
      match r with
      | .ok () => (.ok (), { t with directory := d })
      | .error e => (.error e, ⟨t.layout, d, .ofRecords before.records⟩) := by
  simp only [persistOr, Fallible.bind_apply, Fallible.outcome, persist, onFiles, Fallible.within, h]
  cases r <;> rfl

/--
What a step of an archive answers and leaves is what the step in memory answers and leaves, and
the file reads as it.
-/
structure Serves (s : ReadModelArchive) (expected : Except RegistryError α × Shelf)
    (served : Except RegistryError α × ReadModelArchive) : Prop where
  answer : served.1 = expected.1
  shelf : served.2.shelf = expected.2
  layout : served.2.layout = s.layout
  filed : Filed served.2

theorem Serves.map {expected : Except RegistryError α × Shelf}
    {served : Except RegistryError α × ReadModelArchive} (h : Serves s expected served)
    {β : Type} (f : α → β) :
    Serves s (expected.1.map f, expected.2) (served.1.map f, served.2) :=
  ⟨congrArg (Except.map f) h.answer, h.shelf, h.layout, h.filed⟩

/-- A request that leaves memory and file as they are. -/
theorem Filed.serves_unchanged (h : Filed s) (r : Except RegistryError α) :
    Serves s (r, s.shelf) (r, s) := ⟨rfl, rfl, rfl, h⟩

/-- What becomes of a request in memory while the file of the archive may refuse to be written. -/
def inMemoryUnlessRefused (s : ReadModelArchive) (r : ReadModelRequest) :
    Except RegistryError ReadModelAnswer × Shelf :=
  Shelf.serveUnlessRefused (rewriteOutcome s.layout.readModels s.directory.sealedNames) r s.shelf

/-- A request for which nothing has to be written is never skipped. -/
theorem Filed.serves_unwritten (h : Filed s) {r : ReadModelRequest}
    {answer : Except RegistryError ReadModelAnswer} (hrewrites : r.rewrites s.shelf = false)
    (hmemory : r.serve Shelf.registry s.shelf = (answer, s.shelf))
    (hserve : r.serve registry s = (answer, s)) :
    Serves s (s.inMemoryUnlessRefused r) (r.serve registry s) := by
  rw [inMemoryUnlessRefused, Shelf.serveUnlessRefused_of_not_rewrites hrewrites, hmemory, hserve]
  exact h.serves_unchanged answer

/--
A changed shelf is written to the file; if that is refused, the shelf and the file are what they
were, whatever the change had replaced or removed.
-/
theorem Filed.serves_persistOr (h : Filed s) (hkeyed : shelf.Keyed)
    (hreads : ∀ m ∈ shelf.readModels, m.ReadsBack) (answer : α) :
    Serves s
      (match rewriteOutcome s.layout.readModels s.directory.sealedNames with
        | .ok () => (.ok answer, shelf)
        | .error e => (.error e, s.shelf))
      ((persistOr s.shelf >>= fun _ => pure answer : Call ReadModelArchive α)
        { s with shelf := shelf }) := by
  have hallowed := h.separate.allowed _ (EventArchive.Part.readModels_mem s.layout)
  have houtcome := replaceAll_outcome h.plain .readModels hallowed shelf.records
  obtain ⟨r, d, hcall, hplain, -, hr⟩ :=
    replaceAll_spec h.plain .readModels s.layout.readModels shelf.records
  rw [hcall] at houtcome
  rw [← houtcome, Fallible.bind_apply, persistOr_eq s.shelf hcall]
  rcases hr with ⟨rfl, -, hentry⟩ | ⟨⟨e, rfl⟩, -, hentry⟩
  · -- the file has a line for each document, and each reads back as itself
    refine ⟨rfl, rfl, rfl, h.separate, hplain, hkeyed, hreads, ?_⟩
    show Lines.read .readModels (d.content s.layout.readModels.text) = .ok shelf.records
    rw [content_of_entry hentry, read_spell_eq_ok_iff RecordFormat.visible_readModels,
      Shelf.records, List.map_map, List.map_map]
    exact List.map_congr_left hreads
  · -- the checkpoint makes the same shelf again
    dsimp only
    rw [h.keyed.ofRecords_records]
    refine ⟨rfl, rfl, rfl, h.separate, hplain, h.keyed, h.readsBack, ?_⟩
    show Lines.read .readModels (d.content s.layout.readModels.text) = .ok s.shelf.records
    rw [content_congr hentry]
    exact h.read

/-- A request that changes the shelf in memory and then has the file written anew. -/
theorem Filed.serves_rewrite (h : Filed s) {r : ReadModelRequest}
    (step : Call ReadModelArchive α) (hkeyed : shelf.Keyed)
    (hreads : ∀ m ∈ shelf.readModels, m.ReadsBack) (answer : α) (f : α → ReadModelAnswer)
    (hrewrites : r.rewrites s.shelf = true)
    (hmemory : r.serve Shelf.registry s.shelf = (.ok (f answer), shelf))
    (hserve : r.serve registry s = (f <$> step) s)
    (hstep : step s = (persistOr s.shelf >>= fun _ => pure answer : Call ReadModelArchive α)
      { s with shelf := shelf }) :
    Serves s (s.inMemoryUnlessRefused r) (r.serve registry s) := by
  have hserves := (h.serves_persistOr hkeyed hreads answer).map f
  rw [hserve, Fallible.map_apply, hstep, inMemoryUnlessRefused]
  cases houtcome : rewriteOutcome s.layout.readModels s.directory.sealedNames with
  | ok u =>
      rw [houtcome] at hserves
      rw [Shelf.serveUnlessRefused_ok, hmemory]
      exact hserves
  | error e =>
      rw [houtcome] at hserves
      rw [Shelf.serveUnlessRefused_error hrewrites]
      exact hserves

/-- A document on a shelf with a new one is the new one, or was there before. -/
theorem Filed.readsBack_insert (h : Filed s) {m : ReadModel} (hm : m.ReadsBack) :
    ∀ n ∈ (s.shelf.insert m).readModels, n.ReadsBack := by
  intro n hn
  rw [(h.keyed.insert m).mem_readModels, Shelf.find?_insert] at hn
  split at hn
  · cases hn
    exact hm
  · exact h.readsBack n ((h.keyed.mem_readModels n).mpr hn)

theorem Filed.readsBack_erase (h : Filed s) (key : ReadModelKey) :
    ∀ n ∈ (s.shelf.erase key).readModels, n.ReadsBack := by
  intro n hn
  rw [(h.keyed.erase key).mem_readModels, Shelf.find?_erase h.keyed.toWellFormed] at hn
  split at hn
  · cases hn
  · exact h.readsBack n ((h.keyed.mem_readModels n).mpr hn)

/-- A store that is accepted in memory is written. -/
theorem store_of_accepted {m : ReadModel} {expected : Nat} {stored : StoredReadModel}
    (h : Shelf.store m expected s.shelf = (.ok stored, shelf)) :
    store m expected s =
      (persistOr s.shelf >>= fun _ => pure stored : Call ReadModelArchive StoredReadModel)
        { s with shelf := shelf } := by
  simp only [store, Fallible.bind_apply, Fallible.read, inMemory, Fallible.within, h]

/-- A store that is refused in memory touches no file. -/
theorem store_of_refused {m : ReadModel} {expected : Nat} {e : RegistryError}
    (h : Shelf.store m expected s.shelf = (.error e, shelf)) :
    store m expected s = (.error e, { s with shelf := shelf }) := by
  simp only [store, Fallible.bind_apply, Fallible.read, inMemory, Fallible.within, h]

/-- What a removal does once its outcome in memory is known. -/
theorem deleteById_apply {id : ReadModelId} {typeName : ReadModelTypeName} {n : Nat}
    (h : Shelf.deleteById id typeName s.shelf = (.ok n, shelf)) :
    deleteById id typeName s =
      if 0 < n then
        (persistOr s.shelf >>= fun _ => pure n : Call ReadModelArchive Nat)
          { s with shelf := shelf }
      else (.ok n, { s with shelf := shelf }) := by
  simp only [deleteById, Fallible.bind_apply, Fallible.read, inMemory, Fallible.within, h]
  split <;> rfl

theorem Filed.serves_store (h : Filed s) {m : ReadModel} (hm : m.ReadsBack) (expected : Nat) :
    Serves s (s.inMemoryUnlessRefused (.store m expected))
      ((ReadModelRequest.store m expected).serve registry s) := by
  have hmemory : (ReadModelRequest.store m expected).serve Shelf.registry s.shelf =
      (.stored <$> Shelf.store m expected) s.shelf := rfl
  rw [Fallible.map_apply] at hmemory
  obtain hstored | ⟨e, hrefused⟩ := Shelf.store_cases m expected s.shelf
  · rw [hstored] at hmemory
    refine h.serves_rewrite (store m expected) (h.keyed.insert m) (h.readsBack_insert hm)
      (StoredReadModel.ofReadModel m) .stored ?_ hmemory rfl ?_
    · rw [ReadModelRequest.rewrites, hstored]
      rfl
    · exact store_of_accepted hstored
  · -- a store that the version forbids touches neither memory nor file
    rw [hrefused] at hmemory
    refine h.serves_unwritten ?_ hmemory ?_
    · rw [ReadModelRequest.rewrites, hrefused]
      rfl
    · show (ReadModelAnswer.stored <$> store m expected) s = _
      rw [Fallible.map_apply, store_of_refused hrefused]

theorem Filed.serves_deleteById (h : Filed s) (id : ReadModelId)
    (typeName : ReadModelTypeName) :
    Serves s (s.inMemoryUnlessRefused (.deleteById id typeName))
      ((ReadModelRequest.deleteById id typeName).serve registry s) := by
  have hmemory : (ReadModelRequest.deleteById id typeName).serve Shelf.registry s.shelf =
      (.number <$> Shelf.deleteById id typeName) s.shelf := rfl
  cases hfound : s.shelf.find? ⟨typeName, id⟩ with
  | some m =>
      have hremoved : Shelf.deleteById id typeName s.shelf =
          (.ok 1, s.shelf.erase ⟨typeName, id⟩) := by
        rw [Shelf.deleteById, hfound]
        rfl
      rw [Fallible.map_apply, hremoved] at hmemory
      refine h.serves_rewrite (deleteById id typeName) (h.keyed.erase _) (h.readsBack_erase _) 1
        .number ?_ hmemory rfl (deleteById_apply hremoved)
      rw [ReadModelRequest.rewrites, hfound]
      rfl
  | none =>
      -- nothing is found, so nothing is taken away
      have hremoved : Shelf.deleteById id typeName s.shelf = (.ok 0, s.shelf) := by
        rw [Shelf.deleteById, Shelf.erase, hfound]
        rfl
      rw [Fallible.map_apply, hremoved] at hmemory
      refine h.serves_unwritten ?_ hmemory ?_
      · rw [ReadModelRequest.rewrites, hfound]
        rfl
      · show (ReadModelAnswer.number <$> deleteById id typeName) s = _
        rw [Fallible.map_apply, deleteById_apply hremoved]
        rfl

/-- Whatever files refuse to be written, a request is served as in memory, or skipped. -/
theorem Filed.serves_request (h : Filed s) {r : ReadModelRequest}
    (hr : ∀ m expected, r = .store m expected → m.ReadsBack) :
    Serves s (s.inMemoryUnlessRefused r) (r.serve registry s) := by
  cases r with
  | store m expected => exact h.serves_store (hr m expected rfl) expected
  | deleteById id typeName => exact h.serves_deleteById id typeName
  | deleteAll =>
      exact h.serves_rewrite deleteAll Shelf.keyed_empty (fun m hm => (nomatch hm))
        s.shelf.size .number rfl rfl rfl rfl
  | query q => exact h.serves_unchanged _
  | count q => exact h.serves_unchanged _

/-- A step with the usual file is served as in memory; to open the archive anew changes nothing. -/
theorem Filed.serves_step (h : Filed s) (hl : s.layout.readModels = Layout.readModelsFile)
    {step : ReadModelStep} (hr : step.ReadsBack) :
    Serves s (Shelf.perform step s.shelf) (perform step s) := by
  cases step with
  | request sealedNames r =>
      have hserves := (h.sealing sealedNames).serves_request (r := r) (by
        rintro m expected rfl
        exact hr)
      have hmemory : (s.sealing sealedNames).inMemoryUnlessRefused r =
          Shelf.perform (.request sealedNames r) s.shelf := by
        rw [Shelf.perform, ← hl]
        rfl
      rw [hmemory] at hserves
      exact ⟨hserves.answer, hserves.shelf, hserves.layout, hserves.filed⟩
  | reopen =>
      have hsame : reopen s = (.ok .reopened, s) := by
        rw [reopen, h.openAt_eq_self]
      show Serves s (.ok .reopened, s.shelf) (reopen s)
      rw [hsame]
      exact h.serves_unchanged _

/-- Served step by step, an archive answers and ends as the memory does, with a file that agrees. -/
theorem Filed.serves_steps (steps : List ReadModelStep) (h : Filed s)
    (hl : s.layout.readModels = Layout.readModelsFile) (hr : ∀ step ∈ steps, step.ReadsBack) :
    answers perform steps s = answers Shelf.perform steps s.shelf ∧
      (after perform steps s).shelf = after Shelf.perform steps s.shelf ∧
      (after perform steps s).layout = s.layout ∧ Filed (after perform steps s) := by
  induction steps generalizing s with
  | nil => exact ⟨rfl, rfl, rfl, h⟩
  | cons step rest ih =>
      have hserves := h.serves_step hl (hr step List.mem_cons_self)
      obtain ⟨hanswers, hshelf, hlayout, hfiled⟩ := ih hserves.filed
        (by rw [hserves.layout, hl]) (fun step' hstep => hr step' (List.mem_cons_of_mem _ hstep))
      rw [answers, answers, after, after, hanswers, hserves.answer, hshelf, hserves.shelf]
      exact ⟨rfl, rfl, hlayout.trans hserves.layout, hfiled⟩

/--
An archive that is opened on an empty directory answers every session, in which any files refuse
to be written at any time, as a registry in memory that starts empty and skips exactly the
requests whose rewrite is refused. After it both hold the same documents; and whoever opens the
archive anew by then has the same one, and so decides about versions as it would have.
-/
theorem answers_eq_memory_and_reopened (dataDir : String) (d : Directory)
    (steps : List ReadModelStep) (empty : d.made.entries = some [])
    (readsBack : ∀ step ∈ steps, step.ReadsBack) :
    ∃ s d', openAt (.ofDataDir dataDir) d = (.ok s, d') ∧
      answers perform steps s = answers Shelf.perform steps .empty ∧
      (after perform steps s).shelf = after Shelf.perform steps .empty ∧
      openAt (.ofDataDir dataDir) (after perform steps s).directory =
        (.ok (after perform steps s), (after perform steps s).directory) := by
  have hl := Layout.separate_ofDataDir dataDir
  have hfiled := filed_empty hl empty
  refine ⟨⟨.ofDataDir dataDir, d.made, .empty⟩, d.made, ?_, ?_⟩
  · rw [openAt_eq hl, hfiled.load]
  · obtain ⟨hanswers, hshelf, hlayout, hafter⟩ := hfiled.serves_steps steps rfl readsBack
    have hopen := hafter.openAt_eq_self
    rw [hlayout] at hopen
    exact ⟨hanswers, hshelf, hopen⟩

/-! ## A replacement and a removal that are refused -/

/-- The ace with the given version. -/
def aceOfVersion (version : Nat) : ReadModel := (Shelf.card Shelf.ace).withVersion version

theorem readsBack_aceOfVersion : (aceOfVersion 1).ReadsBack ∧ (aceOfVersion 2).ReadsBack := by
  have hread : ∀ m, StoredReadModel.Recordable (.ofReadModel m) → m.ReadsBack :=
    fun _ h => RecordFormat.reread?_readModels h
  exact ⟨hread _ ⟨⟨by decide +kernel, by decide +kernel⟩, by decide +kernel⟩,
    hread _ ⟨⟨by decide +kernel, by decide +kernel⟩, by decide +kernel⟩⟩

/-- The file refuses a replacement and a removal; what was replaced is still there. -/
def refusedSession : List ReadModelStep :=
  [.request [] (.store (aceOfVersion 1) 0),
    .request ["read_models.jsonl.tmp"] (.store (aceOfVersion 2) 1), .reopen,
    .request ["read_models.jsonl"] (.deleteById Shelf.ace Shelf.cardType),
    .request [] (.store (aceOfVersion 2) 2), .request [] (.store (aceOfVersion 2) 1), .reopen,
    .request ["read_models.jsonl"] (.query { typeName := some Shelf.cardType })]

theorem answers_refusedSession :
    ∃ s d', openAt (.ofDataDir "data") ⟨none, []⟩ = (.ok s, d') ∧
      answers perform refusedSession s =
        [.ok (.stored (.ofReadModel (aceOfVersion 1))),
          .error (.io "read_models.jsonl.tmp cannot be written"), .ok .reopened,
          .error (.io "read_models.jsonl cannot be written"),
          .error (.conflict Shelf.cardType Shelf.ace 2 (some 1)),
          .ok (.stored (.ofReadModel (aceOfVersion 2))), .ok .reopened,
          .ok (.readModels [aceOfVersion 2])] := by
  obtain ⟨hfirst, hsecond⟩ := readsBack_aceOfVersion
  have hreads : ∀ step ∈ refusedSession, step.ReadsBack := by
    simp [refusedSession, ReadModelStep.ReadsBack, hfirst, hsecond]
  obtain ⟨s, d', hopen, hanswers, -⟩ :=
    answers_eq_memory_and_reopened "data" ⟨none, []⟩ refusedSession rfl hreads
  exact ⟨s, d', hopen, hanswers.trans rfl⟩

end ReadModelArchive

end Chronicle
