import Chronicle.Proofs.EventRequests
import Chronicle.Proofs.Frames
import Chronicle.Proofs.LedgerHistory

set_option autoImplicit false

/-!
# Collections do not disturb each other

An archive of events and one of read models may share a directory. A request writes some of the
four collections, and the others load after it what they loaded before, whether it succeeds or
fails, if no written collection is staged in their files (`SharedStore.load_serve_of_not_written`).
The names of a valid layout need only differ; where one of them is the staging name of another,
what is kept under it is lost (`SharedStore.not_isolated`).
-/

namespace Chronicle

namespace EventArchive

open Directory Fallible

variable {α : Type}

/-- Where the archive keeps its files. -/
def place (s : EventArchive) : Layout × Directory := (s.layout, s.directory)

theorem inMemory_leaves (cs : List Holding) (call : Call MemoryEvents α) :
    StepLeaves place cs (inMemory call) := fun s => Leaves.refl cs s.place

theorem persist_leaves (kind : EnvelopeKind) :
    StepLeaves place [.envelopes kind] (persist kind) := by
  intro s
  refine ⟨rfl, fun h => ?_⟩
  exact Lines.framed_replaceAll h .envelopes (fileOf s.layout kind)
    (s.memory.ledger.records kind)

theorem persistDispatched_leaves : StepLeaves place [.marks] persistDispatched := by
  intro s
  refine ⟨rfl, fun h => ?_⟩
  exact Lines.framed_replaceAll h .ids s.layout.dispatched s.memory.ledger.dispatched

theorem persistKinds_leaves (kinds : List EnvelopeKind) :
    StepLeaves place (kinds.map .envelopes) (persistKinds kinds) := by
  induction kinds with
  | nil => exact .done _ ()
  | cons kind rest ih =>
      rw [persistKinds, List.map_cons]
      refine StepLeaves.bind ?_ fun _ => ?_
      · exact (persist_leaves kind).mono (by simp)
      · exact ih.mono (by simp)

/-- The collections that a change of kinds writes. -/
def written (kinds : List EnvelopeKind) (withDispatched : Bool) : List Holding :=
  kinds.map .envelopes ++ if withDispatched then [.marks] else []

theorem persistAll_leaves (kinds : List EnvelopeKind) (withDispatched : Bool) :
    StepLeaves place (written kinds withDispatched) (persistAll kinds withDispatched) := by
  rw [persistAll, written]
  refine StepLeaves.bind ?_ fun _ => ?_
  · exact (persistKinds_leaves kinds).mono (by simp)
  · cases withDispatched with
    | false => exact .done _ ()
    | true => exact persistDispatched_leaves.mono (by simp)

/-- Whatever a commit does and takes back, it writes the collections of the change alone. -/
theorem commit_leaves (kinds : List EnvelopeKind) (withDispatched : Bool)
    (change : Call MemoryEvents α) :
    StepLeaves place (written kinds withDispatched) (commit kinds withDispatched change) := by
  have hpersist := Within.outcome (persistAll_leaves kinds withDispatched)
  rw [commit]
  refine .bind (.read _ _) fun before => ?_
  refine .bind (inMemory_leaves _ change) fun answer => ?_
  refine .bind hpersist fun outcome => ?_
  cases outcome with
  | ok u => exact .done _ answer
  | error e =>
      refine .bind (inMemory_leaves _ _) fun _ => ?_
      exact .bind hpersist fun _ => .fail _ e

/-- The collections that a request writes. -/
def writes (s : EventArchive) : EventRequest → List Holding
  | .store e => [.envelopes e.kind]
  | .markDispatched id => if s.memory.ledger.isDispatched id then [] else [.marks]
  | .replace id replacement =>
      match s.memory.ledger.locate id with
      | none => []
      | some kind => written (touched kind replacement) false
  | .deleteAll => written [.event, .snapshot] true
  | .query .. | .latestSnapshot _ | .count _ => []

theorem store_leaves (e : Envelope) (s : EventArchive) :
    Leaves [.envelopes e.kind] s.place (store e s).2.place := by
  have happend : Leaves [.envelopes e.kind] s.place
      (s.layout, (Lines.append .envelopes (fileOf s.layout e.kind) [⟨s.memory.ids.next, e⟩]
        s.directory).2) := ⟨rfl, fun h => Lines.framed_append h _ _ _⟩
  unfold store
  simp only [onFiles, Fallible.within]
  revert happend
  -- the file takes the line or refuses it; in memory, either is no matter of the directory
  cases Lines.append .envelopes (fileOf s.layout e.kind) [⟨s.memory.ids.next, e⟩]
    s.directory with
  | mk r d => cases r <;> exact id

theorem markDispatched_leaves (id : UniqueId) (s : EventArchive) :
    Leaves (s.writes (.markDispatched id)) s.place (markDispatched id s).2.place := by
  rw [writes]
  cases hid : s.memory.ledger.isDispatched id with
  | true =>
      have hmemory : MemoryEvents.markDispatched id s.memory =
          (.ok false, ⟨s.memory.ledger.mark id, s.memory.ids⟩) := by
        simp [MemoryEvents.markDispatched, MemoryEvents.onLedger, hid]
      simp only [markDispatched, Fallible.bind_apply, inMemory, Fallible.within, hmemory]
      exact .refl _ _
  | false =>
      cases happend : Lines.append .ids s.layout.dispatched [id] s.directory with
      | mk r d =>
          have hd : s.directory.Ordered →
              Framed (Holding.names s.layout [.marks]) s.directory d := by
            intro h
            have hframed := Lines.framed_append h .ids s.layout.dispatched [id]
            rw [happend] at hframed
            exact hframed
          rw [markDispatched_eq hid happend]
          cases r with
          | ok u => exact ⟨rfl, hd⟩
          | error e => exact ⟨rfl, hd⟩

theorem replace_leaves (id : UniqueId) (replacement : Option Envelope) (s : EventArchive) :
    Leaves (s.writes (.replace id replacement)) s.place (replace id replacement s).2.place := by
  rw [writes, replace, Fallible.bind_apply, Fallible.read]
  dsimp only
  cases s.memory.ledger.locate id with
  | none => exact .refl _ _
  | some kind => exact commit_leaves (touched kind replacement) false _ s

/-- Each request leaves all but the collections that it writes. -/
theorem ask_leaves (request : EventRequest) (s : EventArchive) :
    Leaves (s.writes request) s.place (request.ask registry s).2.place := by
  cases request <;> simp only [EventRequest.ask, Fallible.map_apply]
  case store e => exact store_leaves e s
  case markDispatched id => exact markDispatched_leaves id s
  case replace id replacement => exact replace_leaves id replacement s
  case deleteAll => exact commit_leaves [.event, .snapshot] true _ s
  case query q order limit => exact inMemory_leaves [] _ s
  case latestSnapshot q => exact inMemory_leaves [] _ s
  case count q => exact inMemory_leaves [] _ s

end EventArchive

/-- What can be asked of a read model registry. -/
inductive ReadModelRequest
  | store (m : ReadModel) (expected : Nat)
  | deleteById (id : ReadModelId) (typeName : ReadModelTypeName)
  | deleteAll
  | query (q : ReadModelQuery)
  | count (q : Option ReadModelQuery)

/-- Hands a request to a registry; the answers are left out. -/
def ReadModelRequest.ask {σ : Type} (registry : ReadModelRegistry σ) :
    ReadModelRequest → Call σ Unit
  | .store m expected => do let _ ← registry.store m expected
  | .deleteById id typeName => do let _ ← registry.deleteById id typeName
  | .deleteAll => do let _ ← registry.deleteAll
  | .query q => do let _ ← registry.query q
  | .count q => do let _ ← registry.count q

namespace ReadModelArchive

open Directory Fallible

variable {α : Type}

/-- Where the archive keeps its file. -/
def place (s : ReadModelArchive) : Layout × Directory := (s.layout, s.directory)

/-- The collections that a request writes: none if it is refused or removes nothing. -/
def writes (s : ReadModelArchive) : ReadModelRequest → List Holding
  | .store m expected => if (Shelf.store m expected s.shelf).1.isOk then [.readModels] else []
  | .deleteById id typeName =>
      if (s.shelf.find? ⟨typeName, id⟩).isSome then [.readModels] else []
  | .deleteAll => [.readModels]
  | .query _ | .count _ => []

theorem inMemory_leaves (cs : List Holding) (call : Call Shelf α) :
    StepLeaves place cs (inMemory call) := fun s => Leaves.refl cs s.place

theorem persistOr_leaves (before : Shelf) :
    StepLeaves place [.readModels] (persistOr before) := by
  have hpersist : StepLeaves place [.readModels] persist :=
    fun s => ⟨rfl, fun h => Lines.framed_replaceAll h .readModels s.layout.readModels _⟩
  refine .bind (Within.outcome hpersist) fun outcome => ?_
  cases outcome with
  | ok u => exact .done _ ()
  | error e => exact .bind (fun s => Leaves.refl _ s.place) fun _ => .fail _ e

theorem store_leaves (m : ReadModel) (expected : Nat) (s : ReadModelArchive) :
    Leaves (s.writes (.store m expected)) s.place (store m expected s).2.place := by
  rw [writes, store, Fallible.bind_apply, Fallible.read]
  dsimp only
  rw [Fallible.bind_apply, inMemory, Fallible.within]
  cases Shelf.store m expected s.shelf with
  | mk r shelf =>
      cases r with
      | error e => exact .refl _ _
      | ok stored =>
          exact StepLeaves.bind (persistOr_leaves s.shelf) (fun _ => .done _ stored)
            { s with shelf := shelf }

theorem deleteById_leaves (id : ReadModelId) (typeName : ReadModelTypeName)
    (s : ReadModelArchive) :
    Leaves (s.writes (.deleteById id typeName)) s.place (deleteById id typeName s).2.place := by
  rw [writes, deleteById, Fallible.bind_apply, Fallible.read]
  dsimp only
  rw [Fallible.bind_apply, inMemory, Fallible.within, Shelf.deleteById]
  dsimp only
  cases (s.shelf.find? ⟨typeName, id⟩).isSome with
  | false => exact .refl _ _
  | true =>
      exact StepLeaves.bind (persistOr_leaves s.shelf) (fun _ => .done _ _)
        { s with shelf := s.shelf.erase ⟨typeName, id⟩ }

theorem deleteAll_leaves : StepLeaves place [.readModels] deleteAll := by
  refine .bind (.read _ _) fun before => ?_
  refine .bind (inMemory_leaves _ _) fun removed => ?_
  exact .bind (persistOr_leaves before) fun _ => .done _ removed

/-- Each request leaves all but the collections that it writes. -/
theorem ask_leaves (request : ReadModelRequest) (s : ReadModelArchive) :
    Leaves (s.writes request) s.place (request.ask registry s).2.place := by
  cases request <;> rw [ReadModelRequest.ask, Fallible.state_of_forget]
  case store m expected => exact store_leaves m expected s
  case deleteById id typeName => exact deleteById_leaves id typeName s
  case deleteAll => exact deleteAll_leaves s
  case query q => exact .refl _ _
  case count q => exact .refl _ _

end ReadModelArchive

/-! ## Both archives in one directory -/

/-- An archive of events and one of read models in one directory. -/
structure SharedStore where
  layout : Layout
  directory : Directory
  memory : MemoryEvents
  shelf : Shelf

/-- What can be asked of either archive. -/
inductive SharedRequest
  | events (request : EventRequest)
  | readModels (request : ReadModelRequest)

namespace SharedStore

variable {s : SharedStore} {c : Holding}

/-- The archive of events. -/
def events (s : SharedStore) : EventArchive := ⟨s.layout, s.directory, s.memory⟩

/-- The archive of read models. -/
def readModels (s : SharedStore) : ReadModelArchive := ⟨s.layout, s.directory, s.shelf⟩

/-- The store while the files of the given names refuse to be written. -/
def sealing (names : List String) (s : SharedStore) : SharedStore :=
  { s with directory := { s.directory with sealedNames := names } }

/-- The store after a request was served, be it with success or with an error. -/
def serve (s : SharedStore) : SharedRequest → SharedStore
  | .events request =>
      let t := (request.ask EventArchive.registry s.events).2
      { s with directory := t.directory, memory := t.memory }
  | .readModels request =>
      let t := (request.ask ReadModelArchive.registry s.readModels).2
      { s with directory := t.directory, shelf := t.shelf }

/-- The collections that a request writes. -/
def writes (s : SharedStore) : SharedRequest → List Holding
  | .events request => s.events.writes request
  | .readModels request => s.readModels.writes request

/--
The stores that are reached when both archives are opened on a valid layout, whatever the
directory holds by then: requests of both are served in any order, while any files refuse to be
written. To open them anew is to open them on the directory that they leave.
-/
inductive Reachable : SharedStore → Prop
  | opened {layout : Layout} {ids : IdSupply} {d d₁ d₂ : Directory} {a : EventArchive}
      {b : ReadModelArchive} (ordered : d.Ordered)
      (hevents : EventArchive.openAt layout ids d = (.ok a, d₁))
      (hreadModels : ReadModelArchive.openAt layout d₁ = (.ok b, d₂)) :
      Reachable ⟨layout, d₂, a.memory, b.shelf⟩
  | sealed {s : SharedStore} (h : Reachable s) (names : List String) : Reachable (s.sealing names)
  | served {s : SharedStore} (h : Reachable s) (request : SharedRequest) :
      Reachable (s.serve request)

/-- A request leaves all but the collections that it writes. -/
theorem serve_leaves (request : SharedRequest) (s : SharedStore) :
    Leaves (s.writes request) (s.layout, s.directory) (s.layout, (s.serve request).directory) := by
  cases request with
  | events request =>
      have h := EventArchive.ask_leaves request s.events
      exact ⟨rfl, h.2⟩
  | readModels request =>
      have h := ReadModelArchive.ask_leaves request s.readModels
      exact ⟨rfl, h.2⟩

theorem serve_layout (request : SharedRequest) (s : SharedStore) :
    (s.serve request).layout = s.layout := by
  cases request <;> rfl

/-- What opening an archive of events asks of the layout, and leaves of the directory. -/
theorem openAt_events {layout : Layout} {ids : IdSupply} {d d' : Directory} {a : EventArchive}
    (h : EventArchive.openAt layout ids d = (.ok a, d')) :
    layout.validate = .ok () ∧ d' = d.made := by
  unfold EventArchive.openAt at h
  cases hvalid : layout.validate with
  | error e =>
      rw [hvalid] at h
      cases h
  | ok u =>
      rw [hvalid] at h
      dsimp only at h
      split at h
      · cases h
      · exact ⟨rfl, (Prod.mk.inj h).2.symm⟩

theorem openAt_readModels {layout : Layout} {d d' : Directory} {b : ReadModelArchive}
    (h : ReadModelArchive.openAt layout d = (.ok b, d')) : d' = d.made := by
  unfold ReadModelArchive.openAt at h
  split at h
  · cases h
  · split at h
    · cases h
    · exact (Prod.mk.inj h).2.symm

/-- A reached store has a valid layout, and its directory is in order. -/
theorem Reachable.valid (h : Reachable s) :
    s.layout.validate = .ok () ∧ s.directory.Ordered := by
  induction h with
  | opened ordered hevents hreadModels =>
      obtain ⟨hvalid, rfl⟩ := openAt_events hevents
      obtain rfl := openAt_readModels hreadModels
      exact ⟨hvalid, Directory.ordered_made (Directory.ordered_made ordered)⟩
  | sealed _ names ih => exact ih
  | @served s _ request ih =>
      rw [serve_layout]
      exact ⟨ih.1, ((serve_leaves request s).2 ih.2).ordered⟩

/--
A collection that a request does not write loads after it what it loaded before, unless a written
collection is staged in its file.
-/
theorem load_serve_of_not_written (h : Reachable s) {request : SharedRequest}
    (hc : c ∉ s.writes request)
    (hstaging : ∀ c' ∈ s.writes request,
      Lines.stagingName (c'.file s.layout).text ≠ (c.file s.layout).text) :
    c.load s.layout (s.serve request).directory = c.load s.layout s.directory := by
  obtain ⟨hvalid, hordered⟩ := h.valid
  refine (serve_leaves request s).load_eq hordered ?_ fun c' hc' => (hstaging c' hc').symm
  intro c' hc' hfile
  exact hc (Holding.file_injective hvalid hfile ▸ hc')

/-! ## Runs -/

/-- The store after one request after another. -/
def serveAll (s : SharedStore) : List SharedRequest → SharedStore
  | [] => s
  | request :: rest => (s.serve request).serveAll rest

/-- None of the requests, made one after another, writes the collection. -/
def Untouched (c : Holding) (s : SharedStore) : List SharedRequest → Prop
  | [] => True
  | request :: rest => c ∉ s.writes request ∧ Untouched c (s.serve request) rest

/-- A collection that is never written, and in whose file none is staged, loads what it did. -/
theorem load_serveAll_of_untouched (h : Reachable s) {requests : List SharedRequest}
    (hc : Untouched c s requests)
    (hstaging : ∀ f ∈ s.layout.files,
      Lines.stagingName f.text ≠ (c.file s.layout).text) :
    c.load s.layout (s.serveAll requests).directory = c.load s.layout s.directory := by
  induction requests generalizing s with
  | nil => rfl
  | cons request rest ih =>
      obtain ⟨hfirst, hrest⟩ := hc
      have hlayout := serve_layout request s
      have hstep := load_serve_of_not_written h hfirst
        fun c' _ => hstaging _ (c'.file_mem s.layout)
      have hrun := ih (h.served request) hrest (by rwa [hlayout])
      rw [hlayout] at hrun
      rw [serveAll, hrun, hstep]

/-! ## Names that clash -/

/-- A new store of the layout. -/
def inNewDirectory (layout : Layout) : SharedStore :=
  ⟨layout, ⟨some [], []⟩, ⟨.empty, ⟨.ofNat, 1⟩⟩, .empty⟩

theorem reachable_inNewDirectory {layout : Layout} (hvalid : layout.validate = .ok ())
    (hallowed : ∀ f ∈ layout.files, Directory.allows f.text = true) :
    Reachable (inNewDirectory layout) := by
  have hordered : (⟨some [], []⟩ : Directory).Ordered := by
    rintro es ⟨⟩
    exact OrderedMap.ascending_nil
  -- no collection has a file yet
  have hload : ∀ {α : Type} (format : RecordFormat α) (c : Holding),
      Lines.load format layout (c.file layout) ⟨some [], []⟩ = .ok [] := by
    intro α format c
    rw [Lines.load, Directory.read, if_pos (hallowed _ (c.file_mem layout))]
    rfl
  have hevents := hload .envelopes (.envelopes .event)
  have hsnapshots := hload .envelopes (.envelopes .snapshot)
  have hmarks := hload .ids .marks
  have hreadModels := hload .readModels .readModels
  simp only [Holding.file, EventArchive.fileOf] at hevents hsnapshots hmarks hreadModels
  have hopenEvents : EventArchive.openAt layout ⟨.ofNat, 1⟩ ⟨some [], []⟩ =
      (.ok ⟨layout, ⟨some [], []⟩, ⟨.empty, ⟨.ofNat, 1⟩⟩⟩, ⟨some [], []⟩) := by
    have hempty : EventArchive.load layout ⟨some [], []⟩ = .ok .empty := by
      rw [EventArchive.load, hevents, hsnapshots, hmarks]
      rfl
    simp only [EventArchive.openAt, hvalid, Directory.made, Option.getD_some, hempty]
  have hopenReadModels : ReadModelArchive.openAt layout ⟨some [], []⟩ =
      (.ok ⟨layout, ⟨some [], []⟩, .empty⟩, ⟨some [], []⟩) := by
    have hempty : ReadModelArchive.load layout ⟨some [], []⟩ = .ok .empty := by
      rw [ReadModelArchive.load, hreadModels]
      rfl
    simp only [ReadModelArchive.openAt, hvalid, Directory.made, Option.getD_some, hempty]
  exact .opened hordered hopenEvents hopenReadModels

/-- A store with an event and a snapshot. -/
def withSnapshot (layout : Layout) : SharedStore :=
  ((inNewDirectory layout).serve (.events (.store MemoryEvents.cartEvent))).serve
    (.events (.store MemoryEvents.walletSnapshot))

/-- The event of the store is removed. -/
def removal : SharedRequest := .events (.replace (.ofNat 1) none)

theorem reachable_withSnapshot {layout : Layout} (hvalid : layout.validate = .ok ())
    (hallowed : ∀ f ∈ layout.files, Directory.allows f.text = true) :
    Reachable (withSnapshot layout) :=
  ((reachable_inNewDirectory hvalid hallowed).served _).served _

theorem load_serve_removal :
    (Holding.envelopes .snapshot).load (withSnapshot (.ofDataDir "data")).layout
        ((withSnapshot (.ofDataDir "data")).serve removal).directory =
      (Holding.envelopes .snapshot).load (withSnapshot (.ofDataDir "data")).layout
        (withSnapshot (.ofDataDir "data")).directory :=
  load_serve_of_not_written (reachable_withSnapshot (by rfl) (by decide +kernel))
    (by decide +kernel) (by decide +kernel)

/-- A valid layout that keeps snapshots under the name by which events are staged. -/
def clashing : Layout where
  dataDir := "data"
  events := ⟨"e", by decide, by decide, by decide, by decide⟩
  snapshots := ⟨"e.tmp", by decide, by decide, by decide, by decide⟩
  dispatched := Layout.dispatchedFile
  readModels := Layout.readModelsFile

/-- When the events are written anew, the snapshots that stand in their way are lost. -/
theorem not_isolated :
    clashing.validate = .ok () ∧
      ¬∀ (s : SharedStore) (request : SharedRequest) (c : Holding),
        s.layout = clashing → Reachable s → c ∉ s.writes request →
        c.load s.layout (s.serve request).directory = c.load s.layout s.directory := by
  have hvalid : clashing.validate = .ok () := rfl
  refine ⟨hvalid, fun h => ?_⟩
  have hsame := h (withSnapshot clashing) removal (.envelopes .snapshot) (by rfl)
    (reachable_withSnapshot hvalid (by decide +kernel)) (by decide +kernel)
  -- one snapshot was there, and none is left
  have hlength := congrArg (fun r => r.toOption.map List.length) hsame
  exact absurd hlength (by decide +kernel)

end SharedStore

end Chronicle
