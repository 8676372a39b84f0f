import Chronicle.Registry.Memory
import Chronicle.Storage.Layout
import Chronicle.Storage.Lines

set_option autoImplicit false

/-!
# Registries in files

Registries that answer from memory and keep their records in collection files. What is stored or
dispatched is appended; what is replaced or removed makes its files be written anew. A change
whose files cannot be written is undone in memory before the call fails.
-/

namespace Chronicle

/-- An event registry with its files. -/
structure EventArchive where
  layout : Layout
  directory : Directory
  memory : MemoryEvents

namespace EventArchive

/-- A step on the memory. -/
def inMemory {α : Type} (call : Call MemoryEvents α) : Call EventArchive α :=
  Fallible.within EventArchive.memory (fun m s => { s with memory := m }) call

/-- A step on the files. -/
def onFiles {α : Type} (call : Call Directory α) : Call EventArchive α :=
  Fallible.within EventArchive.directory (fun d s => { s with directory := d }) call

/-- What the files of a directory hold, events first. -/
def load (layout : Layout) (d : Directory) : Except RegistryError Ledger := do
  let events ← Lines.load .envelopes layout layout.events d
  let snapshots ← Lines.load .envelopes layout layout.snapshots d
  let dispatched ← Lines.load .ids layout layout.dispatched d
  return .ofRecords (events ++ snapshots) dispatched

/-- Opens the registry of a layout; the directory is made if it does not exist. -/
def openAt (layout : Layout) (ids : IdSupply) : Call Directory EventArchive := fun d =>
  match layout.validate with
  | .error e => (.error e, d)
  | .ok () =>
      match load layout d.made with
      | .error e => (.error e, d.made)
      | .ok ledger => (.ok ⟨layout, d.made, ⟨ledger, ids⟩⟩, d.made)

/-- The file of a kind. -/
def fileOf (layout : Layout) (kind : EnvelopeKind) : CollectionFileName :=
  match kind with
  | .event => layout.events
  | .snapshot => layout.snapshots

/-- Writes the records of a kind anew. -/
def persist (kind : EnvelopeKind) : Call EventArchive Unit := fun s =>
  onFiles (Lines.replaceAll .envelopes (fileOf s.layout kind) (s.memory.ledger.records kind)) s

/-- Writes the records of each kind anew; the first failure ends it. -/
def persistKinds : List EnvelopeKind → Call EventArchive Unit
  | [] => .done ()
  | kind :: rest => do
      persist kind
      persistKinds rest

/-- Writes the dispatched ids anew. -/
def persistDispatched : Call EventArchive Unit := fun s =>
  onFiles (Lines.replaceAll .ids s.layout.dispatched s.memory.ledger.dispatched) s

/-- Writes collections anew: those of the kinds and, if asked, the dispatched ids. -/
def persistAll (kinds : List EnvelopeKind) (withDispatched : Bool) : Call EventArchive Unit := do
  persistKinds kinds
  if withDispatched then persistDispatched

/--
Makes a change in memory and writes the touched collections anew. If that fails, the memory is
restored from what it held before, and the collections are written once more as far as possible.
-/
def commit {α : Type} (kinds : List EnvelopeKind) (withDispatched : Bool)
    (change : Call MemoryEvents α) : Call EventArchive α := do
  let before ← Fallible.read fun s => s.memory.ledger
  let answer ← inMemory change
  match ← (persistAll kinds withDispatched).outcome with
  | .ok () => return answer
  | .error e =>
      inMemory (MemoryEvents.restore before.allRecords before.dispatched)
      let _ ← (persistAll kinds withDispatched).outcome
      Fallible.fail e

/-- Stores an envelope and appends it to the file of its kind. -/
def store (e : Envelope) : Call EventArchive UniqueId := fun s =>
  let id := s.memory.ids.next
  let stored := { s with memory.ledger := s.memory.ledger.insert id e }
  let line := Lines.append .envelopes (fileOf s.layout e.kind) [⟨id, e⟩]
  match onFiles line stored with
  | (.ok (), s') => (.ok id, { s' with memory.ids := s.memory.ids.advance })
  | (.error error, s') =>
      (.error error, { s' with memory.ledger := s'.memory.ledger.replace id none })

/-- Marks an id as dispatched and, the first time, appends it to its file. -/
def markDispatched (id : UniqueId) : Call EventArchive Bool := do
  if ← inMemory (MemoryEvents.markDispatched id) then
    let layout ← Fallible.read EventArchive.layout
    match ← (onFiles (Lines.append .ids layout.dispatched [id])).outcome with
    | .ok () => return true
    | .error e =>
        let _ ← inMemory (MemoryEvents.unmark id)
        Fallible.fail e
  else return false

/-- The kinds whose collections a replacement touches. -/
def touched (kind : EnvelopeKind) (replacement : Option Envelope) : List EnvelopeKind :=
  match replacement with
  | some e => if e.kind = kind then [kind] else [kind, e.kind]
  | none => [kind]

/-- Overwrites or removes what stands under an id. -/
def replace (id : UniqueId) (replacement : Option Envelope) : Call EventArchive Bool := do
  match ← Fallible.read fun s => s.memory.ledger.locate id with
  | none => return false
  | some kind =>
      commit (touched kind replacement) false (MemoryEvents.replace id replacement)

/-- Removes everything. -/
def deleteAll : Call EventArchive Nat := commit [.event, .snapshot] true MemoryEvents.deleteAll

/-- The event registry in files. -/
def registry : EventRegistry EventArchive where
  store := store
  query q order limit := inMemory (MemoryEvents.registry.query q order limit)
  latestSnapshot q := inMemory (MemoryEvents.registry.latestSnapshot q)
  markDispatched := markDispatched
  replace := replace
  deleteAll := deleteAll
  count q := inMemory (MemoryEvents.registry.count q)
  isUp := .read fun s => s.directory.isPresent
  details := .read fun s =>
    .object (MemoryEvents.sizes s.memory.ledger ++ [("dataDir", .string s.layout.dataDir)])
  urls s :=
    [s.layout.events, s.layout.snapshots, s.layout.dispatched].map fun name =>
      "file://" ++ s.layout.pathOf name

end EventArchive

/-- A read model registry with its file. -/
structure ReadModelArchive where
  layout : Layout
  directory : Directory
  shelf : Shelf

namespace ReadModelArchive

/-- A step on the memory. -/
def inMemory {α : Type} (call : Call Shelf α) : Call ReadModelArchive α :=
  Fallible.within ReadModelArchive.shelf (fun m s => { s with shelf := m }) call

/-- A step on the files. -/
def onFiles {α : Type} (call : Call Directory α) : Call ReadModelArchive α :=
  Fallible.within ReadModelArchive.directory (fun d s => { s with directory := d }) call

/-- What the file of a directory holds. -/
def load (layout : Layout) (d : Directory) : Except RegistryError Shelf := do
  return .ofRecords (← Lines.load .readModels layout layout.readModels d)

/-- Opens the registry of a layout; the directory is made if it does not exist. -/
def openAt (layout : Layout) : Call Directory ReadModelArchive := fun d =>
  match layout.validate with
  | .error e => (.error e, d)
  | .ok () =>
      match load layout d.made with
      | .error e => (.error e, d.made)
      | .ok shelf => (.ok ⟨layout, d.made, shelf⟩, d.made)

/-- Writes the read models anew. -/
def persist : Call ReadModelArchive Unit := fun s =>
  onFiles (Lines.replaceAll .readModels s.layout.readModels s.shelf.records) s

/-- Writes the read models anew; if that fails, the memory gets back what it held before. -/
def persistOr (before : Shelf) : Call ReadModelArchive Unit := do
  match ← persist.outcome with
  | .ok () => return ()
  | .error e =>
      Fallible.change fun s => { s with shelf := .ofRecords before.records }
      Fallible.fail e

/-- Stores a read model if its version allows it. -/
def store (m : ReadModel) (expected : Nat) : Call ReadModelArchive StoredReadModel := do
  let before ← Fallible.read ReadModelArchive.shelf
  let stored ← inMemory (Shelf.store m expected)
  persistOr before
  return stored

/-- Removes a read model. -/
def deleteById (id : ReadModelId) (typeName : ReadModelTypeName) : Call ReadModelArchive Nat := do
  let before ← Fallible.read ReadModelArchive.shelf
  let removed ← inMemory (Shelf.deleteById id typeName)
  if 0 < removed then persistOr before
  return removed

/-- Removes everything. -/
def deleteAll : Call ReadModelArchive Nat := do
  let before ← Fallible.read ReadModelArchive.shelf
  let removed ← inMemory Shelf.deleteAll
  persistOr before
  return removed

/-- The read model registry in files. -/
def registry : ReadModelRegistry ReadModelArchive where
  store := store
  query q := inMemory (Shelf.registry.query q)
  deleteById := deleteById
  deleteAll := deleteAll
  count q := inMemory (Shelf.registry.count q)
  isUp := .read fun s => s.directory.isPresent
  details := .read fun s =>
    .object (Shelf.sizes s.shelf ++ [("dataDir", .string s.layout.dataDir)])
  urls s := ["file://" ++ s.layout.pathOf s.layout.readModels]

end ReadModelArchive

end Chronicle
