import Chronicle.Event.Ledger
import Chronicle.ReadModel.Shelf
import Chronicle.Registry.Basic

set_option autoImplicit false

/-!
# Registries in memory

The registries over a ledger and over a shelf. The check of a read model's version and its
storing are one step.
-/

namespace Chronicle

/-- A ledger, and the ids for what is stored next. -/
structure MemoryEvents where
  ledger : Ledger
  ids : IdSupply

namespace MemoryEvents

/-- A step on the ledger that cannot fail. -/
def onLedger {α : Type} (answer : Ledger → α) (change : Ledger → Ledger) : Call MemoryEvents α :=
  fun s => (.ok (answer s.ledger), { s with ledger := change s.ledger })

/-- Stores an envelope under the next id. -/
def store (e : Envelope) : Call MemoryEvents UniqueId := fun s =>
  (.ok s.ids.next, { ledger := s.ledger.insert s.ids.next e, ids := s.ids.advance })

/-- Marks an id as dispatched. -/
def markDispatched (id : UniqueId) : Call MemoryEvents Bool :=
  onLedger (fun l => !l.isDispatched id) (Ledger.mark id)

/-- Overwrites or removes what stands under an id. -/
def replace (id : UniqueId) (replacement : Option Envelope) : Call MemoryEvents Bool :=
  onLedger (fun l => (l.locate id).isSome) (Ledger.replace id replacement)

/-- Removes everything. -/
def deleteAll : Call MemoryEvents Nat := onLedger Ledger.size fun _ => .empty

/-- Forgets that an id was dispatched; false if it was not. -/
def unmark (id : UniqueId) : Call MemoryEvents Bool :=
  onLedger (fun l => l.isDispatched id) (Ledger.unmark id)

/-- Puts given records and dispatched ids in the place of everything. -/
def restore (records : List StoredEnvelope) (dispatched : List UniqueId) :
    Call MemoryEvents Unit :=
  onLedger (fun _ => ()) fun _ => .ofRecords records dispatched

/-- The sizes of a ledger's collections. -/
def sizes (l : Ledger) : Fields :=
  [("events", .ofNat l.events.size), ("snapshots", .ofNat l.snapshots.size),
    ("dispatched", .ofNat l.dispatched.length)]

/-- The event registry in memory. -/
def registry : EventRegistry MemoryEvents where
  store := store
  query q order limit := .read fun s => s.ledger.query q order limit
  latestSnapshot q := .read fun s => s.ledger.latestSnapshot? q
  markDispatched := markDispatched
  replace := replace
  deleteAll := deleteAll
  count q := .read fun s => s.ledger.count q
  isUp := .done true
  details := .read fun s => .object (sizes s.ledger)
  urls _ := ["memory://events"]

end MemoryEvents

namespace Shelf

/-- Stores a read model if its version allows it. -/
def store (m : ReadModel) (expected : Nat) : Call Shelf StoredReadModel := fun shelf =>
  if m.version = 0 then
    (.error (.invalidReadModel (.versionZero m.typeName m.id)), shelf)
  else
    let current := (shelf.find? m.key).map ReadModel.version
    if 1 < m.version ∧ current ≠ some expected then
      (.error (.conflict m.typeName m.id expected current), shelf)
    else (.ok (.ofReadModel m), shelf.insert m)

/-- Removes a read model. -/
def deleteById (id : ReadModelId) (typeName : ReadModelTypeName) : Call Shelf Nat := fun shelf =>
  (.ok (if (shelf.find? ⟨typeName, id⟩).isSome then 1 else 0), shelf.erase ⟨typeName, id⟩)

/-- Removes everything. -/
def deleteAll : Call Shelf Nat := fun shelf => (.ok shelf.size, empty)

/-- Puts given records in the place of everything. -/
def restore (records : List StoredReadModel) : Call Shelf Unit := fun _ =>
  (.ok (), .ofRecords records)

/-- The size of a shelf. -/
def sizes (shelf : Shelf) : Fields := [("readModels", .ofNat shelf.size)]

/-- The read model registry in memory. -/
def registry : ReadModelRegistry Shelf where
  store := store
  query q := .read fun shelf => shelf.query q
  deleteById := deleteById
  deleteAll := deleteAll
  count q := .read fun shelf => shelf.count q
  isUp := .done true
  details := .read fun shelf => .object (sizes shelf)
  urls _ := ["memory://read-models"]

end Shelf

end Chronicle
