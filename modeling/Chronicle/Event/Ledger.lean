import Chronicle.Event.Query
import Chronicle.Index

set_option autoImplicit false

/-!
# The ledger of events

Stored envelopes in memory: events and snapshots each in a collection with an index by entity,
and the set of the ids that were dispatched. An id stands in at most one of the collections.
-/

namespace Chronicle

/-- Envelopes by id, and the ids by entity. -/
structure Collection where
  items : OrderedMap UniqueId Envelope
  byEntity : Index EntityKey UniqueId

namespace Collection

/-- The collection without envelopes. -/
def empty : Collection := ⟨[], []⟩

/-- Puts an envelope under an id. -/
def insert (id : UniqueId) (e : Envelope) (c : Collection) : Collection where
  items := OrderedMap.insert id e c.items
  byEntity := Index.insert e.entity id c.byEntity

/-- Takes away what stands under an id. -/
def erase (id : UniqueId) (c : Collection) : Collection :=
  match OrderedMap.find? id c.items with
  | none => c
  | some e =>
      { items := OrderedMap.erase id c.items, byEntity := Index.erase e.entity id c.byEntity }

/-- Whether something stands under the id. -/
def contains (id : UniqueId) (c : Collection) : Bool := OrderedMap.contains id c.items

/-- The stored envelopes in id order. -/
def records (c : Collection) : List StoredEnvelope := c.items.map fun e => ⟨e.1, e.2⟩

/-- The number of stored envelopes. -/
def size (c : Collection) : Nat := c.items.length

/-- The envelopes of an entity, found by the index. -/
def ofEntity (entity : EntityKey) (c : Collection) : List StoredEnvelope :=
  (Index.get entity c.byEntity).filterMap fun id =>
    (OrderedMap.find? id c.items).map fun e => ⟨id, e⟩

/-- The envelopes worth matching: those of the entity if the query fixes one, else all. -/
def candidates (q : EventQuery) (c : Collection) : List StoredEnvelope :=
  match q.entity? with
  | some entity => c.ofEntity entity
  | none => c.records

end Collection

/-- The events, the snapshots, and the ids that were dispatched. -/
structure Ledger where
  events : Collection
  snapshots : Collection
  dispatched : OrderedSet UniqueId

namespace Ledger

/-- The ledger with nothing in it. -/
def empty : Ledger := ⟨.empty, .empty, []⟩

/-- The collection of a kind. -/
def collection (kind : EnvelopeKind) (l : Ledger) : Collection :=
  match kind with
  | .event => l.events
  | .snapshot => l.snapshots

/-- Changes the collection of a kind. -/
def modify (kind : EnvelopeKind) (f : Collection → Collection) (l : Ledger) : Ledger :=
  match kind with
  | .event => { l with events := f l.events }
  | .snapshot => { l with snapshots := f l.snapshots }

/-- Puts an envelope under an id, into the collection of its kind. -/
def insert (id : UniqueId) (e : Envelope) (l : Ledger) : Ledger :=
  l.modify e.kind (Collection.insert id e)

/-- The kind of what stands under an id. -/
def locate (id : UniqueId) (l : Ledger) : Option EnvelopeKind :=
  if l.events.contains id then some .event
  else if l.snapshots.contains id then some .snapshot
  else none

/-- Takes away what stands under an id. -/
def erase (id : UniqueId) (l : Ledger) : Ledger :=
  match l.locate id with
  | some kind => l.modify kind (Collection.erase id)
  | none => l

/-- Adds a record in the place of one with its id. -/
def load (record : StoredEnvelope) (l : Ledger) : Ledger :=
  (l.erase record.id).insert record.id record.envelope

/-- The ledger of given records and dispatched ids; of records with one id the last stays. -/
def ofRecords (records : List StoredEnvelope) (dispatched : List UniqueId) : Ledger :=
  { records.foldl (fun l r => l.load r) empty with dispatched := OrderedSet.ofElements dispatched }

/-- Puts an envelope in the place of what stands under an id, or just takes that away. -/
def replace (id : UniqueId) (replacement : Option Envelope) (l : Ledger) : Ledger :=
  match l.locate id with
  | none => l
  | some _ =>
      match replacement with
      | none => l.erase id
      | some e => (l.erase id).insert id e

/-- Whether an id was dispatched. -/
def isDispatched (id : UniqueId) (l : Ledger) : Bool := OrderedSet.contains id l.dispatched

/-- Marks an id as dispatched. -/
def mark (id : UniqueId) (l : Ledger) : Ledger :=
  { l with dispatched := OrderedSet.insert id l.dispatched }

/-- Forgets that an id was dispatched. -/
def unmark (id : UniqueId) (l : Ledger) : Ledger :=
  { l with dispatched := OrderedSet.erase id l.dispatched }

/-- The records of a kind in id order. -/
def records (kind : EnvelopeKind) (l : Ledger) : List StoredEnvelope :=
  (l.collection kind).records

/-- The records of both kinds, events first. -/
def allRecords (l : Ledger) : List StoredEnvelope := l.records .event ++ l.records .snapshot

/-- The number of stored envelopes. -/
def size (l : Ledger) : Nat := l.events.size + l.snapshots.size

/-- The answer to a query. -/
def query (q : EventQuery) (order : TimeOrder) (limit : Option Nat) (l : Ledger) :
    List StoredEnvelope :=
  q.select order limit ((l.collection q.kind).candidates q)

/-- The latest snapshot that a query matches. -/
def latestSnapshot? (q : EventQuery) (l : Ledger) : Option StoredEnvelope :=
  q.latestSnapshot? (l.snapshots.candidates q)

/-- The number of envelopes that a query matches; without a query, of all events. -/
def count (q : Option EventQuery) (l : Ledger) : Nat :=
  let q := q.getD .events
  (q.filter ((l.collection q.kind).candidates q)).length

end Ledger

end Chronicle
