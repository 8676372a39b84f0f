import Chronicle.Index
import Chronicle.ReadModel.Query

set_option autoImplicit false

/-!
# The shelf of read models

Read models in memory, by type and id, with an index of the ids by type.
-/

namespace Chronicle

/-- What identifies a read model. -/
structure ReadModelKey where
  typeName : ReadModelTypeName
  id : ReadModelId
deriving DecidableEq

namespace ReadModelKey

/-- Keys are ordered by type, then by id. -/
instance : Ord ReadModelKey :=
  ⟨fun a b => (compare a.typeName b.typeName).then (compare a.id b.id)⟩

instance : Std.TransOrd ReadModelKey :=
  inferInstanceAs (Std.TransCmp
    (compareLex (compareOn ReadModelKey.typeName) (compareOn ReadModelKey.id)))

instance : Std.LawfulEqOrd ReadModelKey where
  eq_of_compare {a b} h := by
    obtain ⟨ht, hi⟩ := Ordering.then_eq_eq.mp h
    cases a
    cases b
    cases Std.LawfulEqOrd.eq_of_compare ht
    cases Std.LawfulEqOrd.eq_of_compare hi
    rfl

end ReadModelKey

/-- The key of a read model. -/
def ReadModel.key (m : ReadModel) : ReadModelKey := ⟨m.typeName, m.id⟩

/-- Read models by key, and the ids by type. -/
structure Shelf where
  documents : OrderedMap ReadModelKey ReadModel
  byType : Index ReadModelTypeName ReadModelId

namespace Shelf

/-- The shelf without read models. -/
def empty : Shelf := ⟨[], []⟩

/-- Puts a read model in the place of the one with its key. -/
def insert (m : ReadModel) (shelf : Shelf) : Shelf where
  documents := OrderedMap.insert m.key m shelf.documents
  byType := Index.insert m.typeName m.id shelf.byType

/-- The read model with a key. -/
def find? (key : ReadModelKey) (shelf : Shelf) : Option ReadModel :=
  OrderedMap.find? key shelf.documents

/-- Takes away the read model with a key. -/
def erase (key : ReadModelKey) (shelf : Shelf) : Shelf :=
  match shelf.find? key with
  | none => shelf
  | some _ =>
      { documents := OrderedMap.erase key shelf.documents,
        byType := Index.erase key.typeName key.id shelf.byType }

/-- All read models, by type and then by id. -/
def readModels (shelf : Shelf) : List ReadModel := shelf.documents.map Prod.snd

/-- All read models as stored, by type and then by id. -/
def records (shelf : Shelf) : List StoredReadModel :=
  shelf.readModels.map StoredReadModel.ofReadModel

/-- The shelf of given records; of records with one key the last stays. -/
def ofRecords (records : List StoredReadModel) : Shelf :=
  records.foldl (fun shelf r => shelf.insert r.readModel) empty

/-- The number of read models. -/
def size (shelf : Shelf) : Nat := shelf.documents.length

/-- The read models worth matching: narrowed by the type of the query, and then by its id. -/
def candidates (q : ReadModelQuery) (shelf : Shelf) : List ReadModel :=
  match q.typeName, q.id with
  | some typeName, some id => (shelf.find? ⟨typeName, id⟩).toList
  | some typeName, none =>
      (Index.get typeName shelf.byType).filterMap fun id => shelf.find? ⟨typeName, id⟩
  | none, _ => shelf.readModels

/-- The answer to a query. -/
def query (q : ReadModelQuery) (shelf : Shelf) : List ReadModel :=
  q.execute (shelf.candidates q)

/-- The number of read models that a query matches; without a query, of all. -/
def count (q : Option ReadModelQuery) (shelf : Shelf) : Nat :=
  match q with
  | some q => ((shelf.candidates q).filter q.matchesReadModel).length
  | none => shelf.size

end Shelf

end Chronicle
