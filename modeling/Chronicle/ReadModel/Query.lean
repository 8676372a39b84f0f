import Chronicle.Filter.Evaluation
import Chronicle.Projection
import Chronicle.ReadModel.Envelope
import Chronicle.Sorting

set_option autoImplicit false

/-!
# Read model queries

Conditions on read models and the shape of the answer. A query runs in the order match, sort,
skip, limit, project.
-/

namespace Chronicle

/-- Which read models to find, in which order, which of them to answer, and which parts. -/
structure ReadModelQuery where
  typeName : Option ReadModelTypeName := none
  id : Option ReadModelId := none
  /-- Values that must stand at paths of the document. -/
  valueEquals : List (FieldPath × Json) := []
  filter : Option Filter := none
  sortBy : SortKeys := []
  skip : Option Nat := none
  limit : Option Nat := none
  projection : Option Projection := none

namespace ReadModelQuery

/-- The query for every read model of a type. -/
def ofType (typeName : ReadModelTypeName) : ReadModelQuery := { typeName := some typeName }

/-- Whether the read model keeps every condition. -/
def matchesReadModel (q : ReadModelQuery) (m : ReadModel) : Bool :=
  q.typeName.all (fun n => n == m.typeName) && q.id.all (fun i => i == m.id) &&
    q.valueEquals.all (fun e => (e.1.resolve m.value).any fun v => v.agrees e.2) &&
    q.filter.all (fun f => f.accepts m.value)

/-- The part of the read model that the query asks for. -/
def shape (q : ReadModelQuery) (m : ReadModel) : ReadModel :=
  match q.projection with
  | some projection => { m with value := projection.apply m.value }
  | none => m

/-- The matching candidates in the asked order. -/
def arrange (q : ReadModelQuery) (candidates : List ReadModel) : List ReadModel :=
  q.sortBy.sort ReadModel.value (candidates.filter q.matchesReadModel)

/-- The part of a list after the skipped ones and within the limit. -/
def page {α : Type} (q : ReadModelQuery) (items : List α) : List α :=
  let rest := items.drop (q.skip.getD 0)
  match q.limit with
  | some n => rest.take n
  | none => rest

/-- The answer to the query over the candidates. -/
def execute (q : ReadModelQuery) (candidates : List ReadModel) : List ReadModel :=
  (q.page (q.arrange candidates)).map q.shape

end ReadModelQuery

end Chronicle
