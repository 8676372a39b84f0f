import Chronicle.Filter.External
import Chronicle.Health
import Chronicle.Registry.Basic
import Chronicle.Service.Paging
import Chronicle.Word

set_option autoImplicit false

/-!
# The read model service

What a query layer asks of a read model registry: documents by id, searches by external filter
and sort documents, pages of results, and versioned storing.
-/

namespace Chronicle

/-- A search for read models as a query layer asks for it. -/
structure ReadModelSearch where
  filters : Json := .null
  sortBy : Option Json := none
  limit : Option Nat := none
  /-- The offset that the page before answered. -/
  cursor : Option Nat := none
  paginated : Bool := false
  projection : Option (List String) := none

/-- The result of a search. -/
inductive SearchResult
  | items (readModels : List ReadModel)
  | page (page : Page ReadModel)

/-- The read models of a result, whatever its shape. -/
def SearchResult.readModels : SearchResult → List ReadModel
  | items readModels => readModels
  | page p => p.items

namespace ReadModelSearch

/-- One more than the greatest number of results that can be asked for. -/
def limitBound : Nat := Word.limit 64

/-- How many read models to ask the registry for: for a page one more, if there is such a number,
to see whether the page is the last. -/
def fetched (s : ReadModelSearch) (limit : Nat) : Nat :=
  if s.paginated then min (limit + 1) (limitBound - 1) else limit

/-- The query of a search. -/
def query (s : ReadModelSearch) (typeName : ReadModelTypeName) : ReadModelQuery where
  typeName := some typeName
  filter := some (Filter.ofExternal s.filters)
  sortBy := (s.sortBy.map SortKeys.ofJson).getD []
  skip := some (s.cursor.getD 0)
  limit := s.limit.map s.fetched
  projection := s.projection.map Projection.parse

/-- The page of fetched read models. -/
def pageOf (s : ReadModelSearch) (fetched : List ReadModel) : Page ReadModel :=
  match s.limit with
  | some limit => .ofRest (s.cursor.getD 0) limit fetched
  | none => { items := fetched, cursor := none }

/-- The result for fetched read models. -/
def result (s : ReadModelSearch) (fetched : List ReadModel) : SearchResult :=
  if s.paginated then .page (s.pageOf fetched) else .items fetched

end ReadModelSearch

namespace ReadModelService

variable {σ : Type}

/-- The current read model of a type and id. -/
def fetch (r : ReadModelRegistry σ) (typeName : ReadModelTypeName) (id : ReadModelId) :
    Call σ (Option ReadModel) := do
  let found ← r.query { ReadModelQuery.ofType typeName with id := some id }
  return found.head?

/-- The result of a search among the read models of a type. -/
def search (r : ReadModelRegistry σ) (typeName : ReadModelTypeName) (s : ReadModelSearch) :
    Call σ SearchResult := do
  return s.result (← r.query (s.query typeName))

/-- Stores a read model, which must replace the version before its own. -/
def store (r : ReadModelRegistry σ) (m : ReadModel) : Call σ StoredReadModel :=
  r.store m (m.version - 1)

/-- Removes a read model; a miss is no error. -/
def delete (r : ReadModelRegistry σ) (typeName : ReadModelTypeName) (id : ReadModelId) :
    Call σ Unit := do
  let _ ← r.deleteById id typeName
  return ()

/-- The report of the registry's health. -/
def health (r : ReadModelRegistry σ) : Call σ HealthReport := do
  let urls ← Fallible.read r.urls
  if ← r.isUp then
    match ← r.details.outcome with
    | .ok details => return .up details urls
    | .error e => return .down e.message urls
  else return .down "read model registry is down" urls

end ReadModelService

end Chronicle
