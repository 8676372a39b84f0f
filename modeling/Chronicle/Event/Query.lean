import Chronicle.Event.Envelope
import Chronicle.StableSort

set_option autoImplicit false

/-!
# Event queries

Conditions on envelopes, and what a query selects from candidates: the matching ones by creation
time, ties by id, or the snapshot that captures the latest event.
-/

namespace Chronicle

/-- Bounds on an instant; absent bounds do not bind. -/
structure TimeRange where
  after : Option Timestamp := none
  since : Option Timestamp := none
  before : Option Timestamp := none
  upTo : Option Timestamp := none
deriving DecidableEq

/-- Whether the instant keeps every bound. -/
def TimeRange.contains (range : TimeRange) (t : Timestamp) : Bool :=
  range.after.all (fun bound => bound < t) && range.since.all (fun bound => bound ≤ t) &&
    range.before.all (fun bound => t < bound) && range.upTo.all (fun bound => t ≤ bound)

/-- The order of the results of a query. -/
inductive TimeOrder
  | oldestFirst
  | newestFirst
deriving DecidableEq

/-- The order of a word. -/
def TimeOrder.ofWord? (word : String) : Option TimeOrder :=
  if word = "asc" then some oldestFirst
  else if word = "desc" then some newestFirst
  else none

/-- Conditions on envelopes; absent conditions do not bind. -/
structure EventQuery where
  kind : EnvelopeKind := .event
  entityType : Option EntityTypeName := none
  entityId : Option EntityId := none
  /-- The entity id must be one of these. -/
  entityIds : Option (List EntityId) := none
  typeName : Option EventTypeName := none
  createdAt : TimeRange := {}
  /-- `false` asks for live envelopes, `true` for tombstones. -/
  deleted : Option Bool := none
deriving DecidableEq

namespace EventQuery

/-- The query for every event. -/
def events : EventQuery := {}

/-- The query for every snapshot. -/
def snapshots : EventQuery := { kind := .snapshot }

/-- The query for one entity only. -/
def ofEntity (q : EventQuery) (entity : EntityKey) : EventQuery :=
  { q with entityType := some entity.entityType, entityId := some entity.entityId }

/-- The query for live envelopes only. -/
def live (q : EventQuery) : EventQuery := { q with deleted := some false }

/-- The entity that the query fixes, if it fixes one. -/
def entity? (q : EventQuery) : Option EntityKey :=
  match q.entityType, q.entityId with
  | some entityType, some entityId => some ⟨entityType, entityId⟩
  | _, _ => none

/-- Whether the envelope keeps every condition. -/
def matchesEnvelope (q : EventQuery) (e : Envelope) : Bool :=
  e.kind == q.kind && q.entityType.all (fun n => n == e.entityType) &&
    q.entityId.all (fun i => i == e.entityId) &&
    q.entityIds.all (fun ids => ids.contains e.entityId) &&
    q.typeName.all (fun n => n == e.typeName) && q.createdAt.contains e.createdAt &&
    q.deleted.all (fun wanted => e.isDeleted == wanted)

/-- The candidates that match. -/
def filter (q : EventQuery) (candidates : List StoredEnvelope) : List StoredEnvelope :=
  candidates.filter fun s => q.matchesEnvelope s.envelope

end EventQuery

namespace StoredEnvelope

/-- The order of results: by creation time as asked, ties by ascending id. -/
def compare (order : TimeOrder) (a b : StoredEnvelope) : Ordering :=
  let byTime := Ord.compare a.envelope.createdAt b.envelope.createdAt
  let byTime :=
    match order with
    | .oldestFirst => byTime
    | .newestFirst => byTime.swap
  byTime.then (Ord.compare a.id b.id)

/-- The order of capture times; an absent one comes first. -/
def compareCapture : Option Timestamp → Option Timestamp → Ordering
  | none, none => .eq
  | none, some _ => .lt
  | some _, none => .gt
  | some t, some u => Ord.compare t u

/-- The order of snapshots: by what they capture, ties by id. -/
def compareSnapshots (a b : StoredEnvelope) : Ordering :=
  (compareCapture a.envelope.capturedAt b.envelope.capturedAt).then (Ord.compare a.id b.id)

/-- The greatest snapshot of a list, the last of several. -/
def latest? (snapshots : List StoredEnvelope) : Option StoredEnvelope :=
  snapshots.foldl
    (fun best s =>
      match best with
      | none => some s
      | some b => if compareSnapshots b s == .gt then some b else some s)
    none

end StoredEnvelope

namespace EventQuery

/-- The first `limit` of the matching candidates in the asked order. -/
def select (q : EventQuery) (order : TimeOrder) (limit : Option Nat)
    (candidates : List StoredEnvelope) : List StoredEnvelope :=
  let sorted := stableSort (fun a b => StoredEnvelope.compare order a b == .lt)
    (q.filter candidates)
  match limit with
  | some n => sorted.take n
  | none => sorted

/-- The latest of the matching snapshots, whatever kind the query names. -/
def latestSnapshot? (q : EventQuery) (candidates : List StoredEnvelope) : Option StoredEnvelope :=
  StoredEnvelope.latest? ({ q with kind := .snapshot }.filter candidates)

end EventQuery

end Chronicle
