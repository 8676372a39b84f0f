import Chronicle.Registry.Fault
import Chronicle.Request.Reader
import Chronicle.Storage.Layout

set_option autoImplicit false

/-!
# Backends in requests

The documents by which requests choose collection files and plan the faults of a backend.
-/

namespace Chronicle.Request

/-- Reads names for the collection files in the place of a layout's own. -/
def withFileNames (v : Json) (layout : Layout) : Reading Layout := do
  let names := field v "names"
  let events ← withDefault names "events" (name .collectionFile) layout.events
  let snapshots ← withDefault names "snapshots" (name .collectionFile) layout.snapshots
  let dispatched ← withDefault names "dispatched" (name .collectionFile) layout.dispatched
  let readModels ← withDefault names "readModels" (name .collectionFile) layout.readModels
  return { layout with events, snapshots, dispatched, readModels }

/-- What a fault does, by its word, flag or number; any other word finds nothing. -/
def misbehaviour : Json → Misbehaviour
  | .string "error" => .fails
  | .string "with_deleted" => .findsDeleted
  | .string "conflict" => .conflicts
  | .string "accept" => .pretends
  | .bool b => .answers b
  | v =>
      match v.unsigned? with
      | some n => .reports n
      | none => .findsNothing

/-- Reads a fault; one of an unknown method never strikes. -/
def fault (v : Json) : Reading (Option Fault) := do
  let word ← need v "method" text
  let calls ← optional v "at" (list number)
  return (Method.ofWord? word).map fun method =>
    { method, at? := calls, effect := misbehaviour (field v "do") }

/-- Reads the faults of a backend. -/
def faults (v : Json) : Reading (List Fault) := do
  return (← withDefault v "faults" (list fault) []).filterMap fun f => f

end Chronicle.Request
