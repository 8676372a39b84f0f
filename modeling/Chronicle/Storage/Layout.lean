import Chronicle.Json.Record
import Chronicle.Registry.Error

set_option autoImplicit false

/-!
# Layouts

Where the collections of a store are kept: a data directory, and the name of a file in it for
each collection.
-/

namespace Chronicle

/-- The data directory and the collection files in it. -/
structure Layout where
  dataDir : String
  events : CollectionFileName
  snapshots : CollectionFileName
  dispatched : CollectionFileName
  readModels : CollectionFileName

namespace Layout

/-- The usual file of events. -/
def eventsFile : CollectionFileName :=
  ⟨"events.jsonl", by decide, by decide, by decide, by decide⟩

/-- The usual file of snapshots. -/
def snapshotsFile : CollectionFileName :=
  ⟨"snapshots.jsonl", by decide, by decide, by decide, by decide⟩

/-- The usual file of dispatched ids. -/
def dispatchedFile : CollectionFileName :=
  ⟨"dispatched.jsonl", by decide, by decide, by decide, by decide⟩

/-- The usual file of read models. -/
def readModelsFile : CollectionFileName :=
  ⟨"read_models.jsonl", by decide, by decide, by decide, by decide⟩

/-- The layout with the usual files. -/
def ofDataDir (dataDir : String) : Layout where
  dataDir := dataDir
  events := eventsFile
  snapshots := snapshotsFile
  dispatched := dispatchedFile
  readModels := readModelsFile

/-- The data directory where none is configured. -/
def defaultDataDir : String := ".eventvault"

/-- The layout for a setting that may be absent or empty. -/
def ofSetting (setting : Option String) : Layout :=
  match setting with
  | some dataDir => if dataDir = "" then ofDataDir defaultDataDir else ofDataDir dataDir
  | none => ofDataDir defaultDataDir

/-- The path of a collection file. -/
def pathOf (layout : Layout) (name : CollectionFileName) : String :=
  if layout.dataDir.isEmpty || layout.dataDir.toList.getLast? == some '/' then
    layout.dataDir ++ name.text
  else layout.dataDir ++ "/" ++ name.text

/-- The collection files, in order. -/
def files (layout : Layout) : List CollectionFileName :=
  [layout.events, layout.snapshots, layout.dispatched, layout.readModels]

/-- The first of the names that comes again later. -/
def repeated? : List CollectionFileName → Option CollectionFileName
  | [] => none
  | name :: rest => if rest.contains name then some name else repeated? rest

/-- Refuses a layout in which two collections share a file. -/
def validate (layout : Layout) : Except RegistryError Unit :=
  match repeated? layout.files with
  | some name => .error (.sharedFile name)
  | none => .ok ()

/-- The record of a layout. -/
def toJson (layout : Layout) : Json :=
  .object [("dataDir", .string layout.dataDir), ("events", .string layout.events.text),
    ("snapshots", .string layout.snapshots.text),
    ("dispatched", .string layout.dispatched.text),
    ("readModels", .string layout.readModels.text)]

/-- The names of the fields in a record. -/
def fieldNames : List String := ["dataDir", "events", "snapshots", "dispatched", "readModels"]

/-- Reads the record of a layout. -/
def ofJson? (v : Json) : Option Layout := do
  let fields ← v.record? fieldNames
  let dataDir ← fields.required? "dataDir" Json.string?
  let events ← fields.required? "events" (Json.name? .collectionFile)
  let snapshots ← fields.required? "snapshots" (Json.name? .collectionFile)
  let dispatched ← fields.required? "dispatched" (Json.name? .collectionFile)
  let readModels ← fields.required? "readModels" (Json.name? .collectionFile)
  return { dataDir, events, snapshots, dispatched, readModels }

end Layout

end Chronicle
