import Chronicle.Event.Envelope
import Chronicle.Json.Printer
import Chronicle.Json.Reader
import Chronicle.ReadModel.Envelope
import Chronicle.Registry.Basic
import Chronicle.Storage.Directory
import Chronicle.Storage.Layout
import Chronicle.Text.Blank

set_option autoImplicit false

/-!
# Files of records

A collection file holds one record a line, in compact JSON. Blank lines are skipped as it is
read. Records are appended, or the whole file is written anew: first beside the file, then
renamed onto it.
-/

namespace Chronicle

/-- How records are written and read, and what is kept of a line that holds one. -/
structure RecordFormat (α : Type) where
  encode : α → Json
  shape : Json.Shape
  decode? : Json → Option α

namespace RecordFormat

/-- The format of stored envelopes. -/
def envelopes : RecordFormat StoredEnvelope := ⟨StoredEnvelope.toJson, .any, StoredEnvelope.ofJson?⟩

/-- The format of stored read models. -/
def readModels : RecordFormat StoredReadModel :=
  ⟨StoredReadModel.toJson, StoredReadModel.shape, StoredReadModel.ofJson?⟩

/-- The format of ids. -/
def ids : RecordFormat UniqueId := ⟨fun id => .string id.text, .any, Json.id?⟩

end RecordFormat

namespace Lines

variable {α : Type}

/-- The deepest nesting that is kept. -/
def maxDepth : Nat := 127

/-- Reads the record of a line. -/
def readLine? (format : RecordFormat α) (line : List Char) : Option α := do
  let v ← Json.readAs? format.shape line
  if v.depth ≤ maxDepth then format.decode? v else none

/-- Reads the records of lines, of which the first has the given number; the number of the first
line that is neither blank nor a record is the error. -/
def readAll (format : RecordFormat α) (number : Nat) : List (List Char) → Except Nat (List α)
  | [] => .ok []
  | line :: rest =>
      if Text.isBlankText line then readAll format (number + 1) rest
      else
        match readLine? format line with
        | none => .error number
        | some record =>
            match readAll format (number + 1) rest with
            | .ok records => .ok (record :: records)
            | .error n => .error n

/-- Reads the records of a text; the number of a malformed line is the error. -/
def read (format : RecordFormat α) (text : List Char) : Except Nat (List α) :=
  readAll format 1 (Text.lines text)

/-- The text of records: one a line. -/
def spell (format : RecordFormat α) (records : List α) : List Char :=
  records.flatMap fun r => (format.encode r).spell ++ ['\n']

/-- A step on files as a call. -/
def filing {β : Type} (step : Fallible FileError Directory β) : Call Directory β := fun d =>
  match step d with
  | (.ok b, d') => (.ok b, d')
  | (.error e, d') => (.error (.io e.message), d')

/-- The records of a collection file; a missing file has none. -/
def load (format : RecordFormat α) (layout : Layout) (file : CollectionFileName)
    (d : Directory) : Except RegistryError (List α) :=
  match d.read file.text with
  | .error e => .error (.io e.message)
  | .ok none => .ok []
  | .ok (some text) =>
      match read format text with
      | .ok records => .ok records
      | .error line => .error (.malformedLine (layout.pathOf file) line)

/-- Adds records at the end of a collection file. -/
def append (format : RecordFormat α) (file : CollectionFileName) (records : List α) :
    Call Directory Unit :=
  filing (Directory.append file.text (spell format records))

/-- The name of the file that is written before it replaces a collection file. -/
def stagingName (name : String) : String := name ++ ".tmp"

/-- Puts records in the place of all that a collection file holds. -/
def replaceAll (format : RecordFormat α) (file : CollectionFileName) (records : List α) :
    Call Directory Unit := do
  filing (Directory.write (stagingName file.text) (spell format records))
  filing (Directory.rename (stagingName file.text) file.text)

end Lines

end Chronicle
