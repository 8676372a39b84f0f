import Chronicle.Fallible
import Chronicle.OrderedMap

set_option autoImplicit false

/-!
# Directories

A directory of text files as a value, and the operations on it that the stores need. Each of
them changes at most the names that it is given. A file can be sealed, so that it refuses every
write; a name can also be taken by a folder, or by a file that is no text.
-/

namespace Chronicle

/-- What a name in a directory stands for. -/
inductive Entry
  | file (content : List Char)
  /-- A file whose bytes are no text. -/
  | binary
  | folder
deriving DecidableEq

/-- A directory, and which of its files refuse to be written. -/
structure Directory where
  /-- The entries by name; none while the directory does not exist. -/
  entries : Option (OrderedMap String Entry)
  sealedNames : List String := []

/-- Why an operation on a file fails. -/
inductive FileError
  | notAllowed (name : String)
  | unreadable (name : String)
  | unwritable (name : String)

/-- The error in words. -/
def FileError.message : FileError → String
  | notAllowed name => name ++ " cannot be the name of a file"
  | unreadable name => name ++ " cannot be read"
  | unwritable name => name ++ " cannot be written"

namespace Directory

/-- The most bytes that the name of a file may have. -/
def maxNameBytes : Nat := 255

/-- Whether a file can have the name. -/
def allows (name : String) : Bool :=
  decide (name.utf8ByteSize ≤ maxNameBytes) && !name.toList.contains '\x00'

/-- Whether the directory exists. -/
def isPresent (d : Directory) : Bool := d.entries.isSome

/-- What the name stands for. -/
def entry? (d : Directory) (name : String) : Option Entry :=
  d.entries.bind fun es => OrderedMap.find? name es

/-- The directory with an entry put under a name; a missing directory stays missing. -/
def put (name : String) (entry : Entry) (d : Directory) : Directory :=
  { d with entries := d.entries.map (OrderedMap.insert name entry) }

/-- The directory without the entry of a name. -/
def drop (name : String) (d : Directory) : Directory :=
  { d with entries := d.entries.map (OrderedMap.erase name) }

/-- The directory, made if it does not exist. -/
def made (d : Directory) : Directory := { d with entries := some (d.entries.getD []) }

/-- Whether a file of that name can be written. -/
def writable (d : Directory) (name : String) : Bool :=
  d.isPresent && allows name && !d.sealedNames.contains name && d.entry? name != some .folder

/-- The text of a file, or none if there is no such file. -/
def read (d : Directory) (name : String) : Except FileError (Option (List Char)) :=
  if allows name then
    match d.entry? name with
    | none => .ok none
    | some (.file content) => .ok (some content)
    | some _ => .error (.unreadable name)
  else .error (.notAllowed name)

/-- Writes text behind that of a file, which is made if it does not exist. -/
def append (name : String) (text : List Char) : Fallible FileError Directory Unit := fun d =>
  if d.writable name then
    match d.entry? name with
    | some (.file content) => (.ok (), d.put name (.file (content ++ text)))
    | some .binary => (.ok (), d)
    | _ => (.ok (), d.put name (.file text))
  else (.error (.unwritable name), d)

/-- Writes a file anew. -/
def write (name : String) (text : List Char) : Fallible FileError Directory Unit := fun d =>
  if d.writable name then (.ok (), d.put name (.file text))
  else (.error (.unwritable name), d)

/-- Renames a file, in the place of a file that has the new name. -/
def rename (source target : String) : Fallible FileError Directory Unit := fun d =>
  match d.entry? source with
  | none => (.error (.unreadable source), d)
  | some entry =>
      if d.writable target then (.ok (), (d.drop source).put target entry)
      else (.error (.unwritable target), d)

end Directory

end Chronicle
