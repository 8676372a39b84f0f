import Chronicle.Json.Fault
import Chronicle.ReadModel.Envelope

set_option autoImplicit false

/-!
# Errors of registries

Why a call of a registry fails. A miss is no error: deleting what is not there counts nothing.
-/

namespace Chronicle

/-- The cause of a failed call. -/
inductive RegistryError
  /-- The stored version is not the one that the writer expected to replace. -/
  | conflict (typeName : ReadModelTypeName) (id : ReadModelId) (expected : Nat)
      (current : Option Nat)
  | invalidReadModel (fault : ReadModelFault)
  /-- A line of a file, counted from 1, that is no record. -/
  | malformedLine (path : String) (line : Nat)
  | serialization (detail : String)
  | io (detail : String)
  /-- An operation that the store could not carry out. -/
  | storeFailure (operation : String)
  /-- A file that is named for two collections. -/
  | sharedFile (name : CollectionFileName)
  | configuration (detail : String)

namespace RegistryError

/-- The error of a JSON text that was refused. -/
def ofJsonFault (fault : JsonFault) : RegistryError := .serialization fault.text

/-- A version that may be absent. -/
def version : Option Nat → String
  | some n => "Some(" ++ Text.numeral n ++ ")"
  | none => "None"

/-- The error in words. -/
def message : RegistryError → String
  | conflict typeName id expected current =>
      "optimistic concurrency violation on " ++ typeName.text ++ " '" ++ id.text ++
        "': expected stored version " ++ Text.numeral expected ++ ", found " ++ version current
  | invalidReadModel fault => "invalid read model: " ++ fault.message
  | malformedLine path line => "serialization error: " ++ path ++ ":" ++ Text.numeral line
  | serialization detail => "serialization error: " ++ detail
  | io detail => "I/O error: " ++ detail
  | storeFailure operation => operation ++ " operation failed"
  | sharedFile name =>
      "configuration error: collection file \x60" ++ name.text ++ "\x60 is used twice"
  | configuration detail => "configuration error: " ++ detail

/-- Whether the caller should read again and retry. -/
def isConflict : RegistryError → Bool
  | conflict _ _ _ _ => true
  | _ => false

end RegistryError

end Chronicle
