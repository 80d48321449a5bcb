import MeshNode.Files.Error
import MeshNode.Json.Fault

/-!
# Errors of the stores

The ledger, the trust store and the key records share the ways in which they fail.
-/

namespace MeshNode

/-- Why a file is of no use as a database. -/
inductive DatabaseFault where
  | cannotOpen (path : String)
  | notADatabase
  deriving DecidableEq, Repr

namespace DatabaseFault

/-- The text of a fault. -/
def message : DatabaseFault → String
  | cannotOpen path => "unable to open database file: " ++ path
  | notADatabase => "file is not a database"

/-- The number of a fault among those of databases, in words. -/
def codeText : DatabaseFault → String
  | cannotOpen _ => "Error code 14: Unable to open the database file"
  | notADatabase => "Error code 26: File opened that is not a database file"

end DatabaseFault

/-- Why a store could not answer. -/
inductive StoreError where
  | database (fault : DatabaseFault)
  /-- A stored text is not what it should be. -/
  | unreadable (error : Json.ReadError)
  | corrupt (key reason : String)
  | task (text : String)
  | file (error : FileError)
  deriving DecidableEq, Repr

namespace StoreError

/-- The text of an error. -/
def message : StoreError → String
  | database fault => "sqlite error: " ++ fault.message
  | unreadable error => "serialization error: " ++ error.message
  | corrupt key reason => s!"corrupt record {key}: {reason}"
  | task text => "storage task failed: " ++ text
  | file error => "I/O error: " ++ error.message

/-- The texts of an error and of what it goes back to. -/
def causes (e : StoreError) : List String :=
  e.message :: match e with
    | database fault => [fault.message, fault.codeText]
    | unreadable error => [error.message]
    | file error => [error.message]
    | _ => []

end StoreError

end MeshNode
