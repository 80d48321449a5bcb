import MeshNode.Files.Error
import MeshNode.Toml

/-!
# Errors of settings

Settings may be unreadable, unintelligible or impossible.
-/

namespace MeshNode

/-- Why there are no settings. -/
inductive SettingsError where
  /-- The file could not be read. -/
  | unread (path : String) (error : FileError)
  /-- The text is not that of settings. -/
  | unparsed (fault : Toml.Fault)
  | invalid (text : String)
  deriving DecidableEq, Repr

namespace SettingsError

/-- The text of an error. -/
def message : SettingsError → String
  | unread path error => s!"failed to read config {path}: {error.message}"
  | unparsed fault => "failed to parse config: " ++ fault.message
  | invalid text => "invalid config: " ++ text

/-- The texts of an error and of what it goes back to. -/
def causes (e : SettingsError) : List String :=
  e.message :: match e with
    | unread _ error => [error.message]
    | unparsed fault => [fault.message]
    | invalid _ => []

end SettingsError

end MeshNode
