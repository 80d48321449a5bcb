import MeshNode.Files.Operations
import MeshNode.Settings.Error
import MeshNode.Toml.Reader

/-!
# Settings files

Settings are read from a file over their defaults: each key of the file sets one of them, and a key
that sets none is refused.
-/

namespace MeshNode

namespace Toml.Value

/-- The text of a string. -/
def text? : Value → Option String
  | text s => some s
  | _ => none

/-- The texts of an array. -/
def texts? : Value → Option (List String)
  | texts items => some items
  | _ => none

/-- An integer that is not negative. -/
def nat? : Value → Option Nat
  | int n => n.toNat?
  | _ => none

end Toml.Value

namespace Settings

/-- Sets one setting, if the value is one for it. -/
def assign {α β : Type} (key : String) (value : Option β) (set : β → α) : Except Toml.Fault α :=
  match value with
  | some v => .ok (set v)
  | none => .error (.badValue key)

/-- Reads settings from a text over the defaults. -/
def ofText {α : Type} (set : α → String → Toml.Value → Except Toml.Fault α) (defaults : α)
    (text : String) : Except Toml.Fault α := do
  let document ← Toml.Document.ofText text
  document.foldlM (fun settings (key, value) => set settings key value) defaults

/-- Reads the settings in the file at a path, which is seen from a directory. -/
def load {α : Type} (set : α → String → Toml.Value → Except Toml.Fault α) (defaults : α)
    (base : Path) (path : String) (t : FileTree) : Except SettingsError α :=
  match t.read (Path.ofRawText base path) with
  | .error e => .error (.unread path e)
  | .ok content =>
    match content.toBytes.text? with
    | none => .error (.unread path .notText)
    | some text => (ofText set defaults text).mapError .unparsed

end Settings

end MeshNode
