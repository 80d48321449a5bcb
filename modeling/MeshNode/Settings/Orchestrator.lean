import MeshNode.Settings.File
import MeshNode.SocketAddress
import MeshNode.Trust.Evaluation

/-!
# Settings of an orchestrator

Where an orchestrator listens, where it keeps its records, which are lost with it otherwise, and how
often a node may change its build before it is taken for an impostor.
-/

namespace MeshNode

/-- The settings of an orchestrator. -/
structure OrchestratorSettings where
  listenAddress : String
  trustStorePath : Option String
  spoofThreshold : Nat
  deriving DecidableEq, Repr

namespace OrchestratorSettings

/-- The settings of an orchestrator that is told nothing. -/
def default : OrchestratorSettings := ⟨"127.0.0.1:8800", none, SpoofThreshold.default.flips⟩

/-- Sets the setting that a key stands for. -/
def set (s : OrchestratorSettings) (key : String) (v : Toml.Value) :
    Except Toml.Fault OrchestratorSettings :=
  match key with
  | "listen_addr" => Settings.assign key v.text? fun x => { s with listenAddress := x }
  | "trust_store_path" => Settings.assign key v.text? fun x => { s with trustStorePath := some x }
  | "spoof_threshold" => Settings.assign key v.nat? fun x => { s with spoofThreshold := x }
  | _ => .error (.unknownKey key)

/-- The settings in a file, or the defaults without one. -/
def load (base : Path) (path : Option String) (t : FileTree) :
    Except SettingsError OrchestratorSettings :=
  match path with
  | none => .ok default
  | some path => Settings.load set default base path t

/-- What is impossible about the settings, if anything is. -/
def check (s : OrchestratorSettings) : Except String Unit := do
  if (SocketAddress.ofText? s.listenAddress).isNone then
    throw (SocketAddress.refusal s.listenAddress)
  if s.spoofThreshold = 0 then throw "spoof_threshold must be >= 1"

/-- The written form, by the keys of the file. -/
def toJson (s : OrchestratorSettings) : Json :=
  .obj [("listen_addr", .str s.listenAddress), ("trust_store_path", .ofText? s.trustStorePath),
    ("spoof_threshold", .nat s.spoofThreshold)]

end OrchestratorSettings

end MeshNode
