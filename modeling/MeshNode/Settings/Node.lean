import MeshNode.Channel
import MeshNode.Job.Runner
import MeshNode.Node.Status
import MeshNode.Settings.File
import MeshNode.SocketAddress
import MeshNode.Text.Blank

/-!
# Settings of a node

Every setting of a node has a default but the key that claim tokens are made with, which must come
from the file or from the environment. Settings are checked one after the other and the first that
is impossible is reported.
-/

namespace MeshNode

/-- The settings of a node. -/
structure NodeSettings where
  nodeId : String
  listenAddress : String
  /-- The address that is announced, where it is not the one listened on. -/
  advertisedAddress : Option String
  buildId : String
  capabilities : List String
  dataDir : String
  keyDir : Option String
  jailRoot : Option String
  ledgerPath : Option String
  /-- The key that claim tokens are made with. -/
  claimKey : Option String
  attemptTtlSecs : Nat
  defaultTimeoutSecs : Nat
  maxTimeoutSecs : Nat
  orchestratorUrl : Option String
  heartbeatSecs : Nat
  maxSessions : Nat
  sessionIdleSecs : Nat
  maxBodyBytes : Nat
  deriving DecidableEq, Repr

namespace NodeSettings

/-- The variable of the environment whose value is used as the claim key. -/
def claimKeyVariable : String := "OFFGRID_CLAIM_KEY"

/-- The shortest claim key, in bytes. -/
def minClaimKey : Nat := 16

/-- The settings of a node that is told nothing. -/
def default : NodeSettings where
  nodeId := "node-local"
  listenAddress := "127.0.0.1:8700"
  advertisedAddress := none
  buildId := "offgrid-node/" ++ NodeStatus.currentVersion
  capabilities := ["list", "probe", "write"]
  dataDir := "offgrid-data"
  keyDir := none
  jailRoot := none
  ledgerPath := none
  claimKey := none
  attemptTtlSecs := Ledger.defaultTtlSecs
  defaultTimeoutSecs := 30
  maxTimeoutSecs := 300
  orchestratorUrl := none
  heartbeatSecs := 15
  maxSessions := SessionConfig.default.maxSessions
  sessionIdleSecs := 3600
  maxBodyBytes := 48 * 1024 * 1024

/-- Sets the setting that a key stands for. -/
def set (s : NodeSettings) (key : String) (v : Toml.Value) : Except Toml.Fault NodeSettings :=
  match key with
  | "node_id" => Settings.assign key v.text? fun x => { s with nodeId := x }
  | "listen_addr" => Settings.assign key v.text? fun x => { s with listenAddress := x }
  | "advertise_addr" => Settings.assign key v.text? fun x => { s with advertisedAddress := some x }
  | "build_id" => Settings.assign key v.text? fun x => { s with buildId := x }
  | "capabilities" => Settings.assign key v.texts? fun x => { s with capabilities := x }
  | "data_dir" => Settings.assign key v.text? fun x => { s with dataDir := x }
  | "key_dir" => Settings.assign key v.text? fun x => { s with keyDir := some x }
  | "jail_root" => Settings.assign key v.text? fun x => { s with jailRoot := some x }
  | "ledger_path" => Settings.assign key v.text? fun x => { s with ledgerPath := some x }
  | "claim_key" => Settings.assign key v.text? fun x => { s with claimKey := some x }
  | "attempt_ttl_secs" => Settings.assign key v.nat? fun x => { s with attemptTtlSecs := x }
  | "default_timeout_secs" => Settings.assign key v.nat? fun x => { s with defaultTimeoutSecs := x }
  | "max_timeout_secs" => Settings.assign key v.nat? fun x => { s with maxTimeoutSecs := x }
  | "orchestrator_url" => Settings.assign key v.text? fun x => { s with orchestratorUrl := some x }
  | "heartbeat_interval_secs" => Settings.assign key v.nat? fun x => { s with heartbeatSecs := x }
  | "max_sessions" => Settings.assign key v.nat? fun x => { s with maxSessions := x }
  | "session_idle_secs" => Settings.assign key v.nat? fun x => { s with sessionIdleSecs := x }
  | "max_body_bytes" => Settings.assign key v.nat? fun x => { s with maxBodyBytes := x }
  | _ => .error (.unknownKey key)

/-- The settings with what the environment has to say: a claim key that is not empty. -/
def withEnvironment (s : NodeSettings) (environment : String → Option String) : NodeSettings :=
  match (environment claimKeyVariable).filter (· ≠ "") with
  | some key => { s with claimKey := some key }
  | none => s

/-- The settings in a file, or the defaults without one, and in the environment. -/
def load (base : Path) (path : Option String) (environment : String → Option String)
    (t : FileTree) : Except SettingsError NodeSettings := do
  match path with
  | none => return default.withEnvironment environment
  | some path => return (← Settings.load set default base path t).withEnvironment environment

/-- How sessions are kept. -/
def sessionConfig (s : NodeSettings) : Except String SessionConfig :=
  (SessionConfig.mk SessionConfig.defaultMaxPayload s.maxSessions
    (s.sessionIdleSecs * 1000000000)).check

/-- What is impossible about the settings, if anything is. -/
def check (s : NodeSettings) : Except String Unit := do
  if Text.trim s.nodeId = "" then throw "node_id must not be empty"
  if (SocketAddress.ofText? s.listenAddress).isNone then
    throw (SocketAddress.refusal s.listenAddress)
  match s.claimKey with
  | none => throw s!"claim_key is required (set it in the config or {claimKeyVariable})"
  | some key =>
    if key.utf8ByteSize < minClaimKey then
      throw s!"claim_key must be at least {minClaimKey} bytes"
  if s.defaultTimeoutSecs = 0 ∨ s.maxTimeoutSecs < s.defaultTimeoutSecs then
    throw "default_timeout_secs must be in 1..=max_timeout_secs"
  if s.orchestratorUrl.isSome ∧ s.heartbeatSecs = 0 then
    throw "heartbeat_interval_secs must be > 0"
  if s.maxBodyBytes = 0 then throw "max_body_bytes must be > 0"
  let _ ← s.sessionConfig

/-- Where the keys of the node are kept. -/
def keyDirPath (s : NodeSettings) : String := s.keyDir.getD (Path.join s.dataDir "keys")

/-- The root of the jail. -/
def jailRootPath (s : NodeSettings) : String := s.jailRoot.getD (Path.join s.dataDir "jail")

/-- Where the ledger is kept. -/
def ledgerFilePath (s : NodeSettings) : String :=
  s.ledgerPath.getD (Path.join s.dataDir "attempts.db")

/-- The address that is announced. -/
def announcedAddress (s : NodeSettings) : String := s.advertisedAddress.getD s.listenAddress

/-- The timeouts of jobs. -/
def runnerConfig (s : NodeSettings) : RunnerConfig :=
  ⟨s.defaultTimeoutSecs * 1000, s.maxTimeoutSecs * 1000⟩

/-- The written form, by the keys of the file. -/
def toJson (s : NodeSettings) : Json :=
  .obj [("node_id", .str s.nodeId), ("listen_addr", .str s.listenAddress),
    ("advertise_addr", .ofText? s.advertisedAddress), ("build_id", .str s.buildId),
    ("capabilities", .arr (s.capabilities.map .str)), ("data_dir", .str s.dataDir),
    ("key_dir", .ofText? s.keyDir), ("jail_root", .ofText? s.jailRoot),
    ("ledger_path", .ofText? s.ledgerPath), ("claim_key", .ofText? s.claimKey),
    ("attempt_ttl_secs", .nat s.attemptTtlSecs),
    ("default_timeout_secs", .nat s.defaultTimeoutSecs),
    ("max_timeout_secs", .nat s.maxTimeoutSecs), ("orchestrator_url", .ofText? s.orchestratorUrl),
    ("heartbeat_interval_secs", .nat s.heartbeatSecs), ("max_sessions", .nat s.maxSessions),
    ("session_idle_secs", .nat s.sessionIdleSecs), ("max_body_bytes", .nat s.maxBodyBytes)]

end NodeSettings

end MeshNode
