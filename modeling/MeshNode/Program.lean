import MeshNode.CommandLine
import MeshNode.Heartbeat.Delivery
import MeshNode.Keys.File
import MeshNode.Node.Api
import MeshNode.Orchestrator.Api
import MeshNode.Settings.Node
import MeshNode.Settings.Orchestrator

/-!
# What the commands do

A run of the program ends by itself, with something to print or with an error, or it gets as far as
a service that is ready to listen. Everything up to there is a function of the arguments, of the
files and of the surroundings of the run; listening itself is left to the caller.

An error says during which activity it arose and, below that, what it goes back to.
-/

namespace MeshNode

/-- What a run takes from outside besides its arguments and the files. -/
structure Surroundings where
  /-- The directory that relative paths are seen from. -/
  directory : Path
  environment : String → Option String
  /-- Milliseconds of Unix time. -/
  wallMillis : Int
  /-- Nanoseconds on the clock of session tables. -/
  nanos : Nat
  /-- Keys for a node that has none. -/
  freshKeys : NodeKeys
  /-- The operating system and the kind of processor. -/
  platform : String × String

/-- Why a command failed. -/
structure ProgramError where
  /-- What was being done, or what went wrong if that says it all. -/
  activity : String
  /-- What the error goes back to, outermost first. -/
  causes : List String
  deriving DecidableEq, Repr

namespace ProgramError

/-- A text with its further lines moved in. -/
def indent (blanks : String) (text : String) : String :=
  ("\n" ++ blanks).intercalate (text.splitOn "\n")

/-- The lines of the causes, which are numbered if there are several. -/
def causeLines (causes : List String) : List String :=
  match causes with
  | [cause] => ["    " ++ indent "    " cause]
  | _ => causes.zipIdx.map fun (cause, i) =>
    let number := toString i
    "".pushn ' ' (5 - number.length) ++ number ++ ": " ++ indent "       " cause

/-- The report of an error. -/
def report (e : ProgramError) : String :=
  let head := "Error: " ++ e.activity ++ "\n"
  if e.causes = [] then head
  else head ++ "\nCaused by:\n" ++ String.join ((causeLines e.causes).map (· ++ "\n"))

end ProgramError

/-- How a run ends. -/
structure Exit where
  status : Nat
  output : String
  errors : String
  deriving DecidableEq, Repr

namespace Exit

/-- The run printed something and is done. -/
def printed (text : String) : Exit := ⟨0, text, ""⟩

/-- The run failed. -/
def failed (e : ProgramError) : Exit := ⟨1, "", e.report⟩

/-- The arguments mean nothing. -/
def misused (e : UsageError) : Exit := ⟨2, "", s!"error: {e.message}\n"⟩

end Exit

/-- What listens. -/
inductive Service where
  | node (n : Node)
  | orchestrator (o : Orchestrator)

namespace Service

/-- The files as the service has left them. -/
def files : Service → FileTree
  | node n => n.workspace.files
  | orchestrator o => o.files

/-- The service with other files. -/
def withFiles (t : FileTree) : Service → Service
  | node n => node { n with workspace := { n.workspace with files := t } }
  | orchestrator o => orchestrator { o with files := t }

/-- Serves a request. -/
def serve (r : Http.Request) (o : Occasion) : Service → Http.Response × Service
  | node n =>
    let (answer, n) := n.serve r o
    (answer, node n)
  | orchestrator s =>
    let (answer, s) := s.serve r o.wallMillis
    (answer, orchestrator s)

/-- Drops the sessions that were idle for too long. -/
def prune (nanos : Nat) : Service → Service
  | node n => node { n with sessions := n.sessions.prune nanos }
  | orchestrator o => orchestrator o

/-- The files after the service has closed what it holds open. -/
def close : Service → FileTree
  | node n => n.workspace.ledger.close n.workspace.files
  | orchestrator o => o.files

end Service

namespace Program

/-- The name of the program and its version. -/
def versionText : String := "offgrid-node " ++ NodeStatus.currentVersion ++ "\n"

/-- How the program is called. -/
def helpText : String :=
  "usage: offgrid-node node [--config FILE] [--listen ADDR] [--node-id ID]\n" ++
  "       offgrid-node orchestrator [--config FILE] [--listen ADDR] [--trust-store FILE]\n" ++
  "       offgrid-node keygen --key-dir DIR --node-id ID\n" ++
  "       offgrid-node issue-token --job-id ID --attempt-id ID [--deadline-ts SECS]\n" ++
  "                                [--ttl-secs SECS] [--key KEY]\n" ++
  "       offgrid-node --version\n"

/-- An activity whose errors are those of a part of a command. -/
def during {ε α : Type} (activity : String) (causes : ε → List String) (a : Files ε α) :
    Files ProgramError α :=
  Files.mapError (fun e => ⟨activity, causes e⟩) a

/-- A result as a part of a command. -/
def checking {ε α : Type} (activity : String) (causes : ε → List String)
    (f : FileTree → Except ε α) : Files ProgramError α :=
  during activity causes (Files.inspect f)

/-- What a check has to say as the causes of an error. -/
def invalidCauses (text : String) : List String := (SettingsError.invalid text).causes

/-- Makes the jail of a node; an empty text is no path. -/
def makeJail (w : Surroundings) (root : String) : Files SandboxError Jail :=
  if root = "" then throw (.file .notFound) else Jail.create (Path.ofText w.directory root)

/-- Sets a node up: its keys, its ledger without what has expired, and its jail. -/
def setUpNode (s : NodeSettings) (w : Surroundings) : Files ProgramError Node := do
  let path := Path.ofText w.directory
  checking "invalid node config" invalidCauses fun _ => s.check
  let sessions ← checking "invalid node config" invalidCauses fun _ => s.sessionConfig
  let keys ← during "loading node keys" StoreError.causes
    (NodeKeys.loadOrGenerate (path s.keyDirPath) s.nodeId w.freshKeys)
  let ledger ← if s.ledgerFilePath = "" then pure .inMemory else
    during "opening attempt ledger" StoreError.causes
      (LedgerStore.open s.ledgerFilePath (path s.ledgerFilePath))
  let (_, ledger, files) := ledger.evict s.attemptTtlSecs (w.wallMillis.fdiv 1000) (← get)
  match (during "creating jail root" SandboxError.causes (makeJail w s.jailRootPath)).run files with
  | (.error e, files) =>
    set (ledger.close files)
    throw e
  | (.ok jail, files) =>
    set files
    return {
      keys
      info := ⟨s.buildId, s.capabilities, s.announcedAddress⟩
      runner := ⟨.ofText (s.claimKey.getD ""), jail, s.runnerConfig⟩
      workspace := ⟨ledger, files⟩
      sessions := .empty sessions
      maxBody := s.maxBodyBytes
      started := w.nanos }

/-- Sets an orchestrator up with the records in its file, if it has one. -/
def setUpOrchestrator (s : OrchestratorSettings) (w : Surroundings) :
    Files ProgramError Orchestrator := do
  checking "invalid orchestrator config" invalidCauses fun _ => s.check
  let store ← match s.trustStorePath with
    | none => pure TrustStore.inMemory
    | some "" => pure TrustStore.inMemory
    | some name =>
      checking ("opening trust store " ++ name) StoreError.causes
        (TrustStore.open (Path.ofText w.directory name))
  return ⟨.ofStore (.ofNat s.spoofThreshold) store, ← get⟩

/-- The second of Unix time so many seconds after now, as far as there are such seconds. -/
def deadlineAfter (nowMillis ttlSecs : Int) : Int :=
  max (-0x8000000000000000) (min 0x7fffffffffffffff (nowMillis.fdiv 1000 + ttlSecs))

/-- The claim that a token is issued for, with its token. -/
def issue (jobId attemptId key : String) (deadline : Int) : ClaimContext :=
  ⟨some jobId, some attemptId, some deadline,
    some (Token.issue (.ofText key) jobId attemptId deadline)⟩

/-- A value as it is printed. -/
def shown (j : Json) : String := (Bytes.text? j.pretty).getD "" ++ "\n"

/-- The heartbeats of a node that has an orchestrator. -/
def heartbeatPlan? (s : NodeSettings) (w : Surroundings) : Option HeartbeatPlan :=
  s.orchestratorUrl.map fun url =>
    let runtime : Json :=
      .obj [("arch", .str w.platform.2), ("os", .str w.platform.1),
        ("version", .str NodeStatus.currentVersion)]
    ⟨s.nodeId, url, .ofCapabilities s.buildId s.capabilities runtime, s.heartbeatSecs, .default⟩

/-- How far a command gets without listening. -/
inductive Start where
  | finished (exit : Exit)
  /-- A service is ready to listen at an address. -/
  | ready (address : String) (service : Service) (heartbeats : Option HeartbeatPlan)

/-- Carries out a command as far as the files go. -/
def carryOut (c : Command) (w : Surroundings) : Files ProgramError Start := do
  match c with
  | .node config listen nodeId =>
    let s ← checking "loading node config" SettingsError.causes
      (NodeSettings.load w.directory config w.environment)
    let s := { s with
      listenAddress := listen.getD s.listenAddress
      nodeId := nodeId.getD s.nodeId }
    let node ← setUpNode s w
    return .ready s.listenAddress (.node node) (heartbeatPlan? s w)
  | .orchestrator config listen trustStore =>
    let s ← checking "loading orchestrator config" SettingsError.causes
      (OrchestratorSettings.load w.directory config)
    let s := { s with
      listenAddress := listen.getD s.listenAddress
      trustStorePath := trustStore <|> s.trustStorePath }
    let orchestrator ← setUpOrchestrator s w
    return .ready s.listenAddress (.orchestrator orchestrator) none
  | .keygen keyDir nodeId =>
    let keys ← during "loading node keys" StoreError.causes
      (NodeKeys.loadOrGenerate (Path.ofText w.directory keyDir) nodeId w.freshKeys)
    return .finished (.printed (shown keys.publicKeys.toJson))
  | .issueToken jobId attemptId deadline ttlSecs key =>
    if key = "" then throw ⟨"claim key must not be empty", []⟩
    let deadline := deadline.getD (deadlineAfter w.wallMillis ttlSecs)
    return .finished (.printed (shown (issue jobId attemptId key deadline).toJson))

/-- Runs the program as far as the files go. -/
def start (args : List String) (w : Surroundings) (t : FileTree) : Start × FileTree :=
  match CommandLine.read args (w.environment NodeSettings.claimKeyVariable) with
  | .error e => (.finished (.misused e), t)
  | .ok .help => (.finished (.printed helpText), t)
  | .ok .version => (.finished (.printed versionText), t)
  | .ok (.command c) =>
    match (carryOut c w).run t with
    | (.ok start, t) => (start, t)
    | (.error e, t) => (.finished (.failed e), t)

/-- The end of a run that could not listen at an address. -/
def notListening (address : String) (e : FileError) : Exit :=
  .failed ⟨"binding " ++ address, [e.message]⟩

end Program

end MeshNode
