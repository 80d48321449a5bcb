import MeshNode.Program

/-!
# What a run touches

A run has to do with a few places of the file tree only: the file of its settings, and what they
name in turn. Which those are is a function of the arguments and of the settings, as far as they are
known; a tree that is right at these places is all that a run has to be given.
-/

namespace MeshNode

/-- The places that a run has to do with. -/
structure Footprint where
  /-- Files of which the contents count. -/
  documents : List Path
  /-- Files that hold ledgers. -/
  ledgers : List Path
  /-- Directories of which only the names of what is below them count. -/
  jails : List Path
  deriving DecidableEq, Repr

namespace Footprint

/-- No place. -/
def nothing : Footprint := ⟨[], [], []⟩

/-- The places of some settings of a node. -/
def ofNode (s : NodeSettings) (directory : Path) : Footprint :=
  let path := Path.ofText directory
  { documents := [KeyRecord.path (path s.keyDirPath) s.nodeId]
    ledgers := [path s.ledgerFilePath]
    jails := [path s.jailRootPath] }

/-- The places of some settings of an orchestrator. -/
def ofOrchestrator (s : OrchestratorSettings) (directory : Path) : Footprint :=
  { nothing with documents := s.trustStorePath.toList.map (Path.ofText directory) }

/-- The places of some settings, along with the file they are in. -/
def withConfig (config : Option String) (directory : Path) (f : Footprint) : Footprint :=
  { f with documents := config.toList.map (Path.ofRawText directory) ++ f.documents }

/-- The places that a command has to do with, as far as they can be told from a tree. -/
def ofCommand (c : Command) (w : Surroundings) (t : FileTree) : Footprint :=
  match c with
  | .node config _ nodeId =>
    withConfig config w.directory <|
      match NodeSettings.load w.directory config w.environment t with
      | .ok s => ofNode { s with nodeId := nodeId.getD s.nodeId } w.directory
      | .error _ => nothing
  | .orchestrator config _ trustStore =>
    withConfig config w.directory <|
      match OrchestratorSettings.load w.directory config t with
      | .ok s =>
        let trustStorePath := trustStore <|> s.trustStorePath
        ofOrchestrator { s with trustStorePath } w.directory
      | .error _ => nothing
  | .keygen keyDir nodeId =>
    { nothing with documents := [KeyRecord.path (Path.ofText w.directory keyDir) nodeId] }
  | .issueToken .. => nothing

/-- The places that a run has to do with, as far as they can be told from a tree. -/
def ofArguments (args : List String) (w : Surroundings) (t : FileTree) : Footprint :=
  match CommandLine.read args (w.environment NodeSettings.claimKeyVariable) with
  | .ok (.command c) => ofCommand c w t
  | _ => nothing

end Footprint

end MeshNode
