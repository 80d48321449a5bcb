import MeshNode.Error
import MeshNode.Job.Execution
import MeshNode.Job.Response
import MeshNode.Ledger.Store

/-!
# Running jobs once

A run authorizes its request, claims the attempt in the ledger, and then either carries out the job
and completes the attempt or, when another run has claimed it, answers with what the ledger knows.
Any number of runs may be under way at once over one ledger and one file tree. A run goes through
stages, one atomic step at a time; whatever order the steps of several runs come in, the ledger lets
one run through for each attempt.

`run` takes a run from its beginning to its end with no other run under way.
-/

namespace MeshNode

/-- The timeouts of jobs, in milliseconds. -/
structure RunnerConfig where
  /-- For jobs that ask for none. -/
  defaultTimeout : Nat
  /-- The longest that a job may ask for. -/
  maxTimeout : Nat
  deriving DecidableEq, Repr

/-- Half a minute, and at most five minutes. -/
def RunnerConfig.default : RunnerConfig := ⟨30 * 1000, 300 * 1000⟩

/-- What is needed to run jobs: the shared key of the claim tokens, the jail and the timeouts. -/
structure JobRunner where
  key : Bytes
  jail : Jail
  config : RunnerConfig

/-- What runs read and change: the ledger and the files. -/
structure Workspace where
  ledger : LedgerStore
  files : FileTree

/-- One request to run a job. -/
structure RunCall where
  requestId : String
  spec : JobSpec
  /-- When the request arrived, in seconds of Unix time. -/
  now : Int
  /-- The clock of the node, in milliseconds. -/
  nowMillis : Int

/-- Who has an attempt after a claim. -/
inductive ClaimOutcome where
  /-- The caller, who must carry it out. -/
  | won
  /-- Someone else, with what the ledger knows. -/
  | lost (record : Option AttemptRecord)

/-- The result for a caller who lost the claim. -/
def AttemptRecord.resultFor (record : Option AttemptRecord) : Json :=
  record.elim inProgressResult AttemptRecord.callerResult

namespace RunCall

/-- How far a run has got. -/
inductive Stage where
  | begun
  | authorized (claim : Claim)
  /-- It did not get the attempt and has to look up what became of it. -/
  | lost (claim : Claim)
  /-- It got the attempt and has to carry it out. -/
  | won (claim : Claim)
  /-- It carried out the attempt and has to record the result. -/
  | executed (claim : Claim) (result : Json)
  | done (answer : Except MeshError RunResponse)

/-- The answer of a run. -/
def respond (c : RunCall) (claim : Claim) (cached : Bool) (result : Json) : Stage :=
  .done (.ok ⟨c.requestId, claim.attemptId, claim.jobId, cached, result⟩)

/-- One atomic step; nothing when the run is done. -/
def step (r : JobRunner) (c : RunCall) (stage : Stage) (w : Workspace) :
    Option (Stage × Workspace) :=
  match stage with
  | .begun =>
    match Token.authorize r.key c.spec.claimContext c.now with
    | .ok claim => some (.authorized claim, w)
    | .error e => some (.done (.error (.auth e)), w)
  | .authorized claim =>
    let (won, ledger, files) := w.ledger.claim claim.attemptId c.now w.files
    some (if won then .won claim else .lost claim, ⟨ledger, files⟩)
  | .lost claim =>
    match w.ledger.get claim.attemptId with
    | .ok record => some (c.respond claim true (AttemptRecord.resultFor record), w)
    | .error e => some (.done (.error (.store e)), w)
  | .won claim =>
    let timeout := c.spec.timeout r.config.defaultTimeout r.config.maxTimeout
    let (outcome, files) :=
      Job.execute r.jail c.spec.kind c.spec.args timeout c.nowMillis w.files
    some (.executed claim outcome.result, { w with files })
  | .executed claim result =>
    let (ledger, files) := w.ledger.complete claim.attemptId result w.files
    some (c.respond claim false result, ⟨ledger, files⟩)
  | .done _ => none

/-- Takes up to `steps` steps from a stage. -/
def advance (r : JobRunner) (c : RunCall) :
    (steps : Nat) → Stage → Workspace → Stage × Workspace
  | 0, stage, w => (stage, w)
  | steps + 1, stage, w =>
    match step r c stage w with
    | some (stage, w) => advance r c steps stage w
    | none => (stage, w)

/-- The longest way through the stages. -/
def maxSteps : Nat := 4

end RunCall

namespace JobRunner

/-- Runs a job while no other run is under way. -/
def run (r : JobRunner) (c : RunCall) (w : Workspace) :
    Except MeshError RunResponse × Workspace :=
  match c.advance r RunCall.maxSteps .begun w with
  | (.done answer, w) => (answer, w)
  | (_, w) => (.error (.store (.task "run not finished")), w)

/-- Claims an attempt, or looks up what became of it. -/
def claim (id : String) (now : Int) (w : Workspace) :
    Except StoreError ClaimOutcome × Workspace :=
  let (won, ledger, files) := w.ledger.claim id now w.files
  let answer := if won then .ok .won else (ledger.get id).map .lost
  (answer, ⟨ledger, files⟩)

end JobRunner

end MeshNode
