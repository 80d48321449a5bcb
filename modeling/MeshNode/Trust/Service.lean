import MeshNode.Trust.Evaluation
import MeshNode.Trust.Store

/-!
# The trust service

Reports and operators' verdicts on the health of nodes reach the trust store through calls, any
number of which may be under way at once. A call goes through stages, one atomic step at a time. One
that will write takes the lock of its node first, loads the record only then, and releases the lock
after the record has been saved or could not be. A call that has nothing to write, because there is
no report or no record, takes no lock.

`run` takes a call from its beginning to its end with no other call under way.
-/

namespace MeshNode

/-- A request to the trust service. -/
inductive TrustCall where
  /-- What a node sent, with the time it arrived. -/
  | ingest (node : String) (report : Option AttestationReport) (now : Int)
  /-- An operator's verdict. -/
  | setHealth (node : String) (health : Health)

/-- The answer to a call. -/
inductive TrustAnswer where
  | evaluated (evaluation : Evaluation) (record : Option TrustRecord)
  | health (record : Option TrustRecord)

namespace TrustAnswer

/-- The record that an answer shows. -/
def record : TrustAnswer → Option TrustRecord
  | evaluated _ record => record
  | health record => record

end TrustAnswer

/-- The service: its store, and the nodes whose lock is taken. -/
structure TrustService where
  threshold : SpoofThreshold
  store : TrustStore
  locked : List String

namespace TrustCall

/-- How far a call has got. -/
inductive Stage where
  | begun
  /-- It waits for the lock. -/
  | waiting
  /-- It has the lock. -/
  | holding
  /-- It has the lock, a record to save, and the answer for when it is saved. -/
  | saving (record : TrustRecord) (answer : TrustAnswer)
  /-- It has the lock and nothing left to do but to release it. -/
  | closing (answer : Except StoreError TrustAnswer)
  | done (answer : Except StoreError TrustAnswer)

/-- The node that a call is about. -/
def node : TrustCall → String
  | ingest node .. => node
  | setHealth node _ => node

/-- The first step: a call that writes nothing ends here. -/
def begin (c : TrustCall) (s : TrustService) : Stage :=
  match c with
  | ingest node none now =>
    let (evaluation, record) := evaluate s.threshold node none (s.store.load node) now
    .done (.ok (.evaluated evaluation record))
  | ingest _ (some _) _ => .waiting
  | setHealth node _ =>
    if (s.store.load node).isNone then .done (.ok (.health none)) else .waiting

/-- The step after the lock is taken: loads the record and says what to save. -/
def decide (c : TrustCall) (s : TrustService) : Stage :=
  let before := s.store.load c.node
  match c with
  | ingest node report now =>
    let (evaluation, after) := evaluate s.threshold node report before now
    let answer := TrustAnswer.evaluated evaluation after
    match after with
    | some record => .saving record answer
    | none => .closing (.ok answer)
  | setHealth _ health =>
    match before with
    | some record =>
      let record := { record with health }
      .saving record (.health (some record))
    | none => .closing (.ok (.health none))

/-- One atomic step; nothing when the call has to wait or is done. -/
def step (c : TrustCall) (stage : Stage) (s : TrustService) (t : FileTree) :
    Option (Stage × TrustService × FileTree) :=
  match stage with
  | .begun => some (c.begin s, s, t)
  | .waiting =>
    if c.node ∈ s.locked then none
    else some (.holding, { s with locked := c.node :: s.locked }, t)
  | .holding => some (c.decide s, s, t)
  | .saving record answer =>
    match (s.store.save c.node record).run t with
    | (.ok store, t) => some (.closing (.ok answer), { s with store }, t)
    | (.error e, t) => some (.closing (.error e), s, t)
  | .closing answer => some (.done answer, { s with locked := s.locked.erase c.node }, t)
  | .done _ => none

/-- Takes up to `steps` steps from a stage. -/
def advance (c : TrustCall) :
    (steps : Nat) → Stage → TrustService → FileTree → Stage × TrustService × FileTree
  | 0, stage, s, t => (stage, s, t)
  | steps + 1, stage, s, t =>
    match c.step stage s t with
    | some (stage, s, t) => advance c steps stage s t
    | none => (stage, s, t)

/-- The longest way through the stages. -/
def maxSteps : Nat := 5

/-- Runs a call while no other is under way. -/
def run (c : TrustCall) (s : TrustService) (t : FileTree) :
    Except StoreError TrustAnswer × TrustService × FileTree :=
  match c.advance maxSteps .begun s t with
  | (.done answer, s, t) => (answer, s, t)
  | (_, s, t) => (.error (.task "lock not released"), s, t)

end TrustCall

namespace TrustService

/-- A service over a store, with no call under way. -/
def ofStore (threshold : SpoofThreshold) (store : TrustStore) : TrustService :=
  ⟨threshold, store, []⟩

/-- The record of a node. -/
def record (s : TrustService) (node : String) : Option TrustRecord := s.store.load node

end TrustService

end MeshNode
