import MeshNode.Json.Decoder
import MeshNode.StoreError

/-!
# The attempt ledger

The ledger remembers, for every attempt, whether it is still being executed or with which result it
was completed, so that an attempt is executed once however often it is requested. A row holds its
status and result as texts, the result in compact JSON. Claiming an attempt adds a row unless there
is one, and only the claim that added it may execute the attempt; completing it overwrites status
and result of a row and adds none. Rows are dropped once they were claimed longer ago than the time
to live.

Reading a row back checks it: the status must be one of the two, and a completed row must have a
result that is JSON.
-/

namespace MeshNode

/-- How far an attempt has got. -/
inductive AttemptStatus where
  | inProgress
  | completed
  deriving DecidableEq, Repr

namespace AttemptStatus

/-- The text of a status. -/
def name : AttemptStatus → String
  | inProgress => "IN_PROGRESS"
  | completed => "COMPLETED"

/-- The statuses by their texts. -/
def choices : List (String × AttemptStatus) :=
  [("IN_PROGRESS", inProgress), ("COMPLETED", completed)]

/-- The status with a given text. -/
def ofName? (s : String) : Option AttemptStatus := choices.lookup s

end AttemptStatus

/-- What the ledger knows of an attempt. -/
structure AttemptRecord where
  attemptId : String
  status : AttemptStatus
  /-- Present exactly when the attempt is completed. -/
  result : Option Json
  /-- When the attempt was claimed, in seconds of Unix time. -/
  created : Int

namespace AttemptRecord

/-- Reads a record. -/
def decoder : Json.Decoder AttemptRecord :=
  .record "AttemptRecord"
    (.cons (.required "attempt_id" .text) <|
      .cons (.required "status" (.choice AttemptStatus.choices)) <|
      .cons (.optional "result" .value) <| .cons (.required "created_ts" .int64) .nil)
    fun (attemptId, status, result, created, ()) => ⟨attemptId, status, result, created⟩

/-- The written form. -/
def toJson (r : AttemptRecord) : Json :=
  .obj [("attempt_id", .str r.attemptId), ("status", .str r.status.name),
    ("result", r.result.getD .null), ("created_ts", .int r.created)]

end AttemptRecord

/-- What callers get while another caller owns the attempt. -/
def inProgressResult : Json :=
  .obj [("error", .str "attempt is still executing"), ("error_code", .str "IN_PROGRESS"),
    ("ok", .bool false)]

/-- The result as seen by a caller that lost the claim. -/
def AttemptRecord.callerResult (r : AttemptRecord) : Json :=
  match r.status, r.result with
  | .completed, some result => result
  | _, _ => inProgressResult

/-- A row of the ledger. -/
structure LedgerRow where
  status : String
  result : Option String
  created : Int
  deriving DecidableEq, Repr

/-- The rows by attempt. -/
structure Ledger where
  rows : Keyed LedgerRow
  deriving DecidableEq, Repr

namespace Ledger

/-- A ledger without rows. -/
def empty : Ledger := ⟨[]⟩

/-- How many seconds a row is kept by default. -/
def defaultTtlSecs : Nat := 24 * 60 * 60

/-- Takes an attempt if nobody has it; answers whether this call did. -/
def claim (l : Ledger) (id : String) (now : Int) : Bool × Ledger :=
  if l.rows.contains id then (false, l)
  else (true, ⟨l.rows.insert id ⟨AttemptStatus.inProgress.name, none, now⟩⟩)

/-- Writes the result of an attempt into its row, if it has one. -/
def complete (l : Ledger) (id : String) (result : Json) : Ledger :=
  match l.rows.get? id with
  | none => l
  | some row =>
    let status := AttemptStatus.completed.name
    ⟨l.rows.insert id { row with status, result := some result.compact }⟩

/-- Puts a row as it is, in place of the one with the same id. -/
def put (l : Ledger) (id : String) (row : LedgerRow) : Ledger := ⟨l.rows.insert id row⟩

/-- The record of a row. -/
def readRow (id : String) (row : LedgerRow) : Except StoreError AttemptRecord :=
  match AttemptStatus.ofName? row.status, row.result with
  | none, _ => .error (.corrupt id ("unknown status " ++ Text.quote row.status))
  | some .inProgress, _ => .ok ⟨id, .inProgress, none, row.created⟩
  | some .completed, none => .error (.corrupt id "completed without result")
  | some .completed, some text =>
    match Json.ofBytes (.ofText text) with
    | .ok result => .ok ⟨id, .completed, some result, row.created⟩
    | .error e => .error (.unreadable e)

/-- What the ledger knows of an attempt. -/
def get (l : Ledger) (id : String) : Except StoreError (Option AttemptRecord) :=
  match l.rows.get? id with
  | none => .ok none
  | some row => (readRow id row).map some

/-- The least signed 64-bit integer. -/
def minTime : Int := -0x8000000000000000

/-- The time before which rows are dropped, which does not fall below the least 64-bit integer. -/
def cutoff (ttlSecs : Nat) (now : Int) : Int := max minTime (now - min ttlSecs 0x7fffffffffffffff)

/-- Drops the rows claimed more than the time to live before `now`; answers how many. -/
def evict (l : Ledger) (ttlSecs : Nat) (now : Int) : Nat × Ledger :=
  let kept := l.rows.filter fun r => cutoff ttlSecs now ≤ r.2.created
  (l.rows.length - kept.length, ⟨kept⟩)

end Ledger

end MeshNode
