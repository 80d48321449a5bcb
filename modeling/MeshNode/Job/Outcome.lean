import MeshNode.Jail
import MeshNode.Json.Printer

/-!
# Outcomes of jobs

A job is completed with a value, fails with a code, or takes too long. Whatever happens, the result
is a JSON object that says whether the job went well; it is what the ledger keeps and what callers
get.
-/

namespace MeshNode

/-- The jobs that a node can do. -/
inductive JobKind where
  | write
  | list
  | probe
  deriving DecidableEq, Repr

namespace JobKind

/-- The name of a kind. -/
def name : JobKind → String
  | write => "write"
  | list => "list"
  | probe => "probe"

/-- The kinds by their names. -/
def choices : List (String × JobKind) := [("write", write), ("list", list), ("probe", probe)]

/-- The kind with a given name. -/
def ofName (s : String) : Except SandboxError JobKind :=
  match choices.lookup s with
  | some kind => .ok kind
  | none => .error (.unknownKind s)

end JobKind

/-- How a job ended. -/
inductive JobOutcome where
  | completed (value : Json)
  | failed (code message : String)
  | timedOut (micros : Nat)

namespace JobOutcome

/-- The outcome of a job that failed. -/
def ofError (e : SandboxError) : JobOutcome := failed e.code e.message

/-- The outcome of a job that failed for reasons of the node. -/
def internal (message : String) : JobOutcome := failed "INTERNAL_ERROR" message

/-- Whether the job was completed. -/
def ok : JobOutcome → Bool
  | completed _ => true
  | _ => false

/-- The result of a failure. -/
def failure (code message : String) : Json :=
  .obj [("error", .str message), ("error_code", .str code), ("ok", .bool false)]

/-- The result of a job. -/
def result : JobOutcome → Json
  | completed (.obj fields) => .obj (Keyed.insert fields "ok" (.bool true))
  | completed value => .obj [("ok", .bool true), ("value", value)]
  | failed code message => failure code message
  | timedOut micros => failure "JOB_TIMEOUT" s!"job exceeded {micros / 1000}ms"

end JobOutcome

end MeshNode
