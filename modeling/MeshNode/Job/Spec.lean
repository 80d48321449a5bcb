import MeshNode.Token

/-!
# Job requests

A request body either wraps the job with a version number or is the job itself. The attempt that a
job belongs to is named by its attempt id; older callers name it by a request id or by nothing but
the job id. The timeout that a job asks for is kept within one second and a maximum.
-/

namespace MeshNode

/-- One job as it was submitted. -/
structure JobSpec where
  jobId : Option String
  attemptId : Option String
  /-- How older callers name an attempt. -/
  reqUid : Option String
  kind : String
  args : Json
  timeoutSecs : Option Nat
  token : Option String
  /-- Seconds of Unix time. -/
  deadline : Option Int

/-- Why a request body is no job. -/
inductive RequestError where
  | malformed (text : String)
  | unsupportedVersion (version : Nat)
  deriving DecidableEq, Repr

/-- The text of an error. -/
def RequestError.message : RequestError → String
  | malformed text => "malformed job request: " ++ text
  | unsupportedVersion version => s!"unsupported request version: {version}"

namespace JobSpec

/-- The version of request bodies. -/
def version : Nat := 1

/-- Reads a job. -/
def decoder : Json.Decoder JobSpec :=
  .record "JobSpec"
    (.cons (.omissible "job_id" .text) <| .cons (.omissible "attempt_id" .text) <|
      .cons (.omissible "req_uid" .text) <| .cons (.required "kind" .text) <|
      .cons (.withDefault "args" .value .null) <| .cons (.omissible "timeout_seconds" .word64) <|
      .cons (.omissible "claim_token" .text) <| .cons (.omissible "deadline_ts" .int64) .nil)
    fun (jobId, attemptId, reqUid, kind, args, timeoutSecs, token, deadline, ()) =>
      ⟨jobId, attemptId, reqUid, kind, args, timeoutSecs, token, deadline⟩

/-- The written form. -/
def toJson (s : JobSpec) : Json :=
  .obj [("job_id", .ofText? s.jobId), ("attempt_id", .ofText? s.attemptId),
    ("req_uid", .ofText? s.reqUid), ("kind", .str s.kind), ("args", s.args),
    ("timeout_seconds", .ofInt? (s.timeoutSecs.map Int.ofNat)),
    ("claim_token", .ofText? s.token), ("deadline_ts", .ofInt? s.deadline)]

/-- The nonnegative integer that a value is. -/
def natural? : Json → Option Nat
  | .num (.int (.ofNat n)) => some n
  | _ => none

/-- The job that the fields of a body hold: that under `job` when there is a version, which must be
the supported one, and else the body itself. -/
def jobOf (fields : List (String × Json)) : Except RequestError Json :=
  match fields.lookup "v" with
  | none => .ok (.obj fields)
  | some v =>
    match natural? v with
    | none => .error (.malformed "v must be an integer")
    | some n =>
      if n ≠ version then .error (.unsupportedVersion n)
      else
        match fields.lookup "job" with
        | some job => .ok job
        | none => .error (.malformed "missing job")

/-- The job of a request body. -/
def ofRequest (body : Json) : Except RequestError JobSpec :=
  match body with
  | .obj fields => do
    let job ← jobOf fields
    match decoder.convert job with
    | .ok spec => return spec
    | .error text => throw (.malformed text)
  | _ => .error (.malformed "body must be a JSON object")

/-- The attempt that the job belongs to. -/
def effectiveAttemptId (s : JobSpec) : Option String := (s.attemptId.or s.reqUid).or s.jobId

/-- What the job presents to be authorized. -/
def claimContext (s : JobSpec) : ClaimContext :=
  ⟨s.jobId, s.effectiveAttemptId, s.deadline, s.token⟩

/-- The timeout in milliseconds: the one asked for or the default, but at least a second and at most
`most`, which itself counts as at least a second. -/
def timeout (s : JobSpec) (default most : Nat) : Nat :=
  min (max ((s.timeoutSecs.map (1000 * ·)).getD default) 1000) (max most 1000)

end JobSpec

end MeshNode
