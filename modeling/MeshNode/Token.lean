import MeshNode.Bytes.Hex
import MeshNode.Crypto.Hmac
import MeshNode.Json.Decoder

/-!
# Claim tokens

A job request is authorized by a token that only the holder of the shared key can make: the
hexadecimal HMAC of the job, the attempt and the deadline of the attempt. A token stays valid for
every retry of its attempt until the deadline, in seconds of Unix time, has passed.

A request may lack any of the parts; that is a failure of authorization, reported for the first
part that is missing, and comes before the deadline, which comes before the token.
-/

namespace MeshNode

/-- What a request presents to be authorized. -/
structure ClaimContext where
  jobId : Option String
  attemptId : Option String
  /-- Seconds of Unix time. -/
  deadline : Option Int
  token : Option String
  deriving DecidableEq, Repr

namespace ClaimContext

/-- Reads what a request presents. -/
def decoder : Json.Decoder ClaimContext :=
  .record "ClaimContext"
    (.cons (.optional "job_id" .text) <| .cons (.optional "attempt_id" .text) <|
      .cons (.optional "deadline_ts" .int64) <| .cons (.optional "claim_token" .text) .nil)
    fun (jobId, attemptId, deadline, token, ()) => ⟨jobId, attemptId, deadline, token⟩

/-- The written form. -/
def toJson (c : ClaimContext) : Json :=
  .obj [("job_id", .ofText? c.jobId), ("attempt_id", .ofText? c.attemptId),
    ("deadline_ts", .ofInt? c.deadline), ("claim_token", .ofText? c.token)]

end ClaimContext

/-- A request that has been authorized. -/
structure Claim where
  jobId : String
  attemptId : String
  deadline : Int
  deriving DecidableEq, Repr

/-- Why a request was not authorized. -/
inductive AuthError where
  | missingField (name : String)
  | invalidToken
  | expired (deadline now : Int)
  deriving DecidableEq, Repr

namespace AuthError

/-- The code of an error in answers. -/
def code : AuthError → String
  | missingField _ => "MISSING_FIELD"
  | invalidToken => "INVALID_TOKEN"
  | expired .. => "EXPIRED_DEADLINE"

/-- The text of an error. -/
def message : AuthError → String
  | missingField name => "missing required field: " ++ name
  | invalidToken => "claim token does not match"
  | expired deadline now => s!"deadline {deadline} has passed (now {now})"

end AuthError

namespace Token

/-- The bytes of which a token is the HMAC. -/
def signedBytes (jobId attemptId : String) (deadline : Int) : Bytes :=
  .ofText jobId ++ .ofText ":" ++ .ofText attemptId ++ .ofText ":" ++ Decimal.ofInt deadline

/-- The HMAC of a job, an attempt and a deadline. -/
def mac (key : Bytes) (jobId attemptId : String) (deadline : Int) : Bytes :=
  Hmac.sha256 key (signedBytes jobId attemptId deadline)

/-- The token for an attempt. -/
def issue (key : Bytes) (jobId attemptId : String) (deadline : Int) : String :=
  (mac key jobId attemptId deadline).toHex

/-- The part of a request that must be there. -/
def present {α : Type} (name : String) : Option α → Except AuthError α
  | some a => .ok a
  | none => .error (.missingField name)

/-- Authorizes a request as of `now`, in seconds of Unix time. -/
def authorize (key : Bytes) (c : ClaimContext) (now : Int) : Except AuthError Claim := do
  let jobId ← present "job_id" c.jobId
  let attemptId ← present "attempt_id" c.attemptId
  let deadline ← present "deadline_ts" c.deadline
  let token ← present "claim_token" c.token
  if deadline < now then throw (.expired deadline now)
  if Bytes.ofHex? token = some (mac key jobId attemptId deadline) then
    return ⟨jobId, attemptId, deadline⟩
  else throw .invalidToken

/-- Whether a request is authorized. -/
def verify (key : Bytes) (c : ClaimContext) (now : Int) : Bool :=
  match authorize key c now with
  | .ok _ => true
  | .error _ => false

end Token

end MeshNode
