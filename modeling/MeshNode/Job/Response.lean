import MeshNode.Envelope

/-!
# Answers to job requests

What a node answers to a job request, and the sealed form in which request and answer may travel.
-/

namespace MeshNode

/-- The answer to a job request. -/
structure RunResponse where
  requestId : String
  attemptId : String
  jobId : String
  /-- Whether the result was produced by an earlier request for the same attempt. -/
  cached : Bool
  result : Json

namespace RunResponse

/-- Reads an answer. -/
def decoder : Json.Decoder RunResponse :=
  .record "RunResponse"
    (.cons (.required "request_id" .text) <| .cons (.required "attempt_id" .text) <|
      .cons (.required "job_id" .text) <| .cons (.required "cached" .bool) <|
      .cons (.required "result" .value) .nil)
    fun (requestId, attemptId, jobId, cached, result, ()) =>
      ⟨requestId, attemptId, jobId, cached, result⟩

/-- The written form. -/
def toJson (r : RunResponse) : Json :=
  .obj [("request_id", .str r.requestId), ("attempt_id", .str r.attemptId),
    ("job_id", .str r.jobId), ("cached", .bool r.cached), ("result", r.result)]

end RunResponse

/-- A job request or its answer inside an envelope of a session. -/
structure SealedRun where
  sessionId : String
  envelope : Envelope

namespace SealedRun

/-- Reads the sealed form. -/
def decoder : Json.Decoder SealedRun :=
  .record "SealedRun"
    (.cons (.required "session_id" .text) <| .cons (.required "envelope" Envelope.decoder) .nil)
    fun (sessionId, envelope, ()) => ⟨sessionId, envelope⟩

/-- The written form. -/
def toJson (r : SealedRun) : Json :=
  .obj [("session_id", .str r.sessionId), ("envelope", r.envelope.toJson)]

end SealedRun

end MeshNode
