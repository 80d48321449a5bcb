import MeshNode.Backoff
import MeshNode.Heartbeat
import MeshNode.Http.Message
import MeshNode.Http.Url

/-!
# Delivering heartbeats

A heartbeat is posted to the orchestrator as JSON. It counts as delivered when the answer is no
refusal and can be read. How a request reaches another host is a parameter.
-/

namespace MeshNode

/-- Why a heartbeat was not delivered. -/
inductive DeliveryError where
  /-- The address of the orchestrator is none that a request can be sent to. -/
  | badAddress
  /-- Nobody answers there. -/
  | unreachable
  /-- The orchestrator refused the heartbeat with a status. -/
  | refused (status : Nat)
  /-- The answer cannot be read. -/
  | unreadable
  deriving DecidableEq, Repr

/-- What posting a body to an address brings back, if anything does: a status and a body. -/
abbrev Network := Http.Url → Bytes → Option (Nat × Bytes)

/-- The heartbeats that a node sends. -/
structure HeartbeatPlan where
  hostId : String
  /-- The address of the orchestrator. -/
  orchestrator : String
  report : AttestationReport
  intervalSecs : Nat
  policy : RetryPolicy

namespace Heartbeat

/-- What an answer means. -/
def interpret (status : Nat) (body : Bytes) : Except DeliveryError HeartbeatAnswer :=
  if 400 ≤ status ∧ status < 600 then .error (.refused status)
  else
    match HeartbeatAnswer.decoder.ofBytes body with
    | .ok answer => .ok answer
    | .error _ => .error .unreadable

/-- Sends a heartbeat once. -/
def deliver (h : Heartbeat) (endpoint : String) (network : Network) :
    Except DeliveryError HeartbeatAnswer :=
  match Http.Url.ofText? endpoint with
  | none => .error .badAddress
  | some url =>
    match network url h.toJson.render with
    | none => .error .unreachable
    | some (status, body) => interpret status body

/-- Sends a heartbeat until it is delivered or no retry is left; the network may change from one
attempt to the next. -/
def deliverPersistently (h : Heartbeat) (endpoint : String) (policy : RetryPolicy)
    (network : Nat → Network) : Option (Except DeliveryError HeartbeatAnswer × Nat) :=
  policy.run fun attempt => h.deliver endpoint (network attempt)

end Heartbeat

end MeshNode
