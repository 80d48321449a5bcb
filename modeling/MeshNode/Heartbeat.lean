import MeshNode.Trust.Evaluation

/-!
# Heartbeats

A node tells its orchestrator at intervals that it is there and what it runs; the orchestrator
answers with the trust it puts in the node and with what the report brought to light.
-/

namespace MeshNode

/-- A sign of life. -/
structure Heartbeat where
  hostId : String
  status : String
  /-- Milliseconds on the node's clock. -/
  time : Int
  attestation : Option AttestationReport

namespace Heartbeat

/-- Where heartbeats are sent. -/
def path : String := "/api/hosts/heartbeat"

/-- The address heartbeats are sent to, given that of the orchestrator; slashes at its end do not
matter. -/
def endpoint (orchestrator : String) : String :=
  String.ofList (orchestrator.toList.reverse.dropWhile (· = '/')).reverse ++ path

/-- Reads a heartbeat. -/
def decoder : Json.Decoder Heartbeat :=
  .record "HeartbeatRequest"
    (.cons (.required "host_id" .text) <| .cons (.required "status" .text) <|
      .cons (.required "timestamp" .int64) <|
      .cons (.omissible "attestation" AttestationReport.decoder) .nil)
    fun (hostId, status, time, attestation, ()) => ⟨hostId, status, time, attestation⟩

/-- The written form; an absent report is left out. -/
def toJson (h : Heartbeat) : Json :=
  .obj ([("host_id", .str h.hostId), ("status", .str h.status), ("timestamp", .int h.time)] ++
    match h.attestation with
    | some r => [("attestation", r.toJson)]
    | none => [])

/-- The heartbeat of a node that is up. -/
def online (hostId : String) (report : AttestationReport) (now : Int) : Heartbeat :=
  ⟨hostId, "online", now, some report⟩

end Heartbeat

/-- The answer to a heartbeat. -/
structure HeartbeatAnswer where
  hostId : String
  status : TrustStatus
  health : Health
  events : List TrustEvent

namespace HeartbeatAnswer

/-- Reads an answer. -/
def decoder : Json.Decoder HeartbeatAnswer :=
  .record "HeartbeatResponse"
    (.cons (.required "host_id" .text) <| .cons (.required "trust_status" TrustStatus.decoder) <|
      .cons (.required "health" Health.decoder) <|
      .cons (.withDefault "events" (.list TrustEvent.decoder) []) .nil)
    fun (hostId, status, health, events, ()) => ⟨hostId, status, health, events⟩

/-- The written form. -/
def toJson (a : HeartbeatAnswer) : Json :=
  .obj [("host_id", .str a.hostId), ("trust_status", a.status.toJson),
    ("health", a.health.toJson), ("events", .arr (a.events.map TrustEvent.toJson))]

end HeartbeatAnswer

end MeshNode
