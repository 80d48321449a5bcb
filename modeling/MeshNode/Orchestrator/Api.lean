import MeshNode.Api.Reply
import MeshNode.Heartbeat
import MeshNode.Trust.Service

/-!
# The interface of an orchestrator

An orchestrator takes heartbeats, shows what it knows of a host, and lets an operator overrule the
health of a host. What it records is stamped with its own clock.
-/

namespace MeshNode

/-- An orchestrator at work. -/
structure Orchestrator where
  trust : TrustService
  files : FileTree

namespace Orchestrator

/-- Has a call carried out by the trust service. -/
def call (s : Orchestrator) (c : TrustCall) : Except StoreError TrustAnswer × Orchestrator :=
  let (answer, trust, files) := c.run s.trust s.files
  (answer, ⟨trust, files⟩)

/-- The health that an answer shows; a host without a record is well. -/
def healthOf (record : Option TrustRecord) : Health := record.elim .green (·.health)

/-- Takes a heartbeat. -/
def heartbeat (s : Orchestrator) (h : Heartbeat) (nowMillis : Int) :
    Except ApiError HeartbeatAnswer × Orchestrator :=
  if Text.trim h.hostId = "" then (.error (.badRequest "host_id must not be empty"), s)
  else
    match s.call (.ingest h.hostId h.attestation nowMillis) with
    | (.error e, s) => (.error (.ofError (.store e)), s)
    | (.ok (.evaluated evaluation record), s) =>
      (.ok ⟨h.hostId, evaluation.status, healthOf record, evaluation.events⟩, s)
    | (.ok (.health _), s) => (.error (.internal "no evaluation"), s)

/-- The record of a host that is known. -/
def known (host : String) : Option TrustRecord → Except ApiError TrustRecord
  | some record => .ok record
  | none => .error (.notFound ("host " ++ host))

/-- Overrules the health of a host. -/
def setHealth (s : Orchestrator) (host : String) (health : Health) :
    Except ApiError TrustRecord × Orchestrator :=
  match s.call (.setHealth host health) with
  | (.error e, s) => (.error (.ofError (.store e)), s)
  | (.ok answer, s) => (known host answer.record, s)

/-- Reads an operator's verdict. -/
def verdictDecoder : Json.Decoder Health :=
  .record "HealthOverride" (.cons (.required "health" Health.decoder) .nil)
    fun (health, ()) => health

/-- Serves a request about a host, whose name is a segment of the path. -/
def onHost (s : Orchestrator) (segment : String)
    (serve : String → Http.Response × Orchestrator) : Http.Response × Orchestrator :=
  match Http.segmentText? segment with
  | some host => serve host
  | none => (.badSegment "host_id", s)

/-- Serves a request. -/
def serve (s : Orchestrator) (r : Http.Request) (nowMillis : Int) :
    Http.Response × Orchestrator :=
  match Http.segments r.target with
  | ["api", "hosts", "heartbeat"] =>
    Api.whenPosted r s <| Api.onBody r none Heartbeat.decoder s fun h =>
      let (answer, s) := s.heartbeat h nowMillis
      (answer.map HeartbeatAnswer.toJson, s)
  | ["api", "hosts", segment, "trust"] =>
    Api.whenRead r s <| s.onHost segment fun host =>
      Api.reply ((known host (s.trust.record host)).map TrustRecord.toJson, s)
  | ["api", "hosts", segment, "health"] =>
    Api.whenPosted r s <| s.onHost segment fun host =>
      Api.onBody r none verdictDecoder s fun health =>
        let (answer, s) := s.setHealth host health
        (answer.map TrustRecord.toJson, s)
  | _ => (.notFound, s)

end Orchestrator

end MeshNode
