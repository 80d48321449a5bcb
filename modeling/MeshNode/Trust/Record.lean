import MeshNode.Digest
import MeshNode.Json.Decoder

/-!
# Trust records

A node reports which build it runs and the digest of its capabilities. The orchestrator keeps one
record per node: the first report, which is the baseline that later reports are compared with, the
last report, how often the node drifted from the baseline and how often the digest changed from one
report to the next, and two summaries of that history, a trust status and a health.

Both summaries are ordered by severity. Times are milliseconds of Unix time.
-/

namespace MeshNode

/-- What a node says of itself. -/
structure AttestationReport where
  buildId : String
  capabilityHash : String
  runtimeInfo : Json

namespace AttestationReport

/-- Reads a report. -/
def decoder : Json.Decoder AttestationReport :=
  .record "AttestationReport"
    (.cons (.required "build_id" .text) <| .cons (.required "capability_hash" .text) <|
      .cons (.withDefault "runtime_info" .value .null) .nil)
    fun (buildId, capabilityHash, runtimeInfo, ()) => ⟨buildId, capabilityHash, runtimeInfo⟩

/-- The written form. -/
def toJson (r : AttestationReport) : Json :=
  .obj [("build_id", .str r.buildId), ("capability_hash", .str r.capabilityHash),
    ("runtime_info", r.runtimeInfo)]

/-- The report of a build with the given capabilities. -/
def ofCapabilities (buildId : String) (capabilities : List String) (runtimeInfo : Json) :
    AttestationReport :=
  ⟨buildId, Digest.ofCapabilities capabilities, runtimeInfo⟩

end AttestationReport

/-- How far a node is trusted. -/
inductive TrustStatus where
  | missing
  | ok
  | drift
  | spoofSuspect
  deriving DecidableEq, Repr

namespace TrustStatus

/-- The statuses by their names, in order of severity. -/
def choices : List (String × TrustStatus) :=
  [("MISSING", missing), ("OK", ok), ("DRIFT", drift), ("SPOOF_SUSPECT", spoofSuspect)]

/-- The name of a status. -/
def name : TrustStatus → String
  | missing => "MISSING"
  | ok => "OK"
  | drift => "DRIFT"
  | spoofSuspect => "SPOOF_SUSPECT"

/-- How severe a status is. -/
def severity : TrustStatus → Nat
  | missing => 0
  | ok => 1
  | drift => 2
  | spoofSuspect => 3

/-- The more severe of two statuses. -/
def worst (a b : TrustStatus) : TrustStatus := if a.severity < b.severity then b else a

/-- Reads a status. -/
def decoder : Json.Decoder TrustStatus := .choice choices

/-- The written form. -/
def toJson (s : TrustStatus) : Json := .str s.name

end TrustStatus

/-- A coarse signal for operators. -/
inductive Health where
  | green
  | yellow
  | red
  deriving DecidableEq, Repr

namespace Health

/-- The healths by their names, in order of severity. -/
def choices : List (String × Health) := [("GREEN", green), ("YELLOW", yellow), ("RED", red)]

/-- The name of a health. -/
def name : Health → String
  | green => "GREEN"
  | yellow => "YELLOW"
  | red => "RED"

/-- How severe a health is. -/
def severity : Health → Nat
  | green => 0
  | yellow => 1
  | red => 2

/-- Reads a health. -/
def decoder : Json.Decoder Health := .choice choices

/-- The written form. -/
def toJson (h : Health) : Json := .str h.name

/-- The health after a hint: it only gets worse, and red is the operator's to set and to lift. -/
def worsen (h hint : Health) : Health :=
  if h ≠ red ∧ hint ≠ red ∧ h.severity < hint.severity then hint else h

end Health

/-- The first report of a node, which later ones are compared with. -/
structure FirstSeen where
  time : Int
  buildId : String
  capabilityHash : String
  runtimeInfo : Json

namespace FirstSeen

/-- Reads a first report. -/
def decoder : Json.Decoder FirstSeen :=
  .record "FirstSeen"
    (.cons (.required "timestamp" .int64) <| .cons (.required "build_id" .text) <|
      .cons (.required "capability_hash" .text) <|
      .cons (.withDefault "runtime_info" .value .null) .nil)
    fun (time, buildId, capabilityHash, runtimeInfo, ()) =>
      ⟨time, buildId, capabilityHash, runtimeInfo⟩

/-- The written form. -/
def toJson (s : FirstSeen) : Json :=
  .obj [("timestamp", .int s.time), ("build_id", .str s.buildId),
    ("capability_hash", .str s.capabilityHash), ("runtime_info", s.runtimeInfo)]

end FirstSeen

/-- The last report of a node. -/
structure LastSeen where
  time : Int
  buildId : String
  capabilityHash : String
  deriving DecidableEq, Repr

namespace LastSeen

/-- Reads a last report. -/
def decoder : Json.Decoder LastSeen :=
  .record "LastSeen"
    (.cons (.required "timestamp" .int64) <| .cons (.required "build_id" .text) <|
      .cons (.required "capability_hash" .text) .nil)
    fun (time, buildId, capabilityHash, ()) => ⟨time, buildId, capabilityHash⟩

/-- The written form. -/
def toJson (s : LastSeen) : Json :=
  .obj [("timestamp", .int s.time), ("build_id", .str s.buildId),
    ("capability_hash", .str s.capabilityHash)]

end LastSeen

/-- What the orchestrator knows of a node. -/
structure TrustRecord where
  firstSeen : FirstSeen
  lastSeen : LastSeen
  status : TrustStatus
  /-- How many reports differed from the first. -/
  driftCount : Nat
  /-- How many reports had another digest than the report before them. -/
  spoofCount : Nat
  /-- When the node last drifted. -/
  lastChange : Option Int
  health : Health

namespace TrustRecord

/-- Reads a record. -/
def decoder : Json.Decoder TrustRecord :=
  .record "NodeTrustRecord"
    (.cons (.required "first_seen" FirstSeen.decoder) <|
      .cons (.required "last_seen" LastSeen.decoder) <|
      .cons (.required "status" TrustStatus.decoder) <|
      .cons (.required "drift_count" .word64) <| .cons (.required "spoof_count" .word64) <|
      .cons (.optional "last_change_timestamp" .int64) <|
      .cons (.withDefault "health" Health.decoder .green) .nil)
    fun (firstSeen, lastSeen, status, driftCount, spoofCount, lastChange, health, ()) =>
      ⟨firstSeen, lastSeen, status, driftCount, spoofCount, lastChange, health⟩

/-- The written form. -/
def toJson (r : TrustRecord) : Json :=
  .obj [("first_seen", r.firstSeen.toJson), ("last_seen", r.lastSeen.toJson),
    ("status", r.status.toJson), ("drift_count", .nat r.driftCount),
    ("spoof_count", .nat r.spoofCount), ("last_change_timestamp", .ofInt? r.lastChange),
    ("health", r.health.toJson)]

/-- The record of a node at its first report. -/
def ofFirstReport (r : AttestationReport) (now : Int) : TrustRecord where
  firstSeen := ⟨now, r.buildId, r.capabilityHash, r.runtimeInfo⟩
  lastSeen := ⟨now, r.buildId, r.capabilityHash⟩
  status := .ok
  driftCount := 0
  spoofCount := 0
  lastChange := none
  health := .green

end TrustRecord

end MeshNode
