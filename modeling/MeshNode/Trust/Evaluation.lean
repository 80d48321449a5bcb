import MeshNode.Trust.Record

/-!
# Evaluating reports

Each report is held against the history of its node. A report that differs from the first one is a
drift, however small the steps that led there. A report whose capability digest differs from that
of the report before it is a flip; flips are counted for the life of the record, and a node that
flips as often as the threshold allows no more is suspected of being impersonated. Both events also
hint at a worse health.

A node that sends no report keeps its history as it is.
-/

namespace MeshNode

/-- What an evaluation brings to light. -/
inductive TrustEvent where
  | firstSeen (build capabilityHead : String)
  | drift (oldBuild newBuild oldHead newHead : String)
  | spoofSuspect (nodeId : String) (spoofCount : Nat)
  deriving DecidableEq, Repr

namespace TrustEvent

/-- Reads an event. -/
def decoder : Json.Decoder TrustEvent :=
  .tagged "internally tagged enum AttestationEvent" "type"
    [("ATTESTATION_FIRST_SEEN",
        Json.Decoder.variant "AttestationEvent::AttestationFirstSeen"
          (.cons (.required "build" .text) <| .cons (.required "capability_hash_prefix" .text) .nil)
          fun (build, capabilityHead, ()) => .firstSeen build capabilityHead),
      ("ATTESTATION_DRIFT",
        Json.Decoder.variant "AttestationEvent::AttestationDrift"
          (.cons (.required "old_build" .text) <| .cons (.required "new_build" .text) <|
            .cons (.required "old_cap_prefix" .text) <|
            .cons (.required "new_cap_prefix" .text) .nil)
          fun (oldBuild, newBuild, oldHead, newHead, ()) =>
            .drift oldBuild newBuild oldHead newHead),
      ("ATTESTATION_SPOOF_SUSPECT",
        Json.Decoder.variant "AttestationEvent::AttestationSpoofSuspect"
          (.cons (.required "node_id" .text) <| .cons (.required "spoof_count" .word64) .nil)
          fun (nodeId, spoofCount, ()) => .spoofSuspect nodeId spoofCount)]

/-- The written form. -/
def toJson : TrustEvent → Json
  | firstSeen build capabilityHead =>
    .obj [("type", .str "ATTESTATION_FIRST_SEEN"), ("build", .str build),
      ("capability_hash_prefix", .str capabilityHead)]
  | drift oldBuild newBuild oldHead newHead =>
    .obj [("type", .str "ATTESTATION_DRIFT"), ("old_build", .str oldBuild),
      ("new_build", .str newBuild), ("old_cap_prefix", .str oldHead),
      ("new_cap_prefix", .str newHead)]
  | spoofSuspect nodeId spoofCount =>
    .obj [("type", .str "ATTESTATION_SPOOF_SUSPECT"), ("node_id", .str nodeId),
      ("spoof_count", .nat spoofCount)]

end TrustEvent

/-- The outcome of holding a report against a history. -/
structure Evaluation where
  status : TrustStatus
  events : List TrustEvent
  healthHint : Option Health

/-- How many flips make a node suspect. -/
structure SpoofThreshold where
  flips : Nat
  flips_pos : 0 < flips := by decide
  deriving DecidableEq, Repr

namespace SpoofThreshold

/-- The threshold with a given number of flips; none at all counts as one. -/
def ofNat (n : Nat) : SpoofThreshold := ⟨max n 1, by omega⟩

/-- The threshold used by default. -/
def default : SpoofThreshold := ⟨3, by decide⟩

end SpoofThreshold

namespace TrustRecord

/-- The report differs from the first one. -/
def Drifts (r : TrustRecord) (report : AttestationReport) : Prop :=
  report.buildId ≠ r.firstSeen.buildId ∨ report.capabilityHash ≠ r.firstSeen.capabilityHash

instance (r : TrustRecord) (report : AttestationReport) : Decidable (r.Drifts report) :=
  inferInstanceAs (Decidable (_ ∨ _))

/-- The digest of the report differs from that of the last one. -/
def Flips (r : TrustRecord) (report : AttestationReport) : Prop :=
  report.capabilityHash ≠ r.lastSeen.capabilityHash

instance (r : TrustRecord) (report : AttestationReport) : Decidable (r.Flips report) :=
  inferInstanceAs (Decidable (_ ≠ _))

/-- The next value of a counter, which is a word of 64 bits and wraps around. -/
def nextCount (count : Nat) : Nat := (count + 1) % UInt64.size

/-- Counts a drift. -/
def drifted (r : TrustRecord) (now : Int) : TrustRecord :=
  { r with
    driftCount := nextCount r.driftCount
    lastChange := some now
    status := r.status.worst .drift }

/-- Counts a flip. -/
def flipped (r : TrustRecord) (threshold : SpoofThreshold) : TrustRecord :=
  { r with
    spoofCount := nextCount r.spoofCount
    status := if threshold.flips ≤ nextCount r.spoofCount then .spoofSuspect else r.status }

/-- The event of a drift. -/
def driftEvent (r : TrustRecord) (report : AttestationReport) : TrustEvent :=
  .drift r.firstSeen.buildId report.buildId (Digest.head r.firstSeen.capabilityHash)
    (Digest.head report.capabilityHash)

/-- Holds a further report against a record. -/
def compare (r : TrustRecord) (threshold : SpoofThreshold) (nodeId : String)
    (report : AttestationReport) (now : Int) : Evaluation × TrustRecord :=
  let counted := if r.Drifts report then r.drifted now else r
  let counted := if r.Flips report then counted.flipped threshold else counted
  let suspect := r.Flips report ∧ threshold.flips ≤ nextCount r.spoofCount
  let hint := if r.Drifts report ∨ suspect then some Health.yellow else none
  let after : TrustRecord :=
    { counted with
      lastSeen := ⟨now, report.buildId, report.capabilityHash⟩
      health := hint.elim r.health r.health.worsen }
  let events :=
    (if r.Drifts report then [r.driftEvent report] else []) ++
      if suspect then [.spoofSuspect nodeId (nextCount r.spoofCount)] else []
  (⟨after.status, events, hint⟩, after)

end TrustRecord

/-- Holds what a node sent against what is known of it. -/
def evaluate (threshold : SpoofThreshold) (nodeId : String) (report : Option AttestationReport)
    (record : Option TrustRecord) (now : Int) : Evaluation × Option TrustRecord :=
  match record, report with
  | none, none => (⟨.missing, [], none⟩, none)
  | none, some report =>
    (⟨.ok, [.firstSeen report.buildId (Digest.head report.capabilityHash)], none⟩,
      some (.ofFirstReport report now))
  | some record, none => (⟨record.status, [], none⟩, some record)
  | some record, some report =>
    let (evaluation, record) := record.compare threshold nodeId report now
    (evaluation, some record)

end MeshNode
