import MeshNode.Channel
import MeshNode.Heartbeat
import MeshNode.Job.Response
import MeshNode.Job.Spec
import MeshNode.Ledger
import MeshNode.Node.Announcement
import MeshNode.Node.Status

/-!
# Wire forms

Everything that travels between nodes, clients and orchestrators, or that is kept for later, has a
form in JSON that can be read and written. Reading and writing again is `recode`, which turns any
accepted text into the one that the program itself would write.
-/

namespace MeshNode

/-- The forms of data in JSON. -/
inductive WireForm where
  | offer
  | answer
  | envelope
  | sealedRun
  | claimContext
  | jobSpec
  | runResponse
  | attemptRecord
  | attestationReport
  | trustRecord
  | trustEvent
  | heartbeat
  | heartbeatAnswer
  | publicKeys
  | announcement
  | nodeStatus
  | trustStatus
  | health
  deriving DecidableEq, Repr

namespace WireForm

/-- The type of what has a form. -/
def Carrier : WireForm → Type
  | offer => Offer
  | answer => Answer
  | envelope => Envelope
  | sealedRun => SealedRun
  | claimContext => ClaimContext
  | jobSpec => JobSpec
  | runResponse => RunResponse
  | attemptRecord => AttemptRecord
  | attestationReport => AttestationReport
  | trustRecord => TrustRecord
  | trustEvent => TrustEvent
  | heartbeat => Heartbeat
  | heartbeatAnswer => HeartbeatAnswer
  | publicKeys => PublicKeys
  | announcement => Announcement
  | nodeStatus => NodeStatus
  | trustStatus => TrustStatus
  | health => Health

/-- Reads a form. -/
def decoder : (f : WireForm) → Json.Decoder f.Carrier
  | offer => Offer.decoder
  | answer => Answer.decoder
  | envelope => Envelope.decoder
  | sealedRun => SealedRun.decoder
  | claimContext => ClaimContext.decoder
  | jobSpec => JobSpec.decoder
  | runResponse => RunResponse.decoder
  | attemptRecord => AttemptRecord.decoder
  | attestationReport => AttestationReport.decoder
  | trustRecord => TrustRecord.decoder
  | trustEvent => TrustEvent.decoder
  | heartbeat => Heartbeat.decoder
  | heartbeatAnswer => HeartbeatAnswer.decoder
  | publicKeys => PublicKeys.decoder
  | announcement => Announcement.decoder
  | nodeStatus => NodeStatus.decoder
  | trustStatus => TrustStatus.decoder
  | health => Health.decoder

/-- Writes a form. -/
def toJson : (f : WireForm) → f.Carrier → Json
  | offer => Offer.toJson
  | answer => Answer.toJson
  | envelope => Envelope.toJson
  | sealedRun => SealedRun.toJson
  | claimContext => ClaimContext.toJson
  | jobSpec => JobSpec.toJson
  | runResponse => RunResponse.toJson
  | attemptRecord => AttemptRecord.toJson
  | attestationReport => AttestationReport.toJson
  | trustRecord => TrustRecord.toJson
  | trustEvent => TrustEvent.toJson
  | heartbeat => Heartbeat.toJson
  | heartbeatAnswer => HeartbeatAnswer.toJson
  | publicKeys => PublicKeys.toJson
  | announcement => Announcement.toJson
  | nodeStatus => NodeStatus.toJson
  | trustStatus => TrustStatus.toJson
  | health => Health.toJson

/-- Reads a text and writes it again. -/
def recode (f : WireForm) (text : Bytes) : Except Json.ReadError Bytes :=
  (f.decoder.ofBytes text).map fun a => (f.toJson a).render

/-- The forms by their names, which for a record are those that messages about it use. -/
def names : List (String × WireForm) :=
  [("HandshakeMessage1", offer), ("HandshakeMessage2", answer), ("SealedEnvelope", envelope),
    ("SealedRun", sealedRun), ("ClaimContext", claimContext), ("JobSpec", jobSpec),
    ("RunResponse", runResponse), ("AttemptRecord", attemptRecord),
    ("AttestationReport", attestationReport), ("NodeTrustRecord", trustRecord),
    ("AttestationEvent", trustEvent), ("HeartbeatRequest", heartbeat),
    ("HeartbeatResponse", heartbeatAnswer), ("PublicKeys", publicKeys),
    ("Announcement", announcement), ("StatusResponse", nodeStatus), ("TrustStatus", trustStatus),
    ("Health", health)]

/-- The form with a name. -/
def ofName? (name : String) : Option WireForm := names.lookup name

end WireForm

end MeshNode
