import MeshNode.Bytes.Hex
import MeshNode.Crypto.Hmac
import MeshNode.Envelope
import MeshNode.Keys

/-!
# Handshake

Two ends agree on a session key in one round. The initiator draws a fresh key pair and sends its
public half (`Offer`); the responder combines it with its long-term key and acknowledges
(`Answer`). Both derive the key from the same shared secret, and both name the session by a digest
of the initiator's public half. A peer whose point makes the shared secret zero is refused.
-/

namespace MeshNode

/-- The first message: the initiator's public value and clock. -/
structure Offer where
  ephPub : String
  ts : Int
  deriving DecidableEq, Repr

/-- The reply: the acknowledgement, the responder's clock and the name of the session. -/
structure Answer where
  ack : Bool
  ts : Int
  sessionId : String
  deriving DecidableEq, Repr

/-- Reads a first message. -/
def Offer.decoder : Json.Decoder Offer :=
  .record "HandshakeMessage1"
    (.cons (.required "eph_pub" .text) <| .cons (.required "ts" .int64) .nil)
    fun (ephPub, ts, ()) => ⟨ephPub, ts⟩

/-- The written form. -/
def Offer.toJson (m : Offer) : Json := .obj [("eph_pub", .str m.ephPub), ("ts", .int m.ts)]

/-- Reads a reply. -/
def Answer.decoder : Json.Decoder Answer :=
  .record "HandshakeMessage2"
    (.cons (.required "ack" .bool) <| .cons (.required "ts" .int64) <|
      .cons (.required "session_id" .text) .nil)
    fun (ack, ts, sessionId, ()) => ⟨ack, ts, sessionId⟩

/-- The written form. -/
def Answer.toJson (m : Answer) : Json :=
  .obj [("ack", .bool m.ack), ("ts", .int m.ts), ("session_id", .str m.sessionId)]

namespace Handshake

/-- The label that binds derived keys to this protocol. -/
def label : String := "offgrid-noise-v1"

/-- The length of the name of a session. -/
def sessionIdLength : Nat := 32

/-- The name of the session that a public value starts. -/
def sessionId (ephPublic : Bytes) : String :=
  String.ofList ((Sha256.hash ephPublic).hexDigits.take sessionIdLength)

/-- The session key of our secret and their public value. -/
def deriveKey (secret theirPublic : Bytes) : Except CryptoError SessionKey :=
  let shared := X25519.multiply secret theirPublic
  if shared.all (· = 0) then .error .nonContributoryKey
  else .ok ⟨Hkdf.derive shared (.ofText label)⟩

/-- An error of the derivation as an error of the handshake. -/
def keyError : CryptoError → SessionError
  | .nonContributoryKey => .malformed "peer key is a low-order point"
  | e => .crypto e

/-- Starts a session with a peer, given a fresh secret: the message to send, the key and the name of
the session. -/
def initiate (ephSecret peerPublic : Bytes) (now : Int) :
    Except SessionError (Offer × SessionKey × String) :=
  let ephPublic := X25519.publicKey ephSecret
  ((deriveKey ephSecret peerPublic).mapError keyError).map fun key =>
    (⟨Base64.encode ephPublic, now⟩, key, sessionId ephPublic)

/-- Answers a first message with the long-term secret: the reply and the key. -/
def respond (secret : Bytes) (offer : Offer) (now : Int) :
    Except SessionError (Answer × SessionKey) :=
  match Base64.decodeExactly? 32 offer.ephPub with
  | none => .error (.malformed "eph_pub must be 32 base64url bytes")
  | some ephPublic =>
    ((deriveKey secret ephPublic).mapError keyError).map fun key =>
      (⟨true, now, sessionId ephPublic⟩, key)

end Handshake

end MeshNode
