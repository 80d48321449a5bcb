import MeshNode.Handshake

/-!
# Channels

A channel is one end of an established session: the key, the name of the session, which end it is,
and how long a payload it accepts.
-/

namespace MeshNode

/-- How sessions are kept. -/
structure SessionConfig where
  /-- The longest payload that is accepted, in bytes. -/
  maxPayload : Nat
  /-- How many sessions a node keeps. -/
  maxSessions : Nat
  /-- After how many nanoseconds without use a session is dropped. -/
  idleNanos : Nat
  deriving DecidableEq, Repr

namespace SessionConfig

/-- The longest payload accepted by default. -/
def defaultMaxPayload : Nat := 32 * 1024 * 1024

/-- 32 MiB of payload, 1024 sessions, one hour without use. -/
def default : SessionConfig := ⟨defaultMaxPayload, 1024, 3600 * 1000000000⟩

/-- Every bound must be positive; otherwise the text says which is not. -/
def check (c : SessionConfig) : Except String SessionConfig :=
  if c.maxPayload = 0 then .error "max_payload_size must be > 0"
  else if c.maxSessions = 0 then .error "max_sessions must be > 0"
  else if c.idleNanos = 0 then .error "session_idle_timeout must be > 0"
  else .ok c

end SessionConfig

/-- Which end of a session a channel is. -/
inductive Role where
  | initiator
  | responder
  deriving DecidableEq, Repr

/-- The name of a role. -/
def Role.name : Role → String
  | initiator => "Initiator"
  | responder => "Responder"

/-- One end of an established session. -/
structure Channel where
  key : SessionKey
  sessionId : String
  role : Role
  maxPayload : Nat

namespace Channel

/-- Starts a session with a peer, given a fresh secret. -/
def initiate (ephSecret peerPublic : Bytes) (now : Int) (config : SessionConfig) :
    Except SessionError (Channel × Offer) :=
  (Handshake.initiate ephSecret peerPublic now).map fun (offer, key, id) =>
    (⟨key, id, .initiator, config.maxPayload⟩, offer)

/-- Answers a first message. -/
def respond (keys : NodeKeys) (offer : Offer) (now : Int) (config : SessionConfig) :
    Except SessionError (Channel × Answer) :=
  (Handshake.respond keys.kxSecret offer now).map fun (answer, key) =>
    (⟨key, answer.sessionId, .responder, config.maxPayload⟩, answer)

/-- Checks a reply against the session that was started. -/
def confirm (c : Channel) (answer : Answer) : Except SessionError Unit :=
  if !answer.ack then .error (.malformed "handshake not acknowledged")
  else if answer.sessionId ≠ c.sessionId then
    .error (.malformed s!"session id mismatch: expected {c.sessionId}, got {answer.sessionId}")
  else .ok ()

/-- Seals a payload for the other end. -/
def sealed (c : Channel) (nonce : Bytes) (now : Int) (plaintext : Bytes) (aad : Option Json) :
    Envelope :=
  Envelope.sealed c.key nonce now plaintext aad

/-- Opens an envelope from the other end. -/
def open? (c : Channel) (e : Envelope) : Except SessionError Bytes := e.open? c.key c.maxPayload

/-- Opens an envelope and reads its payload as JSON. -/
def openAs {α : Type} (c : Channel) (d : Json.Decoder α) (e : Envelope) : Except SessionError α :=
  match c.open? e with
  | .error e => .error e
  | .ok plaintext =>
    match d.ofBytes plaintext with
    | .ok a => .ok a
    | .error e => .error (.malformed ("payload: " ++ e.message))

/-- How a channel shows itself: without its key. -/
def shown (c : Channel) : String :=
  s!"SessionChannel \x7b session_id: {Text.quote c.sessionId}, role: {c.role.name}, .. \x7d"

end Channel

end MeshNode
