import MeshNode.Bytes.Base64
import MeshNode.Crypto.Aead
import MeshNode.Json.Decoder

/-!
# Sealed envelopes

An envelope carries an encrypted payload as JSON: ciphertext and nonce as wire base64, the sender's
clock in milliseconds, which nothing depends on, and optionally a value that is authenticated but
not encrypted. What is authenticated is the compact form of that value, or nothing at all when it
is absent. A null is sealed as an absent value, since the written form leaves it out.

Opening checks the nonce, then the size of the ciphertext against the limit on the payload before
any of it is decoded, then the ciphertext itself, and only then whether it is authentic.
-/

namespace MeshNode

/-- Why a key could not be agreed on, or something not be sealed. -/
inductive CryptoError where
  | hkdfExpandFailed
  | sealFailed
  | encode (text : String)
  | nonContributoryKey
  deriving DecidableEq, Repr

/-- The text of an error. -/
def CryptoError.message : CryptoError → String
  | hkdfExpandFailed => "HKDF expand failed: invalid length"
  | sealFailed => "AEAD encryption failed"
  | encode text => "JSON encoding failed: " ++ text
  | nonContributoryKey =>
    "non-contributory key exchange: peer sent small-subgroup or identity point"

/-- Why a handshake or an envelope was refused. -/
inductive SessionError where
  | authenticationFailed
  | malformed (text : String)
  | unknownSession (id : String)
  | crypto (error : CryptoError)
  deriving DecidableEq, Repr

/-- The text of an error. -/
def SessionError.message : SessionError → String
  | authenticationFailed => "authentication failed: envelope is invalid or tampered"
  | malformed text => "malformed message: " ++ text
  | unknownSession id => "unknown session: " ++ id
  | crypto error => error.message

/-- A key shared by the two ends of a session. -/
structure SessionKey where
  bytes : Bytes
  deriving DecidableEq

/-- A key is never shown. -/
def SessionKey.shown (_ : SessionKey) : String := "SymmetricKey(<redacted>)"

/-- An encrypted payload on the wire. -/
structure Envelope where
  ct : String
  nonce : String
  /-- Milliseconds on the sender's clock. -/
  ts : Int
  aad : Option Json

namespace Envelope

/-- Reads an envelope. -/
def decoder : Json.Decoder Envelope :=
  .record "SealedEnvelope"
    (.cons (.required "ct" .text) <| .cons (.required "nonce" .text) <|
      .cons (.required "ts" .int64) <| .cons (.omissible "aad" .value) .nil)
    fun (ct, nonce, ts, aad, ()) => ⟨ct, nonce, ts, aad⟩

/-- The written form; an absent value is left out. -/
def toJson (e : Envelope) : Json :=
  .obj ([("ct", .str e.ct), ("nonce", .str e.nonce), ("ts", .int e.ts)] ++
    match e.aad with
    | some j => [("aad", j)]
    | none => [])

/-- Reads an envelope from its JSON text. -/
def ofBytes (text : Bytes) : Except SessionError Envelope :=
  match decoder.ofBytes text with
  | .ok e => .ok e
  | .error e => .error (.malformed ("envelope: " ++ e.message))

/-- What is authenticated along with the ciphertext. -/
def aadBytes (aad : Option Json) : Bytes :=
  match aad with
  | some j => j.render
  | none => []

/-- A null stands for no value. -/
def presentAad : Option Json → Option Json
  | some .null => none
  | aad => aad

/-- Seals a payload. -/
def sealed (key : SessionKey) (nonce : Bytes) (now : Int) (plaintext : Bytes) (aad : Option Json) :
    Envelope :=
  let aad := presentAad aad
  ⟨Base64.encode (Aead.encrypt key.bytes nonce (aadBytes aad) plaintext), Base64.encode nonce, now,
    aad⟩

/-- The longest ciphertext text that may hold a payload of the given size. The sum and the product
are words of 64 bits and wrap around. -/
def maxEncoded (maxPayload : Nat) : Nat :=
  ((maxPayload + Aead.tagLength) % UInt64.size + 2) / 3 * 4 % UInt64.size

/-- Opens an envelope whose payload may have at most `maxPayload` bytes. -/
def open? (key : SessionKey) (e : Envelope) (maxPayload : Nat) : Except SessionError Bytes :=
  match Base64.decodeExactly? Aead.nonceLength e.nonce with
  | none => .error (.malformed s!"nonce must be {Aead.nonceLength} base64url bytes")
  | some nonce =>
    if maxEncoded maxPayload < e.ct.utf8ByteSize then
      let most := maxEncoded maxPayload
      .error (.malformed s!"ciphertext too large: {e.ct.utf8ByteSize} encoded bytes (max {most})")
    else
      match Base64.decode e.ct with
      | .error e => .error (.malformed ("ciphertext: " ++ e.message))
      | .ok ciphertext =>
        if ciphertext.length < Aead.tagLength then
          .error (.malformed "ciphertext shorter than tag")
        else
          match Aead.decrypt key.bytes nonce (aadBytes e.aad) ciphertext with
          | some plaintext => .ok plaintext
          | none => .error .authenticationFailed

end Envelope

end MeshNode
