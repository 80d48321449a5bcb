import MeshNode.Bytes.Base64
import MeshNode.Bytes.Hex
import MeshNode.Crypto.Ed25519
import MeshNode.Crypto.X25519
import MeshNode.Json.Decoder

/-!
# Node keys

A node has two long-term keys: an Ed25519 key with which it signs, and an X25519 key with which
sessions are agreed on. Both public halves are functions of the secrets. `PublicKeys` is what the
node shows of them.
-/

namespace MeshNode

/-- The public halves of a node's keys, as wire base64. -/
structure PublicKeys where
  nodeId : String
  signPub : String
  kxPub : String
  deriving DecidableEq, Repr

namespace PublicKeys

/-- Reads the public halves. -/
def decoder : Json.Decoder PublicKeys :=
  .record "PublicKeys"
    (.cons (.required "node_id" .text) <| .cons (.required "sign_pub" .text) <|
      .cons (.required "kx_pub" .text) .nil)
    fun (nodeId, signPub, kxPub, ()) => ⟨nodeId, signPub, kxPub⟩

/-- The written form. -/
def toJson (k : PublicKeys) : Json :=
  .obj [("node_id", .str k.nodeId), ("sign_pub", .str k.signPub), ("kx_pub", .str k.kxPub)]

end PublicKeys

/-- The long-term keys of a node. -/
structure NodeKeys where
  nodeId : String
  /-- The Ed25519 seed. -/
  signSecret : Bytes
  /-- The X25519 secret. -/
  kxSecret : Bytes
  deriving DecidableEq

namespace NodeKeys

/-- The Ed25519 public key. -/
def signPublic (k : NodeKeys) : Bytes := Ed25519.publicKey k.signSecret

/-- The X25519 public key. -/
def kxPublic (k : NodeKeys) : Bytes := X25519.publicKey k.kxSecret

/-- What the node shows of its keys. -/
def publicKeys (k : NodeKeys) : PublicKeys :=
  ⟨k.nodeId, Base64.encode k.signPublic, Base64.encode k.kxPublic⟩

/-- The signature of a message as wire base64. -/
def sign (k : NodeKeys) (message : Bytes) : String :=
  Base64.encode (Ed25519.sign k.signSecret message)

end NodeKeys

end MeshNode
