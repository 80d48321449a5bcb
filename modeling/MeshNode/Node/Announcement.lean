import MeshNode.Digest
import MeshNode.Keys

/-!
# Announcements

A node announces its build, its capabilities and its address, and signs what it announces. The
signature covers every field but itself: it is made over the compact form of the other fields in
increasing order of their names, which determines each of them.
-/

namespace MeshNode

/-- What a node announces of itself. -/
structure Announcement where
  nodeId : String
  buildId : String
  capabilities : List String
  capabilityHash : String
  addr : String
  /-- Milliseconds on the node's clock. -/
  time : Int
  /-- Wire base64; empty while unsigned. -/
  signature : String
  deriving DecidableEq, Repr

namespace Announcement

/-- Reads an announcement. -/
def decoder : Json.Decoder Announcement :=
  .record "Announcement"
    (.cons (.required "node_id" .text) <| .cons (.required "build_id" .text) <|
      .cons (.required "capabilities" (.list .text)) <|
      .cons (.required "capability_hash" .text) <| .cons (.required "addr" .text) <|
      .cons (.required "ts" .int64) <| .cons (.withDefault "signature" .text "") .nil)
    fun (nodeId, buildId, capabilities, capabilityHash, addr, time, signature, ()) =>
      ⟨nodeId, buildId, capabilities, capabilityHash, addr, time, signature⟩

/-- The written form. -/
def toJson (a : Announcement) : Json :=
  .obj [("node_id", .str a.nodeId), ("build_id", .str a.buildId),
    ("capabilities", .arr (a.capabilities.map .str)), ("capability_hash", .str a.capabilityHash),
    ("addr", .str a.addr), ("ts", .int a.time), ("signature", .str a.signature)]

/-- The fields that are signed, in increasing order of their names. -/
def signedFields (a : Announcement) : Json :=
  .obj [("addr", .str a.addr), ("build_id", .str a.buildId),
    ("capabilities", .arr (a.capabilities.map .str)), ("capability_hash", .str a.capabilityHash),
    ("node_id", .str a.nodeId), ("ts", .int a.time)]

/-- The bytes that are signed. -/
def signingBytes (a : Announcement) : Bytes := a.signedFields.render

/-- The announcement with the signature of its node. -/
def signed (a : Announcement) (keys : NodeKeys) : Announcement :=
  { a with signature := keys.sign a.signingBytes }

/-- What a node announces at a time: its capabilities are trimmed, sorted, and listed once. -/
def ofNode (keys : NodeKeys) (buildId : String) (capabilities : List String) (addr : String)
    (now : Int) : Announcement :=
  let capabilities := Digest.capabilities capabilities
  signed ⟨keys.nodeId, buildId, capabilities, Digest.ofCapabilities capabilities, addr, now, ""⟩
    keys

end Announcement

end MeshNode
