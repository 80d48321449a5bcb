import MeshNode.Json.Decoder

/-!
# The status of a node

What a node answers when it is asked how it is.
-/

namespace MeshNode

/-- The status of a node. -/
structure NodeStatus where
  nodeId : String
  status : String
  uptimeSecs : Nat
  version : String
  activeSessions : Nat
  deriving DecidableEq, Repr

namespace NodeStatus

/-- The version that a node shows. -/
def currentVersion : String := "0.1.0"

/-- Reads a status. -/
def decoder : Json.Decoder NodeStatus :=
  .record "StatusResponse"
    (.cons (.required "node_id" .text) <| .cons (.required "status" .text) <|
      .cons (.required "uptime_secs" .word64) <| .cons (.required "version" .text) <|
      .cons (.required "active_sessions" .size) .nil)
    fun (nodeId, status, uptimeSecs, version, activeSessions, ()) =>
      ⟨nodeId, status, uptimeSecs, version, activeSessions⟩

/-- The written form. -/
def toJson (s : NodeStatus) : Json :=
  .obj [("node_id", .str s.nodeId), ("status", .str s.status), ("uptime_secs", .nat s.uptimeSecs),
    ("version", .str s.version), ("active_sessions", .nat s.activeSessions)]

end NodeStatus

end MeshNode
