import MeshNode.Api.Reply
import MeshNode.Channel.Table
import MeshNode.Job.Runner
import MeshNode.Node.Announcement
import MeshNode.Node.Status

/-!
# The interface of a node

A node tells its status, its announcement and its public keys, agrees on sessions, and runs jobs. A
job request comes plain, or sealed in an envelope of a session; then the answer is sealed too, with
the session and the request as its associated data. A request counts as sealed when it names both a
session and an envelope.
-/

namespace MeshNode

/-- What a node announces of itself besides its keys. -/
structure NodeInfo where
  buildId : String
  capabilities : List String
  address : String
  deriving DecidableEq, Repr

/-- A node at work. -/
structure Node where
  keys : NodeKeys
  info : NodeInfo
  runner : JobRunner
  workspace : Workspace
  sessions : SessionTable
  /-- The longest body that a request may have, in bytes. -/
  maxBody : Nat
  /-- When the node was started, in nanoseconds on the clock of the session table. -/
  started : Nat

/-- What serving a request takes from outside: the time, and what is drawn at random. -/
structure Occasion where
  /-- Milliseconds of Unix time. -/
  wallMillis : Int
  /-- Nanoseconds on the clock of the session table. -/
  nanos : Nat
  requestId : String
  nonce : Bytes

namespace Occasion

/-- Seconds of Unix time. -/
def wallSecs (o : Occasion) : Int := o.wallMillis.fdiv 1000

end Occasion

/-- The answer inside the sealed form, for the client at the other end of the session. -/
def Channel.openAnswer (c : Channel) (r : SealedRun) : Except SessionError RunResponse :=
  c.openAs RunResponse.decoder r.envelope

namespace Node

/-- The status of a node. -/
def status (n : Node) (o : Occasion) : NodeStatus where
  nodeId := n.keys.nodeId
  status := "online"
  uptimeSecs := (o.nanos - n.started) / 1000000000
  version := NodeStatus.currentVersion
  activeSessions := n.sessions.size

/-- The announcement of a node. -/
def announcement (n : Node) (o : Occasion) : Announcement :=
  .ofNode n.keys n.info.buildId n.info.capabilities n.info.address o.wallMillis

/-- Agrees on a session. -/
def shakeHands (n : Node) (offer : Offer) (o : Occasion) : Except ApiError Answer × Node :=
  match Channel.respond n.keys offer o.wallMillis n.sessions.config with
  | .error e => (.error (.ofSession e), n)
  | .ok (channel, answer) => (.ok answer, { n with sessions := n.sessions.insert channel o.nanos })

/-- Runs the job of a request. -/
def runJob (n : Node) (request : Json) (o : Occasion) : Except ApiError RunResponse × Node :=
  match JobSpec.ofRequest request with
  | .error e => (.error (.ofError (.request e)), n)
  | .ok spec =>
    let (answer, workspace) :=
      n.runner.run ⟨o.requestId, spec, o.wallSecs, o.wallMillis⟩ n.workspace
    (answer.mapError .ofError, { n with workspace })

/-- Runs the job of a sealed request and seals the answer. -/
def runSealed (n : Node) (r : SealedRun) (o : Occasion) : Except ApiError SealedRun × Node :=
  match n.sessions.get r.sessionId o.nanos with
  | (.error e, sessions) => (.error (.ofSession e), { n with sessions })
  | (.ok channel, sessions) =>
    let n := { n with sessions }
    match channel.openAs Json.Decoder.value r.envelope with
    | .error e => (.error (.ofSession e), n)
    | .ok request =>
      match n.runJob request o with
      | (.error e, n) => (.error e, n)
      | (.ok answer, n) =>
        let aad : Json :=
          .obj [("request_id", .str answer.requestId), ("session_id", .str r.sessionId)]
        let envelope := channel.sealed o.nonce o.wallMillis answer.toJson.render (some aad)
        (.ok ⟨r.sessionId, envelope⟩, n)

/-- A body names both a session and an envelope. -/
def isSealed (body : Json) : Bool :=
  (body.get? "session_id").isSome && (body.get? "envelope").isSome

/-- Answers a job request, plain or sealed. -/
def run (n : Node) (body : Json) (o : Occasion) : Except ApiError Json × Node :=
  if isSealed body then
    match SealedRun.decoder.convert body with
    | .error text => (.error (.badRequest text), n)
    | .ok r =>
      let (answer, n) := n.runSealed r o
      (answer.map fun a => a.toJson.sorted, n)
  else
    let (answer, n) := n.runJob body o
    (answer.map fun a => a.toJson.sorted, n)

/-- Serves a request. -/
def serve (n : Node) (r : Http.Request) (o : Occasion) : Http.Response × Node :=
  let shown (j : Json) : Http.Response × Node := Api.whenRead r n (.ofJson 200 j, n)
  if r.AnnouncesTooMuch n.maxBody then (.announcedTooLong, n)
  else
    match Http.segments r.target with
    | ["status"] => shown (n.status o).toJson
    | ["announce"] => shown (n.announcement o).toJson
    | ["pubkeys"] => shown n.keys.publicKeys.toJson
    | ["hs"] =>
      Api.whenPosted r n <| Api.onBody r n.maxBody Offer.decoder n fun offer =>
        let (answer, n) := n.shakeHands offer o
        (answer.map Answer.toJson, n)
    | ["run"] =>
      Api.whenPosted r n <| Api.onBody r n.maxBody .value n fun body => n.run body o
    | _ => (.notFound, n)

end Node

end MeshNode
