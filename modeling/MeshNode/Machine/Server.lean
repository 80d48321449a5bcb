import MeshNode.Machine.Disk
import MeshNode.Machine.Heartbeats
import Std.Http

/-!
# Serving

A service answers requests one after the other, each with a view of the disk as it is then, and what
it changes is on the disk before the answer is sent. Requests that only read see no files.
-/

namespace MeshNode.Machine

open Std.Async (Async)

/-- A service at work. -/
structure Desk where
  /-- Where the files of the service are. -/
  footprint : Footprint
  state : Std.Mutex Service

namespace Desk

/-- The files beside a ledger, which are kept nowhere. -/
def besideLedger : Service → List Location
  | .node n =>
    match n.workspace.ledger.file with
    | some f => [LedgerFile.indexOf f.location, LedgerFile.logOf f.location]
    | none => []
  | .orchestrator _ => []

/-- Files in the jail are written where they are. -/
def inJail : Service → Location → Bool
  | .node n, l => n.runner.jail.root.isPrefixOf l
  | .orchestrator _, _ => false

/-- Has a service do something with the files. -/
def onDisk {α : Type} (footprint : Footprint) (s : Service) (act : Service → α × Service) :
    IO (α × Service) := do
  let before ← Disk.view footprint
  let (answer, s) := act (s.withFiles before)
  Disk.update before s.files (besideLedger s) (inJail s)
  return (answer, s)

/-- The answer when the disk has failed. -/
def failed (e : IO.Error) : Http.Response :=
  let error := ApiError.internal (Disk.fileError e).message
  .ofJson error.status error.body

/-- Answers a request. -/
def answer (d : Desk) (r : Http.Request) : IO Http.Response := do
  let o ← occasion
  d.state.atomically do
    let s ← get
    if r.method = "POST" then
      match ← (onDisk d.footprint s (Service.serve r o)).toBaseIO with
      | .ok (answer, s) =>
        set s
        return answer
      | .error e => return failed e
    else
      let (answer, s) := s.serve r o
      set s
      return answer

/-- Drops idle sessions, without end. -/
def prune (d : Desk) : Async Unit := do
  repeat
    Std.Async.sleep (millis 60000)
    let nanos ← IO.monoNanosNow
    d.state.atomically (modify (Service.prune nanos))

/-- Closes the service. -/
def close (d : Desk) : IO Unit := do
  d.state.atomically do
    let s ← get
    discard <| onDisk d.footprint s fun s => ((), s.withFiles s.close)

end Desk

/-- Collects a body as far as it may be read, and one byte more. -/
def collect (body : Std.Http.Body.Stream) : Std.Async.ContextAsync Bytes := do
  let mut b := ByteArray.empty
  for chunk in body do
    b := b ++ chunk.data
    if Http.Request.maxBody < b.size then break
  return (b.extract 0 (Http.Request.maxBody + 1)).toList

/-- A request as the service sees it. -/
def receive (r : Std.Http.Request Std.Http.Body.Stream) : Std.Async.ContextAsync Http.Request := do
  let header (name : Std.Http.Header.Name) : Option String :=
    (r.line.headers.get? name).map (·.value)
  return {
    method := toString r.line.method
    target := toString r.line.uri
    contentType := header .contentType
    contentLength := (header .contentLength).bind String.toNat?
    body := ← collect r.body }

/-- An answer as it is sent. -/
def send (r : Http.Response) : Async (Std.Http.Response Std.Http.Body.Any) := do
  let (kind, b) : String × Bytes := match r.content with
    | .json value => ("application/json", value.render)
    | .text s => ("text/plain; charset=utf-8", .ofText s)
  let builder := Std.Http.Response.Builder.new.status
    ((Std.Http.Status.ofCode none (.ofNat r.status)).getD .internalServerError)
  let builder := if b = [] then builder else builder.header! "content-type" kind
  let response ← builder.fromBytes ⟨b.toArray⟩
  return { response with body := .ofBody response.body }

/-- How the server takes requests: a body may be as long as the service allows. -/
def serverConfig : Std.Http.Config := { maxBodySize := 0x10000000000, serverName := none }

/-- Why an address cannot be listened on. -/
def listenError : IO.Error → FileError
  | .resourceBusy .. => .other "Address already in use (os error 98)"
  | e => Disk.fileError e

/-- Serves at an address until the program is interrupted. Errors before that are those of
listening. -/
def serve (address : SocketAddress) (d : Desk) (heartbeats : Option HeartbeatPlan) :
    IO (Except FileError Unit) := do
  let handler := Std.Http.Server.Handler.ofFn fun r => do
    let r ← receive r
    let answer ← d.answer r
    send answer
  let start := Std.Http.Server.serve (socketAddress address.host address.port) handler serverConfig
  match ← start.block.toBaseIO with
  | .error e => return .error (listenError e)
  | .ok server =>
    let interrupt ← Std.Async.Signal.Waiter.mk .sigint false
    Async.block do
      Std.Async.background d.prune
      match heartbeats with
      | some plan => Std.Async.background (sendHeartbeats plan)
      | none => pure ()
    let _ ← (← interrupt.wait).block
    server.shutdownAndWait.block
    d.close
    return .ok ()

end MeshNode.Machine
