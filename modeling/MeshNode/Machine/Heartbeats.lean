import MeshNode.Heartbeat.Delivery
import MeshNode.Http.Exchange
import MeshNode.Machine.Surroundings
import Std.Async

/-!
# Sending heartbeats

A node posts heartbeats over connections of its own, one for each, as long as it runs. A delivery
that fails is tried again as the policy of the plan has it.
-/

namespace MeshNode.Machine

open Std.Async (Async)

/-- How long an exchange may take, in milliseconds. -/
def exchangeMillis : Nat := 10000

/-- Milliseconds as the machine counts them. -/
def millis (n : Nat) : Std.Time.Millisecond.Offset := .ofInt n

/-- An address of the fourth version on this machine's side. -/
def ipv4 (octets : List Nat) : Std.Net.IPv4Addr :=
  let octet (i : Nat) : UInt8 := .ofNat (octets.getD i 0)
  .ofParts (octet 0) (octet 1) (octet 2) (octet 3)

/-- An address of the sixth version on this machine's side. -/
def ipv6 (groups : List Nat) : Std.Net.IPv6Addr :=
  let group (i : Nat) : UInt16 := .ofNat (groups.getD i 0)
  .ofParts (group 0) (group 1) (group 2) (group 3) (group 4) (group 5) (group 6) (group 7)

/-- The address of a socket on this machine's side. -/
def socketAddress : HostAddress → Nat → Std.Net.SocketAddress
  | .v4 octets, port => .v4 ⟨ipv4 octets, .ofNat port⟩
  | .v6 groups _, port => .v6 ⟨ipv6 groups, .ofNat port⟩

/-- The addresses that a host has. -/
def addresses (host : Http.Host) (port : Nat) : Async (List Std.Net.SocketAddress) := do
  match host with
  | .address a => return [socketAddress a port]
  | .name name =>
    let found ← Std.Async.DNS.getAddrInfo name (toString port)
    return found.toList.map fun
      | .v4 a => .v4 ⟨a, .ofNat port⟩
      | .v6 a => .v6 ⟨a, .ofNat port⟩

/-- Sends bytes to an address and collects what comes back until the connection ends. -/
def converse (address : Std.Net.SocketAddress) (request : Bytes) : Async Bytes := do
  let client ← Std.Async.TCP.Socket.Client.mk
  client.connect address
  client.send ⟨request.toArray⟩
  let mut answer := ByteArray.empty
  repeat
    match ← client.recv? 65536 with
    | some part => answer := answer ++ part
    | none => break
  return answer.toList

/-- Posts a body; nothing when there is no answer that can be read in time. Connections are not
encrypted. -/
def post (url : Http.Url) (body : Bytes) : Async (Option (Nat × Bytes)) := do
  if url.secure then return none
  let exchange : Async (Option (Nat × Bytes)) := do
    match (← addresses url.host url.port).head? with
    | none => return none
    | some address => return Http.readAnswer? (← converse address (Http.posting url body))
  let patience : Async (Option (Nat × Bytes)) := do
    Std.Async.sleep (millis exchangeMillis)
    return none
  try Async.race exchange patience catch _ => return none

/-- Posts a heartbeat once. -/
def deliver (plan : HeartbeatPlan) : Async (Except DeliveryError HeartbeatAnswer) := do
  let beat := Heartbeat.online plan.hostId plan.report (← wallMillis)
  match Http.Url.ofText? (Heartbeat.endpoint plan.orchestrator) with
  | none => return .error .badAddress
  | some url =>
    match ← post url beat.toJson.render with
    | none => return .error .unreachable
    | some (status, body) => return Heartbeat.interpret status body

/-- A random factor between a half and one. -/
def jitter : IO Float :=
  return RetryPolicy.leastFactor + Float.ofNat (Bytes.toNatLE (← random 4)) / 0x200000000

/-- Posts a heartbeat, again after a delay as long as it fails and retries are left. -/
def deliverPersistently (plan : HeartbeatPlan) : (retries number : Nat) → Async Unit
  | retries, number => do
    match ← deliver plan, retries with
    | .error _, retries + 1 =>
      match plan.policy.delay? number (← jitter) with
      | some nanos =>
        Std.Async.sleep (millis (nanos / 1000000))
        deliverPersistently plan retries (number + 1)
      | none => return
    | _, _ => return

/-- Posts heartbeats without end. -/
def sendHeartbeats (plan : HeartbeatPlan) : Async Unit := do
  repeat
    deliverPersistently plan plan.policy.maxRetries 0
    Std.Async.sleep (millis (plan.intervalSecs * 1000))

end MeshNode.Machine
