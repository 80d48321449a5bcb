import MeshNode.Program
import MeshNode.RequestId
import Std.Time

/-!
# What the machine knows

The time, random bytes, and what else a run and a request take from outside.
-/

namespace MeshNode.Machine

/-- Bytes drawn at random. -/
def random (n : Nat) : IO Bytes := return (← IO.getRandomBytes n.toUSize).toList

/-- Milliseconds of Unix time. -/
def wallMillis : IO Int := return (← Std.Time.Timestamp.now).toMillisecondsSinceUnixEpoch.val

/-- What serving a request takes from outside. -/
def occasion : IO Occasion := do
  return {
    wallMillis := ← wallMillis
    nanos := ← IO.monoNanosNow
    requestId := RequestId.ofRandom (← random RequestId.size)
    nonce := ← random Aead.nonceLength }

/-- What the kernel says of itself, in one word. -/
def kernelWord (name : String) : IO String := do
  match ← (IO.FS.readFile ("/proc/sys/kernel/" ++ name)).toBaseIO with
  | .ok text => return Text.trim text
  | .error _ => return "unknown"

/-- What a run takes from outside. -/
def surroundings : IO Surroundings := do
  let key ← IO.getEnv NodeSettings.claimKeyVariable
  return {
    directory := Path.components (← IO.currentDir).toString
    environment := fun name => if name = NodeSettings.claimKeyVariable then key else none
    wallMillis := ← wallMillis
    nanos := ← IO.monoNanosNow
    freshKeys := ⟨"", ← random 32, ← random 32⟩
    platform := ((← kernelWord "ostype").toLower, ← kernelWord "arch") }

end MeshNode.Machine
