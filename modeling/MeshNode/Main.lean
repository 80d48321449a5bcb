import MeshNode.Machine.Server

/-!
# The program

Reads the arguments, gives the run a view of the disk and puts on the disk what the run has changed.
A service that is ready then serves until it is interrupted.
-/

namespace MeshNode

/-- Prints what a run has to say and answers with its status. -/
def Exit.report (e : Exit) : IO UInt32 := do
  (← IO.getStdout).putStr e.output
  (← IO.getStderr).putStr e.errors
  return .ofNat e.status

/-- The address that a service was made ready for. -/
def Program.listen (footprint : Footprint) (address : String) (service : Service)
    (heartbeats : Option HeartbeatPlan) : IO Exit := do
  let desk : Machine.Desk := ⟨footprint, ← Std.Mutex.new service⟩
  match SocketAddress.ofText? address with
  | none => return notListening address .invalidInput
  | some socket =>
    match ← Machine.serve socket desk heartbeats with
    | .ok () => return .printed ""
    | .error e =>
      desk.close
      return notListening address e

/-- Runs the program from its arguments to its end. -/
def Program.run (args : List String) : IO Exit := do
  let w ← Machine.surroundings
  let known ← Disk.view (Footprint.ofArguments args w .empty)
  let footprint := Footprint.ofArguments args w known
  let before ← Disk.view footprint
  let (start, after) := Program.start args w before
  match start with
  | .finished exit =>
    Disk.update before after [] fun _ => false
    return exit
  | .ready address service heartbeats =>
    Disk.update before after (Machine.Desk.besideLedger service) fun _ => false
    listen footprint address service heartbeats

end MeshNode

/-- The program. -/
def main (args : List String) : IO UInt32 := do
  match ← (MeshNode.Program.run args).toBaseIO with
  | .ok exit => exit.report
  | .error e =>
    (MeshNode.Exit.failed ⟨"using the disk", [(MeshNode.Disk.fileError e).message]⟩).report
