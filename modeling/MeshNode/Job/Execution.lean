import MeshNode.Bytes.Base64
import MeshNode.Digest
import MeshNode.Glob
import MeshNode.Job.Outcome
import MeshNode.Json.Decoder

/-!
# Carrying out jobs

A write puts decoded content into a file in the jail and makes the directories on the way. A list
names what is below a directory, through directories and not through links, and can be narrowed to
entries of which the path or the name matches a pattern; it fails if one of the directories cannot
be read. A probe answers with what it was sent, after a delay if one is asked for.

A job that is not done when its time is up counts as timed out. Only a probe takes time.
-/

namespace MeshNode

namespace Job

/-- What a write is asked to do. -/
structure WriteArgs where
  path : String
  content : String

/-- What a list is asked to do. -/
structure ListArgs where
  root : String
  patterns : List String
  recursive : Bool

/-- What a probe is asked to do. -/
structure ProbeArgs where
  echo : Option Json
  delayMillis : Option Nat

/-- Reads the arguments of a write. -/
def WriteArgs.decoder : Json.Decoder WriteArgs :=
  .record "WriteArgs"
    (.cons (.required "path" .text) <| .cons (.required "content_b64" .text) .nil)
    fun (path, content, ()) => ⟨path, content⟩

/-- Reads the arguments of a list. -/
def ListArgs.decoder : Json.Decoder ListArgs :=
  .record "ListArgs"
    (.cons (.withDefault "root" .text ".") <| .cons (.withDefault "patterns" (.list .text) []) <|
      .cons (.withDefault "recursive" .bool false) .nil)
    fun (root, patterns, recursive, ()) => ⟨root, patterns, recursive⟩

/-- Reads the arguments of a probe. -/
def ProbeArgs.decoder : Json.Decoder ProbeArgs :=
  .record "ProbeArgs"
    (.cons (.omissible "echo" .value) <| .cons (.omissible "delay_ms" .word64) .nil)
    fun (echo, delayMillis, ()) => ⟨echo, delayMillis⟩

/-- Reads the arguments of a job; null stands for none. -/
def readArgs {α : Type} (kind : JobKind) (d : Json.Decoder α) (args : Json) :
    Except SandboxError α :=
  let args := match args with
    | .null => .obj []
    | args => args
  match d.convert args with
  | .ok a => .ok a
  | .error text => .error (.invalidArgs s!"{kind.name}: {text}")

/-- Writes a file. -/
def write (jail : Jail) (args : WriteArgs) : Files SandboxError Json := do
  match Base64.Dialect.file.decode (.ofText (Text.trim args.content)) with
  | .error e => throw (.invalidArgs ("content_b64: " ++ e.message))
  | .ok content =>
    let l ← Files.inspect fun t => jail.resolve t args.path
    if l = jail.root then throw (.invalidArgs "path must name a file")
    Files.mapError .file do
      Files.makeDirs l.dropLast
      Files.writeBytes l content
    return .obj [("bytes_written", .nat content.length), ("path", .str (jail.shown l)),
      ("sha256", .str (Digest.ofContent content))]

/-- The pattern that a text stands for. -/
def readPattern (text : String) : Except SandboxError (List Glob.Token) :=
  match Glob.ofText text with
  | .ok pattern => .ok pattern
  | .error e => .error (.invalidArgs s!"pattern {Text.quote text}: {e.message}")

/-- Whether one of some patterns matches the path of an entry or its name. Without patterns every
entry is wanted. -/
def wanted (patterns : List (List Glob.Token)) (path : String) (l : Location) : Bool :=
  patterns.isEmpty ||
    patterns.any fun p => Glob.matches? p path || Glob.matches? p (l.getLast?.getD "")

/-- The paths of the wanted entries of a directory, or of all that is below it, in increasing
order. No chain of directories is longer than the longest location. -/
def entries (t : FileTree) (dir : Path) (recursive : Bool)
    (patterns : List (List Glob.Token)) : Except FileError (List String) := do
  let found ← t.pathsWithin (if recursive then t.depth + 1 else 1) dir
  return NameSet.ofList <| found.filterMap fun l =>
    let path := Path.textBelow dir l
    if wanted patterns path l then some path else none

/-- Lists a directory. -/
def list (jail : Jail) (t : FileTree) (args : ListArgs) : Except SandboxError Json := do
  let patterns ← args.patterns.mapM readPattern
  let dir ← jail.resolve t args.root
  if (t.stat false dir).toOption.bind (·.entry) ≠ some .dir then
    throw (.notADirectory args.root)
  let found ← (entries t dir args.recursive patterns).mapError .file
  return .obj [("count", .nat found.length), ("entries", .arr (found.map .str)),
    ("root", .str (jail.shown dir))]

/-- Answers a probe. -/
def pong (args : ProbeArgs) (nowMillis : Int) : Json :=
  .obj [("echo", args.echo.getD .null), ("node_ts", .int nowMillis), ("pong", .bool true)]

/-- The outcome of an activity on the files. -/
def outcome (a : Files SandboxError Json) (t : FileTree) : JobOutcome × FileTree :=
  match a.run t with
  | (.ok value, t) => (.completed value, t)
  | (.error e, t) => (.ofError e, t)

/-- Carries out a job of a known kind. -/
def executeKind (jail : Jail) (kind : JobKind) (args : Json) (timeoutMillis : Nat)
    (nowMillis : Int) (t : FileTree) : JobOutcome × FileTree :=
  match kind with
  | .probe =>
    match readArgs kind ProbeArgs.decoder args with
    | .error e => (.ofError e, t)
    | .ok args =>
      if timeoutMillis < args.delayMillis.getD 0 then (.timedOut (timeoutMillis * 1000), t)
      else (.completed (pong args nowMillis), t)
  | .write =>
    match readArgs kind WriteArgs.decoder args with
    | .error e => (.ofError e, t)
    | .ok args => outcome (write jail args) t
  | .list =>
    match readArgs kind ListArgs.decoder args with
    | .error e => (.ofError e, t)
    | .ok args => outcome (Files.inspect fun t => list jail t args) t

/-- Carries out a job. Every failure is an outcome. -/
def execute (jail : Jail) (kind : String) (args : Json) (timeoutMillis : Nat) (nowMillis : Int)
    (t : FileTree) : JobOutcome × FileTree :=
  match JobKind.ofName kind with
  | .ok kind => executeKind jail kind args timeoutMillis nowMillis t
  | .error e => (.ofError e, t)

end Job

end MeshNode
