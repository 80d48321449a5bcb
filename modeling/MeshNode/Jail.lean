import MeshNode.Files.Operations

/-!
# Jails

A jail is a directory that jobs may not leave. A job names a file by a path relative to it. The dots
of that path are folded first, without a look at the files, so that a path which climbs above the
jail is refused whatever there is. Then the longest part of the path that exists is followed to its
real location, links and all, and what is missing is put behind it; the result must lie in the jail.
A link in the last place is refused even when it stays inside.
-/

namespace MeshNode

/-- Why a job could not be carried out. -/
inductive SandboxError where
  | pathEscape (path : String)
  | linkRejected (path : String)
  | notADirectory (path : String)
  | invalidArgs (text : String)
  | unknownKind (kind : String)
  | file (error : FileError)
  deriving DecidableEq, Repr

namespace SandboxError

/-- The code of an error in answers. -/
def code : SandboxError → String
  | pathEscape _ => "PATH_ESCAPE"
  | linkRejected _ => "SYMLINK_REJECTED"
  | notADirectory _ => "NOT_A_DIRECTORY"
  | invalidArgs _ => "INVALID_ARGS"
  | unknownKind _ => "UNKNOWN_KIND"
  | file _ => "IO_ERROR"

/-- The text of an error. -/
def message : SandboxError → String
  | pathEscape path => "path escapes jail root: " ++ path
  | linkRejected path => "symbolic link rejected: " ++ path
  | notADirectory path => "not a directory: " ++ path
  | invalidArgs text => "invalid arguments: " ++ text
  | unknownKind kind => "unknown job kind: " ++ kind
  | file error => "I/O error: " ++ error.message

/-- The texts of an error and of what it goes back to. -/
def causes (e : SandboxError) : List String :=
  e.message :: match e with
    | file error => [error.message]
    | _ => []

end SandboxError

/-- A directory that jobs may not leave, given by its real location. -/
structure Jail where
  root : Location
  deriving DecidableEq, Repr

namespace Jail

/-- Makes the jail at a path, along with the directories that are missing. -/
def create (path : Path) : Files SandboxError Jail :=
  Files.mapError .file do
    Files.makeDirs path
    let root ← Files.inspect fun t => t.realLocation path
    return ⟨root⟩

/-- Folds two dots with the name before them; nothing when there is none. The names read so far
stand in reverse. -/
def fold (names : List String) : List String → Option (List String)
  | [] => some names.reverse
  | c :: rest =>
    if c = ".." then
      match names with
      | [] => none
      | _ :: names => fold names rest
    else fold (c :: names) rest

/-- The names that a relative path text comes to; nothing when it is absolute or climbs above its
start. -/
def normalize (path : String) : Option (List String) :=
  if Path.isAbsolute path then none else fold [] (Path.components path)

/-- The longest beginning of a path that exists, and the names after it. -/
def existingPart (t : FileTree) (p : Path) : Path × List String :=
  if h : p = [] then ([], [])
  else if t.hasEntry p then (p, [])
  else
    let (existing, missing) := existingPart t p.dropLast
    (existing, missing ++ [p.getLast h])
termination_by p.length
decreasing_by
  have : p.length ≠ 0 := by simpa using h
  simp
  omega

/-- The part that exists of the path to some names in the jail. The jail itself counts only while it
is a directory. -/
def existingInside (jail : Jail) (t : FileTree) (names : List String) : Path × List String :=
  if names = [] ∧ !t.isDir jail.root then
    let (existing, missing) := existingPart t jail.root.dropLast
    (existing, missing ++ jail.root.getLast?.toList)
  else existingPart t (jail.root ++ names)

/-- The location that a relative path text stands for. What is missing of it may be made there. -/
def resolve (jail : Jail) (t : FileTree) (path : String) : Except SandboxError Location :=
  match normalize path with
  | none => .error (.pathEscape path)
  | some names =>
    let (existing, missing) := jail.existingInside t names
    match t.realLocation existing with
    | .error .notFound => .error (.linkRejected path)
    | .error e => .error (.file e)
    | .ok found =>
      let resolved := found ++ missing
      if !jail.root.isPrefixOf resolved then .error (.pathEscape path)
      else if names ≠ [] ∧ t.isLink (jail.root ++ names) then .error (.linkRejected path)
      else .ok resolved

/-- A location as a relative path text. -/
def shown (jail : Jail) (l : Location) : String := Path.textBelow jail.root l

end Jail

end MeshNode
