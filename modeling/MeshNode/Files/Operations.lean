import MeshNode.Files.Lookup

/-!
# File operations

Single operations either change the tree at one location or fail and leave it as it is. Longer
activities are sequences of them (`Files`): a failure ends the activity, and what was done before
stays done.
-/

namespace MeshNode

/-- An activity that reads and changes a file tree and may fail. -/
abbrev Files (ε : Type) := ExceptT ε (StateM FileTree)

namespace Files

variable {ε α : Type}

/-- Looks at the tree. -/
def look (f : FileTree → α) : Files ε α := do return f (← get)

/-- Looks at the tree for something that may be missing. -/
def inspect (f : FileTree → Except ε α) : Files ε α := do liftExcept (f (← get))
where
  /-- A result as an activity. -/
  liftExcept (r : Except ε α) : Files ε α :=
    match r with
    | .ok a => pure a
    | .error e => throw e

/-- Carries out one operation. -/
def perform (op : FileTree → Except ε FileTree) : Files ε Unit := do
  match op (← get) with
  | .ok t => set t
  | .error e => throw e

/-- An activity whose errors are told in other words. -/
def mapError {δ : Type} (f : ε → δ) (a : Files ε α) : Files δ α := fun t =>
  match a t with
  | (.ok x, t) => (.ok x, t)
  | (.error e, t) => (.error (f e), t)

/-- Runs an activity: its result and the tree after it. -/
def run (a : Files ε α) (t : FileTree) : Except ε α × FileTree := a t

end Files

namespace FileTree

/-- What a file holds. -/
def read (t : FileTree) (p : Path) : Except FileError Content :=
  match t.stat true p with
  | .error e => .error e
  | .ok ⟨_, some (.file content _)⟩ => .ok content
  | .ok _ => .error .isADirectory

/-- The permissions of a file or directory. -/
def mode (t : FileTree) (p : Path) : Except FileError Nat :=
  match t.stat true p with
  | .error e => .error e
  | .ok ⟨_, some (.file _ mode)⟩ => .ok mode
  | .ok _ => .ok Entry.dirMode

/-- The names in a directory, in increasing order, and whether each is a directory itself. -/
def readDir (t : FileTree) (p : Path) : Except FileError (List (String × Bool)) :=
  match t.stat true p with
  | .error e => .error e
  | .ok ⟨l, some .dir⟩ => .ok ((t.children l).map fun name => (name, t.isDirAt (l ++ [name])))
  | .ok _ => .error .notADirectory

/-- The paths of what is in a directory, and in the directories below it down to a number of
levels. A directory that cannot be read ends the search. -/
def pathsWithin (t : FileTree) : (levels : Nat) → Path → Except FileError (List Path)
  | 0, _ => .ok []
  | levels + 1, dir => do
    let found ← t.readDir dir
    let parts ← found.mapM fun (name, isDir) =>
      let path := dir ++ [name]
      if isDir then (pathsWithin t levels path).map (path :: ·) else .ok [path]
    return parts.flatten

/-- Puts contents into a file, which is made if it is missing. -/
def write (t : FileTree) (p : Path) (content : Content) : Except FileError FileTree :=
  match t.locateToWrite p with
  | .error e => .error e
  | .ok ⟨l, none⟩ => .ok (t.put l (.file content Entry.fileMode))
  | .ok ⟨l, some (.file _ mode)⟩ => .ok (t.put l (.file content mode))
  | .ok _ => .error .isADirectory

/-- Makes a directory where nothing is. -/
def makeDir (t : FileTree) (p : Path) : Except FileError FileTree :=
  match t.locate false p with
  | .error e => .error e
  | .ok ⟨l, none⟩ => .ok (t.put l .dir)
  | .ok ⟨_, some _⟩ => .error .alreadyExists

/-- Makes a symbolic link where nothing is. -/
def makeLink (t : FileTree) (p : Path) (target : String) : Except FileError FileTree :=
  match t.locate false p with
  | .error e => .error e
  | .ok ⟨l, none⟩ => .ok (t.put l (.link target))
  | .ok ⟨_, some _⟩ => .error .alreadyExists

/-- Sets the permissions of a file. -/
def setMode (t : FileTree) (p : Path) (mode : Nat) : Except FileError FileTree :=
  match t.stat true p with
  | .error e => .error e
  | .ok ⟨l, some (.file content _)⟩ => .ok (t.put l (.file content mode))
  | .ok _ => .ok t

/-- Moves a file or link to another name, in place of the file or link there. -/
def rename (t : FileTree) (source target : Path) : Except FileError FileTree :=
  match t.stat false source, t.locate false target with
  | .error e, _ => .error e
  | _, .error e => .error e
  | .ok ⟨s, some e⟩, .ok ⟨l, there⟩ =>
    if there = some .dir then .error .isADirectory else .ok ((t.cut s).put l e)
  | .ok ⟨_, none⟩, _ => .error .notFound

/-- Removes a file, a link or a whole directory. -/
def remove (t : FileTree) (p : Path) : Except FileError FileTree :=
  (t.stat false p).map fun found => t.cut found.location

end FileTree

namespace Files

/-- Makes a directory along with the directories on the way to it. A directory that is there
already is left alone. -/
def makeDirs (p : Path) : Files FileError Unit := do
  let make : Files FileError Unit := do
    match FileTree.makeDir (← get) p with
    | .ok t => set t
    | .error e => if FileTree.isDir (← get) p then pure () else throw e
  if p = [] then pure ()
  else
    match FileTree.makeDir (← get) p with
    | .error .notFound => do
      makeDirs p.dropLast
      make
    | _ => make
termination_by p.length
decreasing_by
  have : p.length ≠ 0 := by simpa using ‹¬p = []›
  simp
  omega

/-- Reads the bytes of a file. -/
def readBytes (p : Path) : Files FileError Bytes := inspect fun t => (t.read p).map (·.toBytes)

/-- Writes bytes into a file. -/
def writeBytes (p : Path) (b : Bytes) : Files FileError Unit :=
  perform fun t => t.write p (.bytes b)

end Files

end MeshNode
