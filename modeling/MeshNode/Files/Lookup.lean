import MeshNode.Files.Tree

/-!
# Looking paths up

A lookup follows the components of a path from the root. A name leads to an entry of the directory
reached so far, two dots lead to its parent, and a symbolic link leads on through the components of
its target, from the root or from the directory that holds the link. At most forty links are
followed. The link that a whole path names is followed or not, as the operation asks; a link with
anything after it is always followed, and so is one with a slash after it.

A lookup may end at a location with nothing in it, where an entry can then be made. It fails when a
directory on the way is missing or is none, when a name has more than 255 bytes, or when the text of
the whole path has 4096 bytes or more. A file that is to be written is not looked for behind a slash
at the end, be it the end of the path or of the target of a link that the path names: only a
directory could be there.
-/

namespace MeshNode

/-- Where a lookup ended, and what is there. -/
structure Found where
  location : Location
  entry : Option Entry
  deriving DecidableEq, Repr

namespace FileTree

/-- How many links a lookup follows. -/
def maxLinks : Nat := 40

/-- The longest name, in bytes. -/
def maxName : Nat := 255

/-- The longest path, in bytes. -/
def maxPath : Nat := 4095

/-- Follows components from a directory. A link to follow is left to `jump`, with the directory it
leads on from and the components that are still to come. With `writing`, no slash may come after the
last name. -/
def walkWith (t : FileTree) (follow writing : Bool)
    (jump : Location → Path → Except FileError Found) :
    Location → Path → Except FileError Found
  | dir, [] => .ok ⟨dir, t.get? dir⟩
  | dir, c :: rest =>
    if c = "" ∨ c = "." then walkWith t follow writing jump dir rest
    else if c = ".." then walkWith t follow writing jump dir.dropLast rest
    else if writing ∧ rest ≠ [] ∧ rest.all (· = "") then .error .isADirectory
    else if maxName < c.utf8ByteSize then .error .nameTooLong
    else
      let here := dir ++ [c]
      match t.get? here with
      | none => if rest.all (· = "") then .ok ⟨here, none⟩ else .error .notFound
      | some .dir => walkWith t follow writing jump here rest
      | some (.file content mode) =>
        if rest = [] then .ok ⟨here, some (.file content mode)⟩ else .error .notADirectory
      | some (.link target) =>
        if rest = [] ∧ !follow then .ok ⟨here, some (.link target)⟩
        else
          jump (if Path.isAbsolute target then [] else dir) (Path.pieces target ++ rest)

/-- Follows components from a directory and through at most `links` links. -/
def walkThrough (t : FileTree) (follow writing : Bool) :
    (links : Nat) → Location → Path → Except FileError Found
  | 0 => t.walkWith follow writing fun _ _ => .error .tooManyLinks
  | links + 1 => t.walkWith follow writing (walkThrough t follow writing links)

/-- Follows components to whatever is there. -/
def walk (t : FileTree) (follow : Bool) : (links : Nat) → Location → Path → Except FileError Found :=
  t.walkThrough follow false

/-- Follows components to where a file is written. -/
def walkToWrite (t : FileTree) : (links : Nat) → Location → Path → Except FileError Found :=
  t.walkThrough true true

/-- Looks a path up from the root, if it can be looked up at all. -/
def fromRoot (walk : Location → Path → Except FileError Found) (p : Path) :
    Except FileError Found :=
  if p.any fun c => c.toList.contains '\x00' then .error .nulInPath
  else if maxPath < Path.byteLength p then .error .nameTooLong
  else walk [] p

/-- Looks a path up. -/
def locate (t : FileTree) (follow : Bool) (p : Path) : Except FileError Found :=
  fromRoot (t.walk follow maxLinks) p

/-- Looks up where a file is written, which may be missing. -/
def locateToWrite (t : FileTree) (p : Path) : Except FileError Found :=
  fromRoot (t.walkToWrite maxLinks) p

/-- What a path leads to. -/
def stat (t : FileTree) (follow : Bool) (p : Path) : Except FileError Found :=
  match t.locate follow p with
  | .error e => .error e
  | .ok ⟨_, none⟩ => .error .notFound
  | .ok found => .ok found

/-- Whether a path leads to anything; a final link counts by itself. -/
def hasEntry (t : FileTree) (p : Path) : Bool := (t.stat false p).toBool

/-- Whether something is there after all links are followed. -/
def «exists» (t : FileTree) (p : Path) : Bool := (t.stat true p).toBool

/-- Whether a path leads to a directory. -/
def isDir (t : FileTree) (p : Path) : Bool :=
  match t.stat true p with
  | .ok found => found.entry = some .dir
  | .error _ => false

/-- Whether a path names a symbolic link. -/
def isLink (t : FileTree) (p : Path) : Bool :=
  match t.stat false p with
  | .ok ⟨_, some (.link _)⟩ => true
  | _ => false

/-- The location that a path leads to. -/
def realLocation (t : FileTree) (p : Path) : Except FileError Location :=
  (t.stat true p).map (·.location)

end FileTree

end MeshNode
