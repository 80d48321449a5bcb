/-!
# Paths

A path is the list of its components. The paths that programs ask for are absolute once the
directory they are relative to is put in front, and lead from the root of the file tree downwards;
they may still contain `..`, which only a lookup can interpret. A `Location` is a path that a lookup
ended at: it holds names alone, and different locations are different places.
-/

namespace MeshNode

/-- The components of an absolute path. -/
abbrev Path := List String

/-- The names on the way from the root of the tree to a place in it. -/
abbrev Location := List String

namespace Path

/-- The text between slashes, empty pieces included. -/
def pieces (text : String) : List String := (text.toList.splitOn '/').map String.ofList

/-- Whether a path text starts at the root. -/
def isAbsolute (text : String) : Bool := text.toList.head? = some '/'

/-- The components of a path text; doubled and final slashes and single dots do not count. -/
def components (text : String) : Path := (pieces text).filter fun c => c ≠ "" ∧ c ≠ "."

/-- The path that a text stands for, seen from a directory. -/
def ofText (base : Path) (text : String) : Path :=
  if isAbsolute text then components text else base ++ components text

/-- The path that a text stands for, seen from a directory, with a final slash or dot kept as a
component: only a directory can be reached by it. -/
def ofRawText (base : Path) (text : String) : Path :=
  if isAbsolute text then pieces text else base ++ pieces text

/-- The text of a name in a directory. -/
def join (dir name : String) : String :=
  if dir = "" ∨ dir.toList.getLast? = some '/' then dir ++ name else dir ++ "/" ++ name

/-- The text of a path. -/
def text (p : Path) : String := if p = [] then "/" else String.join (p.map ("/" ++ ·))

/-- How many bytes the text of a path has. -/
def byteLength (p : Path) : Nat := max 1 (p.foldr (fun c n => c.utf8ByteSize + 1 + n) 0)

/-- The same path with another extension in place of the one after the last dot of its last name.
A dot at the start of a name starts no extension. -/
def withExtension (p : Path) (extension : String) : Path :=
  match p.getLast? with
  | none => p
  | some name =>
    if name = ".." then p
    else
      let reversed := name.toList.reverse
      let stem := match reversed.dropWhile (· ≠ '.') with
        | _ :: c :: rest => String.ofList (c :: rest).reverse
        | _ => name
      p.dropLast ++ [stem ++ "." ++ extension]

/-- A path below a directory as a text. -/
def textBelow (base p : Path) : String :=
  "/".intercalate (if base.isPrefixOf p then p.drop base.length else p)

end Path

end MeshNode
