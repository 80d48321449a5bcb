import MeshNode.Files.Lookup

/-!
# Listings of a file tree

Everything below a directory, a line each: a directory ends with a slash, a file shows its size, and
a link where it leads.
-/

namespace MeshNode.FileTree

/-- The line of an entry. -/
def entryLine (path : String) : Option Entry → String
  | some (.file content _) => s!"{path} {content.size}"
  | some (.link target) => s!"{path} -> {target}"
  | _ => path ++ "/"

/-- The lines of all entries below a path, in increasing order. -/
def listing (t : FileTree) (p : Path) : List String :=
  match t.realLocation p with
  | .error _ => []
  | .ok top =>
    NameSet.ofList <| (t.below top).map fun l => entryLine (Path.textBelow top l) (t.get? l)

end MeshNode.FileTree
