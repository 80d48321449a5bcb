import MeshNode.Files.Path
import MeshNode.Ledger
import MeshNode.NameSet

/-!
# File trees

A file tree says what is at each location: a directory, a regular file with its permissions, or a
symbolic link with the text it leads to. The root is always a directory. Nothing else is known of a
location, so a change of the tree is described by the locations at which it differs.

Besides bytes a file may hold the pages of a ledger. Of those only the rows and the size can be
seen.
-/

namespace MeshNode

/-- What a regular file holds. -/
inductive Content where
  | bytes (b : Bytes)
  /-- The pages of a ledger, of which there are `size` bytes. -/
  | pages (ledger : Ledger) (size : Nat)
  deriving DecidableEq, Repr

/-- How many bytes a file has. -/
def Content.size : Content → Nat
  | bytes b => b.length
  | pages _ size => size

/-- The bytes of a file; of pages only the mark that they start with. -/
def Content.toBytes : Content → Bytes
  | bytes b => b
  | pages .. => .ofText "SQLite format 3\x00"

/-- What is at a location. -/
inductive Entry where
  | dir
  | file (content : Content) (mode : Nat)
  | link (target : String)
  deriving DecidableEq, Repr

namespace Entry

/-- The permissions of new files: the owner may write, everyone may read. -/
def fileMode : Nat := 0o644

/-- The permissions of directories. -/
def dirMode : Nat := 0o755

end Entry

/-- The entries by location. -/
structure FileTree where
  entries : List (Location × Entry)
  deriving DecidableEq, Repr

namespace FileTree

/-- A tree with nothing but its root. -/
def empty : FileTree := ⟨[]⟩

/-- The entry at a location. -/
def get? (t : FileTree) (l : Location) : Option Entry :=
  if l = [] then some .dir else t.entries.lookup l

/-- Puts an entry at a location. -/
def put (t : FileTree) (l : Location) (e : Entry) : FileTree :=
  ⟨(l, e) :: t.entries.filter (·.1 ≠ l)⟩

/-- Removes whatever is at a location and below it. -/
def cut (t : FileTree) (l : Location) : FileTree := ⟨t.entries.filter fun e => !l.isPrefixOf e.1⟩

private theorem lookup_filter (entries : List (Location × Entry)) (keep : Location → Bool)
    (l : Location) :
    (entries.filter fun e => keep e.1).lookup l = if keep l then entries.lookup l else none := by
  induction entries with
  | nil => simp
  | cons e rest ih =>
    obtain ⟨k, v⟩ := e
    by_cases h : l = k
    · subst h
      by_cases hk : keep l <;> simp [hk, ih]
    · have hne : (l == k) = false := by simpa using h
      by_cases hk : keep k <;> simp [hk, ih, List.lookup_cons, hne]

theorem get?_put (t : FileTree) (l : Location) (e : Entry) (k : Location) :
    (t.put l e).get? k = if k = [] then some .dir else if k = l then some e else t.get? k := by
  by_cases hroot : k = []
  · simp [get?, hroot]
  · have hlookup := lookup_filter t.entries (fun x => x ≠ l) k
    by_cases h : k = l
    · subst h; simp [get?, put, hroot]
    · have hne : (k == l) = false := by simpa using h
      simp only [decide_not, h, decide_false, Bool.not_false, if_true] at hlookup
      simp [get?, put, hroot, h, List.lookup_cons, hne, hlookup]

theorem get?_cut (t : FileTree) (l k : Location) :
    (t.cut l).get? k =
      if k = [] then some .dir else if l.isPrefixOf k then none else t.get? k := by
  by_cases hroot : k = []
  · simp [get?, hroot]
  · have hlookup := lookup_filter t.entries (fun x => !l.isPrefixOf x) k
    simp only [get?, cut, hroot, if_false, hlookup]
    by_cases h : l.isPrefixOf k <;> simp [h]

/-- There is a directory at a location. -/
def isDirAt (t : FileTree) (l : Location) : Bool := t.get? l = some .dir

/-- The names of the entries of a directory, in increasing order. -/
def children (t : FileTree) (l : Location) : List String :=
  NameSet.ofList <| t.entries.filterMap fun e =>
    match e.1.getLast? with
    | some name => if e.1.dropLast = l then some name else none
    | none => none

/-- The length of the longest location. -/
def depth (t : FileTree) : Nat := t.entries.foldl (fun d e => max d e.1.length) 0

/-- The locations below a directory that are reached through at most `levels` directories. -/
def belowWithin (t : FileTree) : (levels : Nat) → Location → List Location
  | 0, _ => []
  | levels + 1, l =>
    (t.children l).flatMap fun name =>
      let here := l ++ [name]
      here :: if t.isDirAt here then belowWithin t levels here else []

/-- The locations below a directory, reached through directories and not through links. No chain of
directories is longer than the longest location. -/
def below (t : FileTree) (l : Location) : List Location := t.belowWithin t.depth l

end FileTree

end MeshNode
