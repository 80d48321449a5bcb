import MeshNode.Files.Changes
import MeshNode.Ledger.Document
import MeshNode.Ledger.Store
import MeshNode.Program.Footprint

/-!
# The disk

A run works on a file tree; the disk is where that tree comes from and where its changes go. A view
of the disk is the tree of the places in a footprint, together with everything on the way to them. A
symbolic link stands in it with the real place it leads to, and one that leads nowhere with a name
that no file has.

Of the files in a jail nothing but the size is seen, so they stand in the view as pages. Ledgers are
kept as documents; the log and the index beside a ledger are kept nowhere.
-/

namespace MeshNode.Disk

/-- An error of the machine as that of a file operation. -/
def fileError : IO.Error → FileError
  | .noFileOrDirectory .. => .notFound
  | .permissionDenied .. => .permissionDenied
  | .alreadyExists .. => .alreadyExists
  | e => .other (toString e)

/-- The target of links that lead nowhere. -/
def nowhere : String := "\x00"

/-- How the contents of a file are seen, given its path and its size. -/
abbrev Eye := String → Nat → IO Content

/-- Sees the bytes of a file. -/
def seeBytes : Eye := fun path _ => do return .bytes (← IO.FS.readBinFile path).toList

/-- Sees a ledger, or bytes that are none. -/
def seeLedger : Eye := fun path _ => do
  let b := (← IO.FS.readBinFile path).toList
  return match Ledger.ofDocument? b with
  | some ledger => .pages ledger LedgerFile.closedSize
  | none => .bytes b

/-- Sees nothing but the size. -/
def seeSize : Eye := fun _ size => return .pages .empty size

/-- What is at a location. -/
def entryAt (see : Eye) (l : Location) : IO (Option Entry) := do
  let text := Path.text l
  let path := (← IO.currentDir) / text
  match ← path.symlinkMetadata.toBaseIO with
  | .error _ => return none
  | .ok found =>
    match found.type with
    | .dir => return some .dir
    | .symlink =>
      if ← path.pathExists then return some (.link (← IO.FS.realPath path).toString)
      else return some (.link nowhere)
    | .file => return some (.file (← see text found.byteSize.toNat) Entry.fileMode)
    | .other => return some (.file (.pages .empty 0) Entry.fileMode)

/-- A view with one more entry in it. -/
def seen (t : FileTree) (l : Location) (e : Entry) : FileTree := ⟨(l, e) :: t.entries⟩

/-- A view with a location and all that is above it, where there are no links. -/
def withPlace (see : Eye) (t : FileTree) (l : Location) : IO FileTree :=
  (List.range l.length).foldlM (fun t n => do
    let above := l.take (n + 1)
    match ← entryAt see above with
    | some e => return seen t above e
    | none => return t) t

/-- A view with the entry at a location, and with where it leads if it is a link. -/
def withEntry (see : Eye) (t : FileTree) (l : Location) : IO (FileTree × Option Entry) := do
  match ← entryAt see l with
  | none => return (t, none)
  | some (.link target) =>
    let t ← if target = nowhere then pure t else withPlace see t (Path.components target)
    return (seen t l (.link target), some (.link target))
  | some e => return (seen t l e, some e)

/-- A view with all that a lookup meets which follows a path from a directory. -/
def withWay (see : Eye) (t : FileTree) (dir : Location) : Path → IO FileTree
  | [] => return t
  | c :: rest => do
    if c = "" ∨ c = "." then withWay see t dir rest
    else if c = ".." then withWay see t dir.dropLast rest
    else
      let here := dir ++ [c]
      match ← withEntry see t here with
      | (t, some .dir) => withWay see t here rest
      | (t, some (.link target)) => withWay see t (Path.components target) rest
      | (t, _) => return t

/-- A view with all that is below a directory, through at most so many directories. -/
def withBelow (see : Eye) : (levels : Nat) → FileTree → Location → IO FileTree
  | 0, t, _ => return t
  | levels + 1, t, dir => do
    let path := (← IO.currentDir) / Path.text dir
    match ← path.readDir.toBaseIO with
    | .error _ => return t
    | .ok found =>
      found.toList.foldlM (fun t entry => do
        let here := dir ++ [entry.fileName]
        match ← withEntry see t here with
        | (t, some .dir) => withBelow see levels t here
        | (t, _) => return t) t

/-- A view of the disk at the places of a footprint. -/
def view (f : Footprint) : IO FileTree := do
  let t ← f.jails.foldlM (fun t p => do
    let t ← withWay seeSize t [] p
    match t.realLocation p with
    | .ok l => withBelow seeSize FileTree.maxPath t l
    | .error _ => return t) FileTree.empty
  let t ← f.ledgers.foldlM (fun t p => withWay seeLedger t [] p) t
  f.documents.foldlM (fun t p => withWay seeBytes t [] p) t

/-- Permissions as they are given to the machine. -/
def rights (mode : Nat) : IO.FileRight :=
  let access (bits : Nat) : IO.AccessRight :=
    { read := bits.testBit 2, write := bits.testBit 1, execution := bits.testBit 0 }
  { user := access (mode / 64), group := access (mode / 8), other := access mode }

/-- Where a file is written before it is moved into place. -/
def draft (l : Location) : String := Path.text (l.dropLast ++ [".offgrid-node.draft"])

/-- Writes a file beside its place and moves it there, so that there is either the old one or the
new one. -/
def replace (l : Location) (b : Bytes) (mode : Nat) : IO Unit := do
  IO.FS.writeBinFile (draft l) ⟨b.toArray⟩
  if mode ≠ Entry.fileMode then IO.setAccessRights (draft l) (rights mode)
  IO.FS.rename (draft l) (Path.text l)

/-- Removes what is at a location. -/
def remove (l : Location) : IO Unit := do
  let path := (← IO.currentDir) / Path.text l
  if (← path.symlinkMetadata).type == .dir then IO.FS.removeDirAll path else IO.FS.removeFile path

/-- Carries out a change. `inPlace` tells the files that are written where they are. -/
def carryOut (inPlace : Location → Bool) (change : Location × Option Entry) : IO Unit := do
  let (l, entry) := change
  match entry with
  | none => remove l
  | some .dir => IO.FS.createDir (Path.text l)
  | some (.file (.pages ledger _) mode) => replace l ledger.document mode
  | some (.file (.bytes b) mode) =>
    if inPlace l then IO.FS.writeBinFile (Path.text l) ⟨b.toArray⟩ else replace l b mode
  | some (.link _) => return

/-- Brings a view of the disk up to date with a tree that was made of it, but for some locations. -/
def update (older newer : FileTree) (without : List Location) (inPlace : Location → Bool) :
    IO Unit := do
  for change in older.changes newer do
    if !without.contains change.1 then carryOut inPlace change

end MeshNode.Disk
