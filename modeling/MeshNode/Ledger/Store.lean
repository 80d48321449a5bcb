import MeshNode.Files.Operations

/-!
# Ledgers in files

A ledger may be kept in a database file. Its rows are then what the file holds, and opening the file
again finds them. Beside the file, while it is open, stand a log of the pages that were written
since, and an index of that log; closing moves the pages into the file and removes both.

Only the sizes of these files can be seen, so of the pages nothing is kept but how many there are.
-/

namespace MeshNode

/-- The open database file of a ledger. -/
structure LedgerFile where
  location : Location
  /-- How many pages are in the log. -/
  logged : Nat
  deriving DecidableEq, Repr

namespace LedgerFile

/-- The bytes in a page. -/
def pageSize : Nat := 4096

/-- The bytes in the index of the log. -/
def indexSize : Nat := 32768

/-- The bytes in a log: a header, and every page with a header of its own. -/
def logSize (pages : Nat) : Nat := if pages = 0 then 0 else 32 + pages * (pageSize + 24)

/-- How many pages are logged when the tables are made. -/
def pagesOfTables : Nat := 5

/-- How many pages are logged when a row is added or dropped. -/
def pagesOfRow : Nat := 3

/-- How many pages are logged when a row is changed in place. -/
def pagesOfChange : Nat := 1

/-- The bytes in a closed file: a page each for the tables, the rows and the two indexes. -/
def closedSize : Nat := 4 * pageSize

/-- A file beside the database file. -/
def beside (l : Location) (ending : String) : Location :=
  l.dropLast ++ l.getLast?.toList.map (· ++ ending)

/-- The index of the log. -/
def indexOf (l : Location) : Location := beside l "-shm"

/-- The log. -/
def logOf (l : Location) : Location := beside l "-wal"

/-- A file of pages. -/
def pages (ledger : Ledger) (size : Nat) : Entry := .file (.pages ledger size) Entry.fileMode

/-- The size of the pages at a location, if there are pages. -/
def sizeAt? (t : FileTree) (l : Location) : Option Nat :=
  match t.get? l with
  | some (.file (.pages _ size) _) => some size
  | _ => none

/-- The tree in which the file holds the given rows, unless it has been taken away. -/
def store (f : LedgerFile) (ledger : Ledger) (t : FileTree) : FileTree :=
  match sizeAt? t f.location with
  | none => t
  | some size =>
    (t.put f.location (pages ledger size)).put (logOf f.location) (pages .empty (logSize f.logged))

end LedgerFile

/-- A ledger, and the file in which it is kept. -/
structure LedgerStore where
  ledger : Ledger
  file : Option LedgerFile
  deriving DecidableEq, Repr

namespace LedgerStore

/-- A ledger that is kept in no file. -/
def inMemory : LedgerStore := ⟨.empty, none⟩

/-- Opens the database file at a path, which is made if it is missing or empty. Errors give the path
as `name`. -/
def openFile (name : String) (path : Path) (t : FileTree) :
    Except StoreError (LedgerStore × FileTree) :=
  let opened (l : Location) (ledger : Ledger) (size logged : Nat) : LedgerStore × FileTree :=
    let f : LedgerFile := ⟨l, logged⟩
    (⟨ledger, some f⟩,
      ((t.put l (LedgerFile.pages ledger size)).put (LedgerFile.indexOf l)
        (LedgerFile.pages .empty LedgerFile.indexSize)).put (LedgerFile.logOf l)
        (LedgerFile.pages .empty (LedgerFile.logSize logged)))
  let made (l : Location) : LedgerStore × FileTree :=
    opened l .empty LedgerFile.pageSize LedgerFile.pagesOfTables
  let refused : StoreError := .database (.cannotOpen name)
  match t.locate true path with
  | .error _ => .error refused
  | .ok ⟨l, none⟩ => .ok (made l)
  | .ok ⟨l, some (.file (.pages ledger size) _)⟩ => .ok (opened l ledger size 0)
  | .ok ⟨l, some (.file (.bytes b) _)⟩ =>
    if b = [] then .ok (made l) else .error (.database .notADatabase)
  | .ok _ => .error refused

/-- Opens the ledger at a path, which errors give as `name`, and makes the directories on the way
to it. -/
def «open» (name : String) (path : Path) : Files StoreError LedgerStore := do
  Files.mapError .file (Files.makeDirs path.dropLast)
  match openFile name path (← get) with
  | .ok (s, t) =>
    set t
    return s
  | .error e => throw e

/-- Closes the file of a ledger. -/
def close (s : LedgerStore) (t : FileTree) : FileTree :=
  match s.file with
  | none => t
  | some f =>
    let t := (t.cut (LedgerFile.indexOf f.location)).cut (LedgerFile.logOf f.location)
    match LedgerFile.sizeAt? t f.location with
    | none => t
    | some _ => t.put f.location (LedgerFile.pages s.ledger LedgerFile.closedSize)

/-- The store with other rows, after a change that logs some pages. -/
def update (s : LedgerStore) (ledger : Ledger) (logged : Nat) (t : FileTree) :
    LedgerStore × FileTree :=
  match s.file with
  | none => ({ s with ledger }, t)
  | some f =>
    let f := { f with logged := f.logged + logged }
    (⟨ledger, some f⟩, f.store ledger t)

/-- Takes an attempt if nobody has it. -/
def claim (s : LedgerStore) (id : String) (now : Int) (t : FileTree) :
    Bool × LedgerStore × FileTree :=
  let (won, ledger) := s.ledger.claim id now
  (won, s.update ledger (if won then LedgerFile.pagesOfRow else 0) t)

/-- Writes the result of an attempt. -/
def complete (s : LedgerStore) (id : String) (result : Json) (t : FileTree) :
    LedgerStore × FileTree :=
  s.update (s.ledger.complete id result)
    (if s.ledger.rows.contains id then LedgerFile.pagesOfChange else 0) t

/-- Puts a row as it is. -/
def put (s : LedgerStore) (id : String) (row : LedgerRow) (t : FileTree) :
    LedgerStore × FileTree :=
  s.update (s.ledger.put id row) LedgerFile.pagesOfRow t

/-- Drops the rows that are older than the time to live; answers how many. -/
def evict (s : LedgerStore) (ttlSecs : Nat) (now : Int) (t : FileTree) :
    Nat × LedgerStore × FileTree :=
  let (dropped, ledger) := s.ledger.evict ttlSecs now
  (dropped, s.update ledger (if dropped = 0 then 0 else LedgerFile.pagesOfRow) t)

/-- What the ledger knows of an attempt. -/
def get (s : LedgerStore) (id : String) : Except StoreError (Option AttemptRecord) :=
  s.ledger.get id

end LedgerStore

end MeshNode
