import MeshNode.Files.Operations
import MeshNode.Trust.Record

/-!
# Trust stores

A trust store holds the record of each node. It may be backed by a file, which then always holds
the indented JSON of all records: a save writes the new document beside the file and moves it into
place, so that the file has either the old document or the new one, and only a save that succeeds
to the end changes the store.
-/

namespace MeshNode

/-- The records by node, and the file that backs them. -/
structure TrustStore where
  records : Keyed TrustRecord
  path : Option Path

namespace TrustStore

/-- A store without a file. -/
def inMemory : TrustStore := ⟨[], none⟩

/-- The record of a node. -/
def load (s : TrustStore) (node : String) : Option TrustRecord := s.records.get? node

/-- The nodes that have a record, in increasing order. -/
def nodeIds (s : TrustStore) : List String := s.records.keys

/-- Records as one value. -/
def toJson (records : Keyed TrustRecord) : Json :=
  .obj (records.map fun r => (r.1, r.2.toJson))

/-- The document that holds the records. -/
def document (records : Keyed TrustRecord) : Bytes := (toJson records).pretty

/-- Reads the records of a document; an empty one holds none. -/
def ofDocument (b : Bytes) : Except StoreError (Keyed TrustRecord) :=
  if b = [] then .ok []
  else
    match (Json.Decoder.dict TrustRecord.decoder).ofBytes b with
    | .ok records => .ok records
    | .error e => .error (.unreadable e)

/-- Opens the store that a file backs; a missing file holds no records. -/
def «open» (path : Path) (t : FileTree) : Except StoreError TrustStore :=
  match t.read path with
  | .ok content => (ofDocument content.toBytes).map fun records => ⟨records, some path⟩
  | .error .notFound => .ok ⟨[], some path⟩
  | .error e => .error (.file e)

/-- Where a new document is written before it is moved into place. -/
def draft (path : Path) : Path := path.withExtension "json.tmp"

/-- Puts the document of some records into the file. -/
def flush (path : Path) (records : Keyed TrustRecord) : Files FileError Unit := do
  Files.makeDirs path.dropLast
  Files.writeBytes (draft path) (document records)
  Files.perform fun t => t.rename (draft path) path

/-- The store with the record of a node in place of an older one. -/
def save (s : TrustStore) (node : String) (record : TrustRecord) : Files StoreError TrustStore := do
  let records := s.records.insert node record
  match s.path with
  | none => pure ()
  | some path => Files.mapError .file (flush path records)
  return { s with records }

end TrustStore

end MeshNode
