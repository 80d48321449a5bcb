import MeshNode.Files.Operations
import MeshNode.Keys

/-!
# Key records

The keys of a node are kept in a file of their own, named after the node. The record is written when
the keys are made and never again: a record that is there is used or refused, but not replaced. It
holds the secrets in hexadecimal along with their public halves, and is refused when it belongs to
another node, when a secret is not one, or when a public half is not that of the secret.
-/

namespace MeshNode

/-- The stored form of a node's keys. -/
structure KeyRecord where
  nodeId : String
  signSecret : String
  signPublic : String
  kxSecret : String
  kxPublic : String
  deriving DecidableEq

namespace KeyRecord

/-- Reads a record. -/
def decoder : Json.Decoder KeyRecord :=
  .record "KeyRecord"
    (.cons (.required "node_id" .text) <| .cons (.required "sign_sk" .text) <|
      .cons (.required "sign_pk" .text) <| .cons (.required "kx_sk" .text) <|
      .cons (.required "kx_pk" .text) .nil)
    fun (nodeId, signSecret, signPublic, kxSecret, kxPublic, ()) =>
      ⟨nodeId, signSecret, signPublic, kxSecret, kxPublic⟩

/-- The written form. -/
def toJson (r : KeyRecord) : Json :=
  .obj [("node_id", .str r.nodeId), ("sign_sk", .str r.signSecret), ("sign_pk", .str r.signPublic),
    ("kx_sk", .str r.kxSecret), ("kx_pk", .str r.kxPublic)]

/-- The record of some keys. -/
def ofKeys (k : NodeKeys) : KeyRecord :=
  ⟨k.nodeId, k.signSecret.toHex, k.signPublic.toHex, k.kxSecret.toHex, k.kxPublic.toHex⟩

/-- A secret of 32 bytes in hexadecimal. -/
def secret? (s : String) : Option Bytes := (Bytes.ofHex? s).filter (·.length = 32)

/-- The keys of a record, for the node it should belong to. -/
def keys (r : KeyRecord) (nodeId : String) : Except StoreError NodeKeys := do
  if r.nodeId ≠ nodeId then
    throw (.corrupt nodeId "record belongs to a different node id")
  let some signSecret := secret? r.signSecret | throw (.corrupt nodeId "sign_sk")
  let some kxSecret := secret? r.kxSecret | throw (.corrupt nodeId "kx_sk")
  let keys : NodeKeys := ⟨nodeId, signSecret, kxSecret⟩
  if r.signPublic = keys.signPublic.toHex ∧ r.kxPublic = keys.kxPublic.toHex then return keys
  else throw (.corrupt nodeId "public key does not match secret")

/-- A character as it stands in file names: anything but ASCII letters, digits, `-` and `_` becomes
`_`. -/
def fileChar (c : Char) : Char := if c.isAlphanum ∨ c = '-' ∨ c = '_' then c else '_'

/-- The file of a node's record in a directory. -/
def path (dir : Path) (nodeId : String) : Path :=
  dir ++ [String.ofList (nodeId.toList.map fileChar) ++ ".json"]

/-- The permissions of a record: the owner's alone. -/
def fileMode : Nat := 0o600

end KeyRecord

namespace NodeKeys

/-- Reads the keys of a node from a file. -/
def load (path : Path) (nodeId : String) (t : FileTree) : Except StoreError NodeKeys :=
  match t.read path with
  | .error e => .error (.file e)
  | .ok content =>
    match KeyRecord.decoder.ofBytes content.toBytes with
    | .error e => .error (.unreadable e)
    | .ok record => record.keys nodeId

/-- Writes the record of some keys. -/
def persist (k : NodeKeys) (path : Path) : Files FileError Unit := do
  Files.makeDirs path.dropLast
  Files.writeBytes path (KeyRecord.ofKeys k).toJson.pretty
  Files.perform fun t => t.setMode path KeyRecord.fileMode

/-- The keys of a node: those of its record, or else the fresh ones, which are then recorded. -/
def loadOrGenerate (dir : Path) (nodeId : String) (fresh : NodeKeys) :
    Files StoreError NodeKeys := do
  let path := KeyRecord.path dir nodeId
  if FileTree.exists (← get) path then
    Files.inspect fun t => load path nodeId t
  else
    let keys := { fresh with nodeId }
    Files.mapError .file (keys.persist path)
    return keys

end NodeKeys

end MeshNode
