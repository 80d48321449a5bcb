import MeshNode.Keys.File
import MeshNode.Proofs.Files.Growth
import MeshNode.Proofs.Hex
import MeshNode.Proofs.Json.Records

/-!
# What key records hold

A record is accepted for a node exactly if it names the node, both secrets are 32 bytes in
hexadecimal, and the public halves are in lower case those of the secrets (`Holds`). The record that
is written of some keys holds these keys, and is read as it was written, so that keys are loaded as
they were recorded (`load_of_entry`).

The file of a record is named after the node. The name is of ASCII alone, as long as the name of the
node and its extension, and nothing that a lookup would take for anything but a name. But two nodes
have one file if their names differ only in characters that do not stand in file names
(`fileName_eq_iff`).
-/

namespace MeshNode

/-- Both secrets have 32 bytes, as those of keys that are made have. -/
structure NodeKeys.Sized (k : NodeKeys) : Prop where
  sign : k.signSecret.length = 32
  kx : k.kxSecret.length = 32

namespace KeyRecord

/-! ### Accepted records -/

/-- The keys of a node that a record holds. -/
structure Holds (r : KeyRecord) (nodeId : String) (k : NodeKeys) : Prop where
  /-- The record is that of the node, and so are the keys. -/
  node : r.nodeId = nodeId ∧ k.nodeId = nodeId
  /-- The secrets stand there in hexadecimal, of either case. -/
  secrets : r.signSecret.toLower = k.signSecret.toHex ∧ r.kxSecret.toLower = k.kxSecret.toHex
  /-- They have 32 bytes each. -/
  sized : k.Sized
  /-- With them stand the public halves, in lower case. -/
  publics : r.signPublic = k.signPublic.toHex ∧ r.kxPublic = k.kxPublic.toHex

theorem secret?_eq_some_iff {s : String} {b : Bytes} :
    secret? s = some b ↔ s.toLower = b.toHex ∧ b.length = 32 := by
  rw [secret?, Option.filter_eq_some_iff, Bytes.ofHex?_eq_some_iff, decide_eq_true_eq]

/-- How a record is checked: for the node, for the secrets and for the public halves. -/
theorem keys_eq (r : KeyRecord) (nodeId : String) : r.keys nodeId =
    if r.nodeId ≠ nodeId then .error (.corrupt nodeId "record belongs to a different node id")
    else match secret? r.signSecret, secret? r.kxSecret with
      | none, _ => .error (.corrupt nodeId "sign_sk")
      | some _, none => .error (.corrupt nodeId "kx_sk")
      | some sign, some kx =>
        if r.signPublic = (NodeKeys.mk nodeId sign kx).signPublic.toHex ∧
            r.kxPublic = (NodeKeys.mk nodeId sign kx).kxPublic.toHex then .ok ⟨nodeId, sign, kx⟩
        else .error (.corrupt nodeId "public key does not match secret") := by
  rw [keys]
  by_cases hnode : r.nodeId ≠ nodeId
  · rw [if_pos hnode, if_pos hnode]
    rfl
  rw [if_neg hnode, if_neg hnode]
  cases secret? r.signSecret with
  | none => rfl
  | some sign => cases secret? r.kxSecret <;> rfl

/-- A record of another node is refused as such. -/
theorem keys_of_ne {r : KeyRecord} {nodeId : String} (h : r.nodeId ≠ nodeId) :
    r.keys nodeId = .error (.corrupt nodeId "record belongs to a different node id") := by
  rw [keys_eq, if_pos h]

/-- **A record is accepted for the keys that it holds**, and for nothing else. -/
theorem keys_eq_ok_iff {r : KeyRecord} {nodeId : String} {k : NodeKeys} :
    r.keys nodeId = .ok k ↔ r.Holds nodeId k := by
  rw [keys_eq]
  constructor
  · intro h
    split_ifs at h with hnode
    cases hsign : secret? r.signSecret with
    | none =>
      rw [hsign] at h
      cases h
    | some sign =>
    cases hkx : secret? r.kxSecret with
    | none =>
      rw [hsign, hkx] at h
      cases h
    | some kx =>
      simp only [hsign, hkx] at h
      split_ifs at h with hpublics
      obtain rfl := Except.ok.inj h
      obtain ⟨hsign, hsignlength⟩ := secret?_eq_some_iff.mp hsign
      obtain ⟨hkx, hkxlength⟩ := secret?_eq_some_iff.mp hkx
      exact ⟨⟨not_not.mp hnode, rfl⟩, ⟨hsign, hkx⟩, ⟨hsignlength, hkxlength⟩, hpublics⟩
  · rintro ⟨⟨hnode, rfl⟩, ⟨hsign, hkx⟩, hsized, hpublics⟩
    rw [if_neg (not_not.mpr hnode), secret?_eq_some_iff.mpr ⟨hsign, hsized.sign⟩,
      secret?_eq_some_iff.mpr ⟨hkx, hsized.kx⟩]
    exact if_pos hpublics

/-- The letters of a hexadecimal text are lower-case. -/
theorem toLower_toHex (b : Bytes) : b.toHex.toLower = b.toHex :=
  Bytes.ofHex?_eq_some_iff.mp (Bytes.ofHex?_toHex b)

/-- The record of some keys holds them. -/
theorem holds_ofKeys {k : NodeKeys} (h : k.Sized) : (ofKeys k).Holds k.nodeId k :=
  ⟨⟨rfl, rfl⟩, ⟨toLower_toHex _, toLower_toHex _⟩, h, ⟨rfl, rfl⟩⟩

/-! ### Written records -/

/-- A record is read as it was written. -/
theorem reads (r : KeyRecord) : Json.Reads (decoder.read Json.maxDepth) r.toJson r := by
  have hkxPublic := (Json.Fields.readsMembers_nil 126).present (f := .required "kx_pk" .text)
    (by simp) (Json.Decoder.reads_text 126 r.kxPublic)
  have hkxSecret := hkxPublic.present (f := .required "kx_sk" .text) (by simp)
    (Json.Decoder.reads_text 126 r.kxSecret)
  have hsignPublic := hkxSecret.present (f := .required "sign_pk" .text) (by simp)
    (Json.Decoder.reads_text 126 r.signPublic)
  have hsignSecret := hsignPublic.present (f := .required "sign_sk" .text) (by simp)
    (Json.Decoder.reads_text 126 r.signSecret)
  have hall := hsignSecret.present (f := .required "node_id" .text) (by simp)
    (Json.Decoder.reads_text 126 r.nodeId)
  exact Json.Decoder.reads_record hall _ _

/-- What is written of some keys. -/
def content (k : NodeKeys) : Content := .bytes (ofKeys k).toJson.pretty

/-- The file that is left of it. -/
def entry (k : NodeKeys) : Entry := .file (content k) fileMode

variable {t : FileTree} {p : Path} {nodeId : String} {k : NodeKeys}

/-- **Keys are loaded from what can be read as a record that holds them.** -/
theorem load_eq_ok_iff : NodeKeys.load p nodeId t = .ok k ↔ ∃ content record,
    t.read p = .ok content ∧ decoder.ofBytes content.toBytes = .ok record ∧
      record.Holds nodeId k := by
  unfold NodeKeys.load
  constructor
  · intro h
    split at h
    · cases h
    · rename_i content hread
      split at h
      · cases h
      · rename_i record hrecord
        exact ⟨content, record, hread, hrecord, keys_eq_ok_iff.mp h⟩
  · rintro ⟨content, record, hread, hrecord, hholds⟩
    simp only [hread, hrecord]
    exact keys_eq_ok_iff.mpr hholds

/-- What a record that was written is good for. -/
theorem load_of_entry {l : Location} (h : t.locate true p = .ok ⟨l, some (entry k)⟩)
    (nodeId : String) : NodeKeys.load p nodeId t = (ofKeys k).keys nodeId := by
  have hread : t.read p = .ok (content k) := FileTree.read_of_file h
  have hrecord : decoder.ofBytes (content k).toBytes = .ok (ofKeys k) :=
    Json.Decoder.ofBytes_pretty (reads (ofKeys k))
  simp only [NodeKeys.load, hread, hrecord]

/-! ### Names of files -/

/-- The name of the file of a node's record. -/
def fileName (nodeId : String) : String := String.ofList (nodeId.toList.map fileChar) ++ ".json"

theorem path_eq (dir : Path) (nodeId : String) : path dir nodeId = dir ++ [fileName nodeId] := rfl

/-- Two nodes have one file if their names become the same. -/
theorem fileName_eq_iff {a b : String} :
    fileName a = fileName b ↔ a.toList.map fileChar = b.toList.map fileChar := by
  simp only [fileName, ← String.toList_inj, String.toList_append, String.toList_ofList,
    List.append_cancel_right_eq]

/-- Letters and digits are in the middle of ASCII. -/
theorem toNat_of_isAlphanum {c : Char} (h : c.isAlphanum = true) :
    48 ≤ c.toNat ∧ c.toNat ≤ 122 := by
  have hranges : (decide (65 ≤ c.val ∧ c.val ≤ 90) ||
    (decide (97 ≤ c.val) && decide (c.val ≤ 122)) ||
    (decide (48 ≤ c.val) && decide (c.val ≤ 57))) = true := h
  have hranges : (65 ≤ c.toNat ∧ c.toNat ≤ 90 ∨ 97 ≤ c.toNat ∧ c.toNat ≤ 122) ∨
      48 ≤ c.toNat ∧ c.toNat ≤ 57 := by
    simpa [UInt32.le_iff_toNat_le] using hranges
  omega

/-- A character in a file name is one of ASCII, and not the one that ends a text. -/
theorem fileChar_ascii (c : Char) : (fileChar c).toNat < 128 ∧ fileChar c ≠ '\x00' := by
  unfold fileChar
  split_ifs with h
  · rcases h with halphanum | rfl | rfl
    · obtain ⟨hfirst, hlast⟩ := toNat_of_isAlphanum halphanum
      refine ⟨hlast.trans_lt (by decide), ?_⟩
      rintro rfl
      exact absurd hfirst (by decide)
    · decide
    · decide
  · decide

/-- The name of a file has one byte for each character. -/
theorem utf8ByteSize_fileName (nodeId : String) :
    (fileName nodeId).utf8ByteSize = nodeId.length + 5 := by
  have hchars (cs : List Char) : (String.ofList (cs.map fileChar)).utf8ByteSize = cs.length := by
    induction cs with
    | nil => rfl
    | cons c cs ih =>
      have hle : (fileChar c).val ≤ 0x7f :=
        UInt32.le_iff_toNat_le.mpr (Nat.le_of_lt_succ (fileChar_ascii c).1)
      have hsize : (String.ofList [fileChar c]).utf8ByteSize = 1 := by
        simpa using Char.utf8Size_eq_one_iff.mpr hle
      rw [List.map_cons, ← List.singleton_append, String.ofList_append,
        String.utf8ByteSize_append, ih, hsize, List.length_cons, Nat.add_comm]
  rw [fileName, String.utf8ByteSize_append, hchars, String.length_toList]
  rfl

theorem plain_fileName (nodeId : String) : Path.Plain (fileName nodeId) := by
  have hlength (c : String) (hc : c.utf8ByteSize < 5) : fileName nodeId ≠ c := by
    rintro rfl
    rw [utf8ByteSize_fileName] at hc
    omega
  exact ⟨hlength _ (by decide), hlength _ (by decide), hlength _ (by decide)⟩

theorem nul_fileName (nodeId : String) : '\x00' ∉ (fileName nodeId).toList := by
  rw [fileName, String.toList_append, String.toList_ofList]
  intro hmem
  rcases List.mem_append.mp hmem with hmem | hmem
  · obtain ⟨c, -, hc⟩ := List.mem_map.mp hmem
    exact (fileChar_ascii c).2 hc
  · exact absurd hmem (by decide)

end KeyRecord

end MeshNode
