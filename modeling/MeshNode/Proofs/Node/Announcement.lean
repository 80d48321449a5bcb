import MeshNode.Proofs.Base64
import MeshNode.Proofs.Body
import MeshNode.Proofs.Digest
import MeshNode.Proofs.Json.Unique
import MeshNode.Proofs.Node.Requests
import MeshNode.Trust.Record

/-!
# Announcements can be checked

Whoever asks a node for its announcement and for its public keys can check the one with the other,
whatever the node has served before, between and after (`announcement_verifies`): its keys and what
it announces stay as they are. The announcement comes with the digest of the capabilities it lists,
which is the digest that a report of the same capabilities brings, since listing the trimmed names
in order changes nothing about the set. That a signature is valid under the public key of its secret
is the law of the curve, and assumed of the message at hand.

The signature covers all there is to an announcement: no two announcements that differ in a field
other than the signature have the same bytes to sign (`signingBytes_eq_iff`).
-/

namespace MeshNode

namespace Announcement

/-! ### The bytes that are signed -/

theorem integral_signedFields (a : Announcement) : a.signedFields.Integral := by
  refine .obj fun f hf => ?_
  simp only [List.mem_cons, List.not_mem_nil, or_false] at hf
  rcases hf with rfl | rfl | rfl | rfl | rfl | rfl
  case inr.inr.inl =>
    refine .arr fun j hj => ?_
    obtain ⟨name, -, rfl⟩ := List.mem_map.mp hj
    exact .str
  case inr.inr.inr.inr.inr => exact .int
  all_goals exact .str

/-- **The bytes that are signed determine the announcement**, but for its signature. -/
theorem signingBytes_eq_iff (a b : Announcement) :
    a.signingBytes = b.signingBytes ↔
      a.nodeId = b.nodeId ∧ a.buildId = b.buildId ∧ a.capabilities = b.capabilities ∧
        a.capabilityHash = b.capabilityHash ∧ a.addr = b.addr ∧ a.time = b.time := by
  have hnames : Function.Injective (List.map Json.str) :=
    List.map_injective_iff.mpr fun _ _ => Json.str.inj
  rw [signingBytes, signingBytes, (integral_signedFields a).render_inj (integral_signedFields b)]
  simp only [signedFields, Json.obj.injEq, List.cons.injEq, Prod.mk.injEq, true_and, and_true,
    Json.str.injEq, Json.arr.injEq, Json.num.injEq, Number.int.injEq, hnames.eq_iff]
  tauto

/-- A signature does not cover itself. -/
theorem signingBytes_of_signature (a : Announcement) (signature : String) :
    signingBytes { a with signature } = a.signingBytes := rfl

theorem signature_signed (a : Announcement) (keys : NodeKeys) :
    (a.signed keys).signature = keys.sign (a.signed keys).signingBytes := by
  rw [signed, signingBytes_of_signature a (keys.sign a.signingBytes)]

variable (keys : NodeKeys) (buildId : String) (capabilities : List String) (addr : String)
  (now : Int)

theorem signature_ofNode : (ofNode keys buildId capabilities addr now).signature =
    keys.sign (ofNode keys buildId capabilities addr now).signingBytes :=
  signature_signed _ keys

/-- The capabilities that are announced are those of the node, in order. -/
theorem capabilities_ofNode : (ofNode keys buildId capabilities addr now).capabilities =
    Digest.capabilities capabilities := rfl

theorem capabilityHash_ofNode : (ofNode keys buildId capabilities addr now).capabilityHash =
    Digest.ofCapabilities (Digest.capabilities capabilities) := rfl

/-! ### Reading an announcement -/

/-- An announcement is read as it was written. -/
theorem reads {a : Announcement}
    (htime : -0x8000000000000000 ≤ a.time ∧ a.time ≤ 0x7fffffffffffffff) :
    Json.Reads (decoder.read Json.maxDepth) a.toJson a := by
  have hcapabilities : Json.Reads ((Json.Decoder.list .text).read 126)
      (.arr (a.capabilities.map .str)) a.capabilities :=
    Json.Decoder.reads_list <| List.forall₂_map_left_iff.mpr <|
      List.forall₂_same.mpr fun name _ => Json.Decoder.reads_text 125 name
  have hsignature := (Json.Fields.readsMembers_nil 126).present
    (f := .withDefault "signature" .text "") (by simp) (Json.Decoder.reads_text 126 a.signature)
  have htime := hsignature.present (f := .required "ts" .int64) (by simp)
    (Json.Decoder.reads_int64 htime 126)
  have haddr := htime.present (f := .required "addr" .text) (by simp)
    (Json.Decoder.reads_text 126 a.addr)
  have hhash := haddr.present (f := .required "capability_hash" .text) (by simp)
    (Json.Decoder.reads_text 126 a.capabilityHash)
  have hlist := hhash.present (f := .required "capabilities" (.list .text)) (by simp) hcapabilities
  have hbuild := hlist.present (f := .required "build_id" .text) (by simp)
    (Json.Decoder.reads_text 126 a.buildId)
  have hall := hbuild.present (f := .required "node_id" .text) (by simp)
    (Json.Decoder.reads_text 126 a.nodeId)
  exact Json.Decoder.reads_record hall _ _

end Announcement

/-- Public keys are read as they were written. -/
theorem PublicKeys.reads (k : PublicKeys) :
    Json.Reads (decoder.read Json.maxDepth) k.toJson k := by
  have hkx := (Json.Fields.readsMembers_nil 126).present (f := .required "kx_pub" .text)
    (by simp) (Json.Decoder.reads_text 126 k.kxPub)
  have hsign := hkx.present (f := .required "sign_pub" .text) (by simp)
    (Json.Decoder.reads_text 126 k.signPub)
  have hall := hsign.present (f := .required "node_id" .text) (by simp)
    (Json.Decoder.reads_text 126 k.nodeId)
  exact Json.Decoder.reads_record hall _ _

namespace Node

variable {n : Node} {r : Http.Request} {o : Occasion}

/-! ### What stays -/

/-- Two states of a node, with its keys and what it announces. -/
structure Alike (n n' : Node) : Prop where
  keys : n'.keys = n.keys
  info : n'.info = n.info

theorem Alike.refl (n : Node) : n.Alike n := ⟨rfl, rfl⟩

/-- Neither sessions nor jobs have to do with the keys of a node or with what it announces. -/
theorem lasting_alike (n : Node) : Lasting n.Alike :=
  ⟨fun _ h => ⟨h.keys, h.info⟩, fun _ h => ⟨h.keys, h.info⟩⟩

/-- The node after it has served some requests. -/
def after (n : Node) (requests : List (Http.Request × Occasion)) : Node :=
  requests.foldl (fun n x => (n.serve x.1 x.2).2) n

/-- Whatever a node serves, its keys and what it announces stay. -/
theorem alike_after (n : Node) (requests : List (Http.Request × Occasion)) :
    n.Alike (n.after requests) :=
  List.foldlRecOn requests _ (.refl n) fun _ h x _ => (lasting_alike n).serve h x.1 x.2

/-! ### What is shown -/

/-- A request to show something. -/
structure Gets (n : Node) (r : Http.Request) (name : String) : Prop where
  method : r.method = "GET"
  target : Http.segments r.target = [name]
  length : ¬ r.AnnouncesTooMuch n.maxBody

theorem Gets.announcement (h : n.Gets r "announce") :
    (n.serve r o).1 = .ofJson 200 (n.announcement o).toJson := by
  simp only [serve, if_neg h.length, h.target, Api.whenRead, if_pos h.method]

theorem Gets.publicKeys (h : n.Gets r "pubkeys") :
    (n.serve r o).1 = .ofJson 200 n.keys.publicKeys.toJson := by
  simp only [serve, if_neg h.length, h.target, Api.whenRead, if_pos h.method]

/-- Nodes alike have the same to announce. -/
theorem Alike.announcement {n n' : Node} (h : n.Alike n') (o : Occasion) :
    n'.announcement o = n.announcement o := by
  rw [Node.announcement, Node.announcement, h.keys, h.info]

/-- **Announcements can be checked.** The announcement that a node shows is read by a client as it
was made. Its digest is that of a report of the same capabilities, and that of the capabilities in
it. With the public key that the node shows, before or after, its signature is valid for the bytes
that the client computes from what it has read. -/
theorem announcement_verifies (n : Node) (earlier earlier' : List (Http.Request × Occasion))
    {r r' : Http.Request} (hannounce : (n.after earlier).Gets r "announce")
    (hkeys : (n.after earlier').Gets r' "pubkeys") {o : Occasion} (o' : Occasion)
    (ho : -0x8000000000000000 ≤ o.wallMillis ∧ o.wallMillis ≤ 0x7fffffffffffffff)
    (hcurve : Ed25519.verify n.keys.signPublic (n.announcement o).signingBytes
      (Ed25519.sign n.keys.signSecret (n.announcement o).signingBytes) = true) :
    ∃ a keys key signature,
      ((n.after earlier).serve r o).1.Holds Announcement.decoder a ∧
      ((n.after earlier').serve r' o').1.Holds PublicKeys.decoder keys ∧
      a = n.announcement o ∧ keys = n.keys.publicKeys ∧
      (∀ buildId runtimeInfo, a.capabilityHash =
        (AttestationReport.ofCapabilities buildId n.info.capabilities runtimeInfo).capabilityHash) ∧
      a.capabilityHash = Digest.ofCapabilities a.capabilities ∧
      Base64.decodeExactly? 32 keys.signPub = some key ∧
      Base64.decodeExactly? 64 a.signature = some signature ∧
      Ed25519.verify key a.signingBytes signature = true := by
  have halike := alike_after n earlier
  have halike' := alike_after n earlier'
  have hshown : ((n.after earlier).serve r o).1.Holds Announcement.decoder (n.announcement o) := by
    rw [hannounce.announcement, halike.announcement]
    exact Http.Response.holds_ofJson (Announcement.reads ho)
  have hshown' : ((n.after earlier').serve r' o').1.Holds PublicKeys.decoder n.keys.publicKeys := by
    rw [hkeys.publicKeys, halike'.keys]
    exact Http.Response.holds_ofJson (PublicKeys.reads _)
  have hkey : Base64.decodeExactly? 32 n.keys.publicKeys.signPub = some n.keys.signPublic :=
    Base64.decodeExactly?_encode (Ed25519.length_publicKey _)
  have hsignature : Base64.decodeExactly? 64 (n.announcement o).signature =
      some (Ed25519.sign n.keys.signSecret (n.announcement o).signingBytes) := by
    rw [announcement, Announcement.signature_ofNode]
    exact Base64.decodeExactly?_encode (Ed25519.length_sign _ _)
  -- The capabilities that are announced are a listing already.
  have hcapabilities : (n.announcement o).capabilities = Digest.capabilities n.info.capabilities :=
    Announcement.capabilities_ofNode _ _ _ _ _
  have hhash : (n.announcement o).capabilityHash =
      Digest.ofCapabilities (Digest.capabilities n.info.capabilities) :=
    Announcement.capabilityHash_ofNode _ _ _ _ _
  refine ⟨_, _, _, _, hshown, hshown', rfl, rfl, fun buildId runtimeInfo => ?_, ?_, hkey,
    hsignature, hcurve⟩
  · rw [hhash, Digest.ofCapabilities_capabilities, AttestationReport.ofCapabilities]
  · rw [hhash, hcapabilities]

/-! ### A node that is asked for both -/

private def herald : Node where
  keys := ⟨"node", List.replicate 32 1, List.replicate 32 2⟩
  info := ⟨"build", [" write ", "probe", "write"], "10.0.0.7:8700"⟩
  runner := ⟨[107], ⟨[]⟩, .default⟩
  workspace := ⟨.inMemory, .empty⟩
  sessions := .empty .default
  maxBody := 4096
  started := 0

private def noon : Occasion := ⟨1700000000000, 5, "r", []⟩

private def reading (target : String) : Http.Request := ⟨"GET", target, none, none, []⟩

private theorem gets_announce : herald.Gets (reading "/announce") "announce" :=
  ⟨rfl, by decide, (by decide : ¬ 4096 < 0)⟩

private theorem gets_pubkeys :
    (herald.after [(reading "/status", noon)]).Gets (reading "/pubkeys") "pubkeys" :=
  ⟨rfl, by decide, (by decide : ¬ 4096 < 0)⟩

/-- A node of which the law of the curve is computed, asked for its status in between. -/
theorem announcement_verifies_of_node :
    ∃ a keys key signature,
      (herald.serve (reading "/announce") noon).1.Holds Announcement.decoder a ∧
      ((herald.after [(reading "/status", noon)]).serve (reading "/pubkeys") noon).1.Holds
        PublicKeys.decoder keys ∧
      a.capabilities = ["probe", "write"] ∧
      Base64.decodeExactly? 32 keys.signPub = some key ∧
      Base64.decodeExactly? 64 a.signature = some signature ∧
      Ed25519.verify key a.signingBytes signature = true := by
  have hcurve : Ed25519.verify herald.keys.signPublic (herald.announcement noon).signingBytes
      (Ed25519.sign herald.keys.signSecret (herald.announcement noon).signingBytes) = true := by
    decide +kernel
  obtain ⟨a, keys, key, signature, hshown, hshown', rfl, -, -, -, hkey, hsignature, hverify⟩ :=
    announcement_verifies herald [] [(reading "/status", noon)] gets_announce gets_pubkeys noon
      (by decide) hcurve
  have hcapabilities : Digest.capabilities herald.info.capabilities = ["probe", "write"] := by
    decide +kernel
  exact ⟨_, keys, key, signature, hshown, hshown', hcapabilities, hkey, hsignature, hverify⟩

end Node

end MeshNode
