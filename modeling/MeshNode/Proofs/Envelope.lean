import MeshNode.Envelope
import MeshNode.Proofs.Base64
import MeshNode.Proofs.Json.Records

/-!
# Sealed envelopes survive the wire

An envelope is read from its written form as it was, whatever its texts are, if its clock is an
integer of 64 bits and the value beside the ciphertext, which nests one level less deep than is
read, is not null. Sealing makes such envelopes. What was sealed is opened from them: the nonce and
the ciphertext are decoded to what was encoded, and a ciphertext is as long as its payload and the
tag, so that no payload within the limit is too long once it is encoded.

The bound on the text that belongs to a limit is computed in machine words. What it has room for
(`Admits`) is at least what the limit promises as long as nothing wraps around (`Fits`). Under the
greatest limit that a machine word holds there is not even room for the tag.
-/

namespace MeshNode

namespace Envelope

/-- Envelopes that are read as they were written. -/
structure Writable (e : Envelope) : Prop where
  ts : -0x8000000000000000 ≤ e.ts ∧ e.ts ≤ 0x7fffffffffffffff
  aad : ∀ j ∈ e.aad, j ≠ .null ∧ j.Readable 126

/-- An envelope is read as it was written. -/
theorem Writable.ofBytes_render {e : Envelope} (h : e.Writable) :
    ofBytes e.toJson.render = .ok e := by
  obtain ⟨ct, nonce, ts, aad⟩ := e
  have hct := Json.Decoder.reads_text 126 ct
  have hnonce := Json.Decoder.reads_text 126 nonce
  have hts := Json.Decoder.reads_int64 h.ts 126
  have hread : Json.Reads (decoder.read Json.maxDepth) (toJson ⟨ct, nonce, ts, aad⟩)
      ⟨ct, nonce, ts, aad⟩ := by
    cases aad with
    | none =>
      have haad := (Json.Fields.readsMembers_nil 126).absent
        (f := .omissible "aad" .value) (by simp) rfl
      have hlast := haad.present (f := .required "ts" .int64) (by simp) hts
      have hmiddle := hlast.present (f := .required "nonce" .text) (by simp) hnonce
      have hall := hmiddle.present (f := .required "ct" .text) (by simp) hct
      exact Json.Decoder.reads_record hall _ _
    | some j =>
      obtain ⟨hnull, hreadable⟩ := h.aad j rfl
      have hvalue := Json.Decoder.reads_option_some (Json.Decoder.reads_value hreadable) hnull
      have haad := (Json.Fields.readsMembers_nil 126).present
        (f := .omissible "aad" .value) (by simp) hvalue
      have hlast := haad.present (f := .required "ts" .int64) (by simp) hts
      have hmiddle := hlast.present (f := .required "nonce" .text) (by simp) hnonce
      have hall := hmiddle.present (f := .required "ct" .text) (by simp) hct
      exact Json.Decoder.reads_record hall _ _
  rw [ofBytes, Json.Decoder.ofBytes_render hread]

/-- What is sealed beside a payload is not null. -/
theorem mem_of_mem_presentAad {aad : Option Json} {j : Json} (h : j ∈ presentAad aad) :
    j ≠ .null ∧ j ∈ aad := by
  unfold presentAad at h
  split at h
  · cases h
  · rename_i hnull
    exact ⟨fun heq => hnull (heq ▸ h), h⟩

/-- Sealing makes envelopes that are read as they were written. -/
theorem writable_sealed (key : SessionKey) (nonce : Bytes) {now : Int}
    (hnow : -0x8000000000000000 ≤ now ∧ now ≤ 0x7fffffffffffffff) (plaintext : Bytes)
    {aad : Option Json} (haad : ∀ j ∈ aad, j.Readable 126) :
    (sealed key nonce now plaintext aad).Writable :=
  ⟨hnow, fun j hj => (mem_of_mem_presentAad hj).imp_right (haad j)⟩

/-! ### The bound on the text -/

/-- Nothing wraps around when the bound on the text is computed from a limit. -/
def Fits (limit : Nat) : Prop := (limit + Aead.tagLength + 2) / 3 * 4 < UInt64.size

instance (limit : Nat) : Decidable (Fits limit) := inferInstanceAs (Decidable (_ < _))

/-- The bound on the text has room for what a payload of some bytes is encrypted to. -/
def Admits (limit size : Nat) : Prop := size + Aead.tagLength ≤ maxEncoded limit / 4 * 3

instance (limit size : Nat) : Decidable (Admits limit size) := inferInstanceAs (Decidable (_ ≤ _))

theorem maxEncoded_of_fits {limit : Nat} (h : Fits limit) :
    maxEncoded limit = (limit + Aead.tagLength + 2) / 3 * 4 := by
  have hsize : UInt64.size = 0x10000000000000000 := rfl
  rw [Fits, hsize] at h
  rw [maxEncoded, hsize, Nat.mod_eq_of_lt (a := limit + Aead.tagLength) (by omega),
    Nat.mod_eq_of_lt h]

/-- A bound that wraps around is shorter than it should be. -/
theorem maxEncoded_le (limit : Nat) : maxEncoded limit ≤ (limit + Aead.tagLength + 2) / 3 * 4 := by
  have hsum : (limit + Aead.tagLength) % UInt64.size ≤ limit + Aead.tagLength := Nat.mod_le _ _
  have hproduct := Nat.mod_le (((limit + Aead.tagLength) % UInt64.size + 2) / 3 * 4) UInt64.size
  rw [maxEncoded]
  omega

/-- A limit for which nothing wraps around has room for all that it allows. -/
theorem admits_of_le {limit size : Nat} (hfits : Fits limit) (hle : size ≤ limit) :
    Admits limit size := by
  rw [Admits, maxEncoded_of_fits hfits]
  omega

/-- The bound is kept by the text of a ciphertext exactly if it has room for the payload. -/
theorem utf8ByteSize_le_maxEncoded_iff {s : String} {ciphertext : Bytes} {limit size : Nat}
    (h : Base64.decode s = .ok ciphertext) (hlength : ciphertext.length = size + Aead.tagLength) :
    s.utf8ByteSize ≤ maxEncoded limit ↔ Admits limit size := by
  have hsize : UInt64.size = 0x10000000000000000 := rfl
  -- The bound is a number of whole quanta, also where it has wrapped around.
  have hquanta : maxEncoded limit = maxEncoded limit / 4 * 4 := by
    rw [maxEncoded, hsize]
    omega
  rw [hquanta, Base64.utf8ByteSize_le_iff_of_decode h, hlength, Admits]

/-! ### Opening -/

/-- A ciphertext text that is too long is refused before it is decoded. -/
theorem open?_of_large {key : SessionKey} {e : Envelope} {limit : Nat} {nonce : Bytes}
    (hnonce : Base64.decodeExactly? Aead.nonceLength e.nonce = some nonce)
    (hsize : maxEncoded limit < e.ct.utf8ByteSize) :
    open? key e limit =
      let size := e.ct.utf8ByteSize
      let most := maxEncoded limit
      .error (.malformed s!"ciphertext too large: {size} encoded bytes (max {most})") := by
  simp only [open?, hnonce, if_pos hsize]

/-- What is sealed under one key and opened under another is refused where there is no room. -/
theorem open?_sealed_of_not_admits (key key' : SessionKey) {nonce : Bytes}
    (hnonce : nonce.length = Aead.nonceLength) (now : Int) {plaintext : Bytes} (aad : Option Json)
    {limit : Nat} (hlimit : ¬ Admits limit plaintext.length) :
    ∃ text, open? key (sealed key' nonce now plaintext aad) limit = .error (.malformed text) := by
  have hlength := Aead.length_encrypt key'.bytes nonce (aadBytes (presentAad aad)) plaintext
  have hsize : maxEncoded limit < (Base64.encode
      (Aead.encrypt key'.bytes nonce (aadBytes (presentAad aad)) plaintext)).utf8ByteSize := by
    rw [← Nat.not_le, utf8ByteSize_le_maxEncoded_iff (Base64.decode_encode _) hlength]
    exact hlimit
  exact ⟨_, open?_of_large (Base64.decodeExactly?_encode hnonce) hsize⟩

/-- What was sealed is opened where there is room. -/
theorem open?_sealed (key : SessionKey) {nonce : Bytes} (hnonce : nonce.length = Aead.nonceLength)
    (now : Int) {plaintext : Bytes} (aad : Option Json) {limit : Nat}
    (hlimit : Admits limit plaintext.length) :
    open? key (sealed key nonce now plaintext aad) limit = .ok plaintext := by
  have hlength := Aead.length_encrypt key.bytes nonce (aadBytes (presentAad aad)) plaintext
  have hsize := (utf8ByteSize_le_maxEncoded_iff (Base64.decode_encode _) hlength).mpr hlimit
  have htag : ¬ (Aead.encrypt key.bytes nonce (aadBytes (presentAad aad)) plaintext).length <
      Aead.tagLength := by
    rw [hlength]
    omega
  simp only [open?, sealed, Base64.decodeExactly?_encode hnonce, if_neg (Nat.not_lt.mpr hsize),
    Base64.decode_encode, if_neg htag, Aead.decrypt_encrypt]

/-- **Sealed envelopes survive the wire**: an envelope is read as it was sealed, and what was sealed
is opened from it under every limit that it does not exceed, if the bound for the limit does not
wrap around. A null beside the payload is the same as nothing. -/
theorem open?_ofBytes_sealed (key : SessionKey) (nonce : Bytes)
    (hnonce : nonce.length = Aead.nonceLength) (now : Int)
    (hnow : -0x8000000000000000 ≤ now ∧ now ≤ 0x7fffffffffffffff) (plaintext : Bytes)
    (aad : Option Json) (haad : ∀ j ∈ aad, j.Readable 126) (limit : Nat) (hfits : Fits limit)
    (hlimit : plaintext.length ≤ limit) :
    (∃ e, ofBytes (sealed key nonce now plaintext aad).toJson.render = .ok e ∧
      e = sealed key nonce now plaintext aad ∧ open? key e limit = .ok plaintext) ∧
    sealed key nonce now plaintext (some .null) = sealed key nonce now plaintext none :=
  ⟨⟨_, (writable_sealed key nonce hnow plaintext haad).ofBytes_render, rfl,
    open?_sealed key hnonce now aad (admits_of_le hfits hlimit)⟩, rfl⟩

/-- A payload of two bytes beside a value with a list in it is opened under a limit of two. -/
theorem open?_ofBytes_sealed_at_limit :
    (Json.obj [("a", .arr [.null, .int (-1)]), ("b", .str "q\"")]).Readable 126 ∧
      (∃ e, ofBytes (sealed ⟨List.replicate 32 66⟩ (List.replicate 24 7) 1700000000000 [104, 105]
          (some (.obj [("a", .arr [.null, .int (-1)]), ("b", .str "q\"")]))).toJson.render = .ok e ∧
        open? ⟨List.replicate 32 66⟩ e 2 = .ok [104, 105]) := by
  have haad : (Json.obj [("a", .arr [.null, .int (-1)]), ("b", .str "q\"")]).Readable 126 := by
    refine .obj (by decide) fun f hf => ?_
    simp only [List.mem_cons, List.not_mem_nil, or_false] at hf
    rcases hf with rfl | rfl
    · refine .arr fun j hj => ?_
      simp only [List.mem_cons, List.not_mem_nil, or_false] at hj
      rcases hj with rfl | rfl
      · exact .null
      · exact .int (by decide)
    · exact .str
  obtain ⟨⟨e, hread, -, hopen⟩, -⟩ := open?_ofBytes_sealed ⟨List.replicate 32 66⟩
    (List.replicate 24 7) (by decide) 1700000000000 (by decide) [104, 105] _
    (fun j hj => Option.some.inj hj ▸ haad) 2 (by decide) (by decide)
  exact ⟨haad, e, hread, hopen⟩

/-- Under the greatest limit that a machine word holds, the bound has wrapped around, and not even
an empty payload is opened. -/
theorem not_forall_open?_sealed :
    ¬ ∀ (key : SessionKey) (nonce : Bytes) (now : Int) (plaintext : Bytes) (aad : Option Json)
        (limit : Nat), nonce.length = Aead.nonceLength →
      -0x8000000000000000 ≤ now ∧ now ≤ 0x7fffffffffffffff → (∀ j ∈ aad, j.Readable 126) →
        plaintext.length ≤ limit → limit < UInt64.size →
          open? key (sealed key nonce now plaintext aad) limit = .ok plaintext := by
  intro hall
  have hopen := hall ⟨List.replicate 32 66⟩ (List.replicate 24 7) 1700000000000 [] none
    (UInt64.size - 1) (by decide) (by decide) (fun j hj => absurd hj (Option.not_mem_none j))
    (Nat.zero_le _) (by decide)
  have hnonce : (List.replicate 24 7 : Bytes).length = Aead.nonceLength := by decide
  have hlarge : ¬ Admits (UInt64.size - 1) ([] : Bytes).length := by decide
  obtain ⟨text, hrefuse⟩ := open?_sealed_of_not_admits ⟨List.replicate 32 66⟩
    ⟨List.replicate 32 66⟩ hnonce 1700000000000 none hlarge
  rw [hrefuse] at hopen
  cases hopen

end Envelope

end MeshNode
