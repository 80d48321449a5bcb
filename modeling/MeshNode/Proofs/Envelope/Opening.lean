import MeshNode.Channel
import MeshNode.Proofs.Envelope

/-!
# What opens

An envelope opens to a payload exactly if its nonce is one, its ciphertext is the text of what the
payload is encrypted to, and the bound has room for the payload (`open?_eq_ok_iff`). From this
follows how the limit on payloads is kept and how little of an envelope can be changed.

The limit is held against the length of the text, in whole quanta of four symbols for three bytes.
The last of them is counted in full, though the text of a payload at the limit may end within it, so
that up to two bytes more than the limit are opened: the longest payload is
`limit + (2 - limit % 3)`, which is the limit itself only for every third limit. A bound that has
wrapped around has room for less.

What is encrypted ends in the tag, and of all tags beside a ciphertext one opens. To change nothing
but the tag changes the length of neither the text nor the bytes, so that what is wrong with such an
envelope is that it is not authentic.
-/

namespace MeshNode

namespace Envelope

variable {key : SessionKey} {e : Envelope} {limit : Nat} {plaintext : Bytes}

/-- The longest payload that is opened under a limit for which nothing wraps around. -/
def longest (limit : Nat) : Nat := limit + (2 - limit % 3)

/-- No bound has room for more than the longest payload. -/
theorem Admits.le_longest {size : Nat} (h : Admits limit size) : size ≤ longest limit := by
  have hbound := maxEncoded_le limit
  rw [Admits] at h
  rw [Aead.tagLength] at h hbound
  rw [longest]
  omega

theorem admits_iff_le_longest (hfits : Fits limit) {size : Nat} :
    Admits limit size ↔ size ≤ longest limit := by
  rw [Admits, maxEncoded_of_fits hfits, longest, Aead.tagLength]
  omega

/-- **What opens**: an envelope with the text of what a payload is encrypted to, if the bound has
room for the payload. -/
theorem open?_eq_ok_iff :
    open? key e limit = .ok plaintext ↔
      ∃ nonce, Base64.decodeExactly? Aead.nonceLength e.nonce = some nonce ∧
        Base64.decode e.ct = .ok (Aead.encrypt key.bytes nonce (aadBytes e.aad) plaintext) ∧
        Admits limit plaintext.length := by
  constructor
  · intro h
    unfold open? at h
    split at h
    · cases h
    · rename_i nonce hnonce
      split_ifs at h with hsize
      cases hdecode : Base64.decode e.ct with
      | error error => simp [hdecode] at h
      | ok ciphertext =>
        simp only [hdecode] at h
        split_ifs at h with htag
        cases hdecrypt : Aead.decrypt key.bytes nonce (aadBytes e.aad) ciphertext with
        | none => simp [hdecrypt] at h
        | some opened =>
          rw [hdecrypt] at h
          cases h
          have hencrypt := Aead.encrypt_of_decrypt hdecrypt
          have hlength : ciphertext.length = plaintext.length + Aead.tagLength := by
            rw [← hencrypt, Aead.length_encrypt]
          refine ⟨nonce, hnonce, by rw [hencrypt], ?_⟩
          exact (utf8ByteSize_le_maxEncoded_iff hdecode hlength).mp (Nat.not_lt.mp hsize)
  · rintro ⟨nonce, hnonce, hdecode, hadmits⟩
    have hlength := Aead.length_encrypt key.bytes nonce (aadBytes e.aad) plaintext
    have hsize := (utf8ByteSize_le_maxEncoded_iff hdecode hlength).mpr hadmits
    have htag : ¬ (Aead.encrypt key.bytes nonce (aadBytes e.aad) plaintext).length <
        Aead.tagLength := by
      rw [hlength]
      omega
    simp only [open?, hnonce, if_neg (Nat.not_lt.mpr hsize), hdecode, if_neg htag,
      Aead.decrypt_encrypt]

/-! ### The limit -/

/-- **The limit on payloads is kept up to two bytes**: no envelope opens to more than the longest
payload, beyond which a channel refuses what was sealed as malformed, whoever sealed it. If nothing
wraps around, what was sealed is opened up to the longest payload, and the limit itself is kept
exactly if it leaves a remainder of two by three. -/
theorem open?_limit (key : SessionKey) (limit : Nat) :
    (∀ e plaintext, open? key e limit = .ok plaintext → plaintext.length ≤ longest limit) ∧
    (∀ (a b : Channel) nonce now plaintext aad, nonce.length = Aead.nonceLength →
      longest b.maxPayload < plaintext.length →
      ∃ text, b.open? (a.sealed nonce now plaintext aad) = .error (.malformed text)) ∧
    (Fits limit →
      (∀ nonce now plaintext aad, nonce.length = Aead.nonceLength →
        (open? key (sealed key nonce now plaintext aad) limit = .ok plaintext ↔
          plaintext.length ≤ longest limit)) ∧
      ((∀ e plaintext, open? key e limit = .ok plaintext → plaintext.length ≤ limit) ↔
        limit % 3 = 2)) := by
  have hle (e : Envelope) (plaintext : Bytes) (h : open? key e limit = .ok plaintext) :
      plaintext.length ≤ longest limit := by
    obtain ⟨_, _, _, hadmits⟩ := open?_eq_ok_iff.mp h
    exact hadmits.le_longest
  refine ⟨hle, fun a b nonce now plaintext aad hnonce hlong => ?_, fun hfits => ⟨?_, ?_, ?_⟩⟩
  · exact open?_sealed_of_not_admits b.key a.key hnonce now aad fun hadmits =>
      Nat.not_le.mpr hlong hadmits.le_longest
  · exact fun nonce now plaintext aad hnonce => ⟨hle _ plaintext, fun hlong =>
      open?_sealed key hnonce now aad ((admits_iff_le_longest hfits).mpr hlong)⟩
  · -- A payload of the greatest length that is opened may not exceed the limit.
    intro hlimit
    have hnonce : (List.replicate Aead.nonceLength (0 : UInt8)).length = Aead.nonceLength :=
      List.length_replicate
    have hadmits : Admits limit (List.replicate (longest limit) (0 : UInt8)).length :=
      (admits_iff_le_longest hfits).mpr (Nat.le_of_eq List.length_replicate)
    have hmost := hlimit _ _ (open?_sealed key hnonce 0 none hadmits)
    rw [List.length_replicate, longest] at hmost
    omega
  · intro hrest e plaintext h
    have hlong := hle e plaintext h
    rwa [longest, hrest] at hlong

/-- Under a limit of 64 bytes, 65 are opened and 66 refused. -/
theorem open?_limit_of_sixty_four :
    (List.replicate 24 (7 : UInt8)).length = Aead.nonceLength ∧
      open? ⟨List.replicate 32 66⟩ (sealed ⟨List.replicate 32 66⟩ (List.replicate 24 7)
        1700000000000 (List.replicate 65 97) none) 64 = .ok (List.replicate 65 97) ∧
      ∃ text, Channel.open? ⟨⟨List.replicate 32 66⟩, "s", .responder, 64⟩
        (Channel.sealed ⟨⟨List.replicate 32 66⟩, "s", .initiator, 64⟩ (List.replicate 24 7)
          1700000000000 (List.replicate 66 97) none) = .error (.malformed text) := by
  have hnonce : (List.replicate 24 (7 : UInt8)).length = Aead.nonceLength := by decide
  obtain ⟨-, hrefuse, hexact⟩ := open?_limit ⟨List.replicate 32 66⟩ 64
  have hopen := (hexact (by decide)).1
  exact ⟨hnonce, (hopen _ _ _ _ hnonce).mpr (by decide), hrefuse _ _ _ _ _ _ hnonce (by decide)⟩

/-- A payload that is too long by one byte is opened. -/
theorem not_forall_length_le_limit :
    ¬ ∀ (key : SessionKey) (e : Envelope) (limit : Nat) (plaintext : Bytes),
      open? key e limit = .ok plaintext → plaintext.length ≤ limit := by
  intro h
  have hopen : open? ⟨List.replicate 32 66⟩ (sealed ⟨List.replicate 32 66⟩ (List.replicate 24 7)
      1700000000000 (List.replicate 65 97) none) 64 = .ok (List.replicate 65 97) :=
    open?_sealed _ (by decide) _ _ (by decide)
  exact absurd (h _ _ _ _ hopen) (by decide)

/-! ### The tag -/

/-- Of all tags beside a ciphertext the right one opens, and with any other the envelope is not
authentic. -/
theorem open?_of_append {nonce body tag : Bytes}
    (hnonce : Base64.decodeExactly? Aead.nonceLength e.nonce = some nonce)
    (hct : Base64.decode e.ct = .ok (body ++ tag)) (htag : tag.length = Aead.tagLength)
    (hadmits : Admits limit body.length) :
    open? key e limit =
      if tag = Aead.tag key.bytes nonce (aadBytes e.aad) body then
        .ok (Aead.stream key.bytes nonce body)
      else .error .authenticationFailed := by
  have hlength : (body ++ tag).length = body.length + Aead.tagLength := by
    rw [List.length_append, htag]
  have hsize := (utf8ByteSize_le_maxEncoded_iff hct hlength).mpr hadmits
  have hshort : ¬ (body ++ tag).length < Aead.tagLength := by
    rw [hlength]
    omega
  have hcut : (body ++ tag).length - Aead.tagLength = body.length := by
    rw [hlength, Nat.add_sub_cancel]
  simp only [open?, hnonce, if_neg (Nat.not_lt.mpr hsize), hct, if_neg hshort, Aead.decrypt, hcut,
    List.take_left, List.drop_left]
  split_ifs <;> rfl

/-- The envelopes differ in nothing that is opened but the tag. -/
structure TagChanged (e e' : Envelope) : Prop where
  nonce : e'.nonce = e.nonce
  aad : e'.aad = e.aad
  ct : ∃ body tag tag', tag.length = Aead.tagLength ∧ tag'.length = Aead.tagLength ∧ tag' ≠ tag ∧
    Base64.decode e.ct = .ok (body ++ tag) ∧ Base64.decode e'.ct = .ok (body ++ tag')

/-- **What opens is a sealing of what it opens to**: its ciphertext is the text, but for padding, of
what the payload is encrypted to. So beside a ciphertext that the bound has room for there is
exactly one tag that opens, and an envelope of which nothing but the tag was changed is not
authentic. -/
theorem open?_exact (key : SessionKey) (limit : Nat) :
    (∀ e plaintext, open? key e limit = .ok plaintext →
      ∃ nonce, Base64.decodeExactly? Aead.nonceLength e.nonce = some nonce ∧
        ∃ k ≤ 2, e.ct = Base64.encode (Aead.encrypt key.bytes nonce (aadBytes e.aad) plaintext) ++
          String.ofList (List.replicate k '=')) ∧
    (∀ nonce body aad ts, nonce.length = Aead.nonceLength → Admits limit body.length →
      ∃! tag, tag.length = Aead.tagLength ∧ ∃ plaintext,
        open? key ⟨Base64.encode (body ++ tag), Base64.encode nonce, ts, aad⟩ limit =
          .ok plaintext) ∧
    (∀ e e' plaintext, open? key e limit = .ok plaintext → TagChanged e e' →
      open? key e' limit = .error .authenticationFailed) := by
  refine ⟨fun e plaintext h => ?_, fun nonce body aad ts hnonce hadmits => ?_,
    fun e e' plaintext h hchanged => ?_⟩
  · obtain ⟨nonce, hnonce, hdecode, -⟩ := open?_eq_ok_iff.mp h
    obtain ⟨k, hk, heq⟩ := Base64.eq_encode_of_decode hdecode
    have htwo : k ≤ 2 := by
      rw [Base64.padWidth] at hk
      omega
    exact ⟨nonce, hnonce, k, htwo, heq⟩
  · have hopen (tag : Bytes) (htag : tag.length = Aead.tagLength) :
        open? key ⟨Base64.encode (body ++ tag), Base64.encode nonce, ts, aad⟩ limit =
          if tag = Aead.tag key.bytes nonce (aadBytes aad) body then
            .ok (Aead.stream key.bytes nonce body)
          else .error .authenticationFailed :=
      open?_of_append (Base64.decodeExactly?_encode hnonce) (Base64.decode_encode _) htag hadmits
    refine ⟨Aead.tag key.bytes nonce (aadBytes aad) body,
      ⟨Aead.length_tag _ _ _ _, Aead.stream key.bytes nonce body, ?_⟩, ?_⟩
    · rw [hopen _ (Aead.length_tag _ _ _ _), if_pos rfl]
    · rintro tag ⟨htag, plaintext, h⟩
      rw [hopen tag htag] at h
      split_ifs at h with hright
      exact hright
  · obtain ⟨hsame, haad, body, tag, tag', htag, htag', hne, hct, hct'⟩ := hchanged
    obtain ⟨nonce, hnonce, hdecode, hadmits⟩ := open?_eq_ok_iff.mp h
    have hbody : Admits limit body.length := by
      have hlength := congrArg List.length (Except.ok.inj (hct.symm.trans hdecode))
      rw [List.length_append, htag, Aead.length_encrypt] at hlength
      rwa [Nat.add_right_cancel hlength]
    have hright := h.symm.trans (open?_of_append hnonce hct htag hbody)
    split_ifs at hright with heq
    rw [open?_of_append (hsame ▸ hnonce) hct' htag' hbody, haad, if_neg (heq ▸ hne)]

/-- An envelope opens, and with a tag of zeros in place of its own it is not authentic. -/
theorem open?_exact_of_zeroed_tag :
    ∃ e e', open? ⟨List.replicate 32 66⟩ e 2 = .ok [104, 105] ∧ TagChanged e e' ∧
      open? ⟨List.replicate 32 66⟩ e' 2 = .error .authenticationFailed := by
  have hnonce : (List.replicate 24 (7 : UInt8)).length = Aead.nonceLength := by decide
  have hopen : open? ⟨List.replicate 32 66⟩ (sealed ⟨List.replicate 32 66⟩ (List.replicate 24 7)
      1700000000000 [104, 105] none) 2 = .ok [104, 105] :=
    open?_sealed _ hnonce _ _ (by decide)
  let body := Aead.stream (List.replicate 32 66) (List.replicate 24 7) [104, 105]
  have hright : List.replicate 16 0 ≠
      Aead.tag (List.replicate 32 66) (List.replicate 24 7) [] body := by decide +kernel
  have hchanged : TagChanged
      (sealed ⟨List.replicate 32 66⟩ (List.replicate 24 7) 1700000000000 [104, 105] none)
      ⟨Base64.encode (body ++ List.replicate 16 0), Base64.encode (List.replicate 24 7), 0,
        none⟩ :=
    ⟨rfl, rfl, body, _, _, Aead.length_tag _ _ _ _, by decide, hright, Base64.decode_encode _,
      Base64.decode_encode _⟩
  obtain ⟨-, -, hfailed⟩ := open?_exact ⟨List.replicate 32 66⟩ 2
  exact ⟨_, _, hopen, hchanged, hfailed _ _ _ hopen hchanged⟩

end Envelope

end MeshNode
