import MeshNode.Channel
import MeshNode.Proofs.Envelope

/-!
# Both ends of a handshake agree

The initiator multiplies the responder's public value by its fresh secret, the responder multiplies
the initiator's public value by its long-term secret. That the two products are the same is the law
of the curve that the protocol rests on; here it is assumed of the two secrets at hand. Everything
else follows from the messages: the responder decodes the public value that the initiator encoded,
so that both derive the key from the same product and the name of the session from the same bytes.

Channels that share a key and a name are `Paired`, and what one of them seals the other one opens, if
there is room for it in the bound that belongs to the other end's limit (`Envelope.Admits`).
-/

namespace MeshNode

/-! ### Messages -/

/-- A first message is read as it was written. -/
theorem Offer.reads {m : Offer} (hts : -0x8000000000000000 ≤ m.ts ∧ m.ts ≤ 0x7fffffffffffffff) :
    Json.Reads (decoder.read Json.maxDepth) m.toJson m := by
  have hephPub := Json.Decoder.reads_text 126 m.ephPub
  have hts' := Json.Decoder.reads_int64 hts 126
  have hlast := (Json.Fields.readsMembers_nil 126).present (f := .required "ts" .int64)
    (by simp) hts'
  have hall := hlast.present (f := .required "eph_pub" .text) (by simp) hephPub
  exact Json.Decoder.reads_record hall _ _

theorem Offer.ofBytes_render {m : Offer}
    (hts : -0x8000000000000000 ≤ m.ts ∧ m.ts ≤ 0x7fffffffffffffff) :
    decoder.ofBytes m.toJson.render = .ok m :=
  Json.Decoder.ofBytes_render (Offer.reads hts)

/-- A reply is read as it was written. -/
theorem Answer.ofBytes_render {m : Answer}
    (hts : -0x8000000000000000 ≤ m.ts ∧ m.ts ≤ 0x7fffffffffffffff) :
    decoder.ofBytes m.toJson.render = .ok m := by
  have hack := Json.Decoder.reads_bool 126 m.ack
  have hts' := Json.Decoder.reads_int64 hts 126
  have hid := Json.Decoder.reads_text 126 m.sessionId
  have hlast := (Json.Fields.readsMembers_nil 126).present (f := .required "session_id" .text)
    (by simp) hid
  have hmiddle := hlast.present (f := .required "ts" .int64) (by simp) hts'
  have hall := hmiddle.present (f := .required "ack" .bool) (by simp) hack
  exact Json.Decoder.ofBytes_render (Json.Decoder.reads_record hall _ _)

/-! ### Keys -/

namespace Handshake

variable {secret secret' point point' : Bytes}

/-- The key depends on the shared secret alone. -/
theorem deriveKey_congr (h : X25519.multiply secret point = X25519.multiply secret' point') :
    deriveKey secret point = deriveKey secret' point' := by
  unfold deriveKey
  rw [h]

/-- No key is derived from a shared secret of zeros. -/
theorem deriveKey_of_zeros (h : (X25519.multiply secret point).all (· = 0) = true) :
    deriveKey secret point = .error .nonContributoryKey := by
  rw [deriveKey, if_pos h]

/-- From every other shared secret a key is derived. -/
theorem exists_deriveKey (h : ¬ (X25519.multiply secret point).all (· = 0) = true) :
    ∃ key, deriveKey secret point = .ok key := by
  refine ⟨⟨Hkdf.derive (X25519.multiply secret point) (.ofText label)⟩, ?_⟩
  rw [deriveKey, if_neg h]

end Handshake

/-! ### Channels -/

namespace Channel

/-- The two ends of one session. -/
structure Paired (a b : Channel) : Prop where
  key : a.key = b.key
  sessionId : a.sessionId = b.sessionId

theorem Paired.symm {a b : Channel} (h : Paired a b) : Paired b a := ⟨h.key.symm, h.sessionId.symm⟩

/-- What one end seals the other one opens, if that end has room for it. -/
theorem Paired.open?_sealed {a b : Channel} (h : Paired a b) {nonce : Bytes}
    (hnonce : nonce.length = Aead.nonceLength) (now : Int) {plaintext : Bytes}
    (hlimit : Envelope.Admits b.maxPayload plaintext.length) (aad : Option Json) :
    b.open? (a.sealed nonce now plaintext aad) = .ok plaintext := by
  rw [open?, sealed, h.key]
  exact Envelope.open?_sealed b.key hnonce now aad hlimit

/-- A reply is confirmed if it acknowledges the session that was started. -/
theorem confirm_of_eq {c : Channel} {m : Answer} (hack : m.ack = true)
    (hid : m.sessionId = c.sessionId) : c.confirm m = .ok () := by
  simp [confirm, hack, hid]

/-- Every other reply is refused. -/
theorem confirm_of_ne {c : Channel} {m : Answer}
    (h : m.ack = false ∨ m.sessionId ≠ c.sessionId) :
    ∃ text, c.confirm m = .error (.malformed text) := by
  cases hack : m.ack with
  | false => exact ⟨_, by rw [confirm, hack]; rfl⟩
  | true =>
    have hid : m.sessionId ≠ c.sessionId := h.resolve_left (by simp [hack])
    exact ⟨_, by rw [confirm, hack, if_neg (by decide), if_pos hid]⟩

/-! ### Agreement -/

variable {keys : NodeKeys} {ephSecret : Bytes}

/-- No session is started over a shared secret of zeros. -/
theorem initiate_of_zeros {peer : Bytes} (h : (X25519.multiply ephSecret peer).all (· = 0) = true)
    (now : Int) (config : SessionConfig) :
    initiate ephSecret peer now config = .error (.malformed "peer key is a low-order point") := by
  rw [initiate, Handshake.initiate, Handshake.deriveKey_of_zeros h]
  rfl

/-- A first message whose public value gives a shared secret of zeros is refused. -/
theorem respond_of_zeros (offer : Offer) {ephPublic : Bytes}
    (hoffer : Base64.decodeExactly? 32 offer.ephPub = some ephPublic)
    (h : (X25519.multiply keys.kxSecret ephPublic).all (· = 0) = true)
    (now : Int) (config : SessionConfig) :
    respond keys offer now config = .error (.malformed "peer key is a low-order point") := by
  simp only [respond, Handshake.respond, hoffer, Handshake.deriveKey_of_zeros h]
  rfl

/-- With a key, the initiator has a channel and names it by its own public value. -/
theorem initiate_eq {peer : Bytes} {key : SessionKey}
    (hkey : Handshake.deriveKey ephSecret peer = .ok key) (now : Int) (config : SessionConfig) :
    initiate ephSecret peer now config =
      .ok (⟨key, Handshake.sessionId (X25519.publicKey ephSecret), .initiator, config.maxPayload⟩,
        ⟨Base64.encode (X25519.publicKey ephSecret), now⟩) := by
  rw [initiate, Handshake.initiate, hkey]
  rfl

/-- With a key, the responder has a channel and names it by the public value that it was sent. -/
theorem respond_eq (offer : Offer) {ephPublic : Bytes} {key : SessionKey}
    (hoffer : Base64.decodeExactly? 32 offer.ephPub = some ephPublic)
    (hkey : Handshake.deriveKey keys.kxSecret ephPublic = .ok key) (now : Int)
    (config : SessionConfig) :
    respond keys offer now config =
      .ok (⟨key, Handshake.sessionId ephPublic, .responder, config.maxPayload⟩,
        ⟨true, now, Handshake.sessionId ephPublic⟩) := by
  simp only [respond, Handshake.respond, hoffer, hkey]
  rfl

/-- A channel accepts as much as it was set up to accept. -/
theorem maxPayload_of_respond {offer : Offer} {now : Int} {config : SessionConfig} {c : Channel}
    {answer : Answer} (h : respond keys offer now config = .ok (c, answer)) :
    c.maxPayload = config.maxPayload := by
  unfold respond at h
  cases hshake : Handshake.respond keys.kxSecret offer now with
  | error e =>
    rw [hshake] at h
    cases h
  | ok reply =>
    rw [hshake] at h
    cases h
    rfl

/-- **Both ends of a handshake agree**, if the curve gives them the same shared secret. Unless that
is zero, both have a channel after one message each way, the initiator confirms the reply that it
gets and no reply that does not acknowledge this session, and each end opens what the other one
seals, up to its limit, if the bound for that limit does not wrap around. If it is zero, neither end
has one, and both report the point as malformed. -/
theorem handshake_agrees (keys : NodeKeys) (ephSecret : Bytes) (config config' : SessionConfig)
    (now now' : Int) (hnow : -0x8000000000000000 ≤ now ∧ now ≤ 0x7fffffffffffffff)
    (hnow' : -0x8000000000000000 ≤ now' ∧ now' ≤ 0x7fffffffffffffff)
    (hcurve : X25519.multiply ephSecret keys.kxPublic =
      X25519.multiply keys.kxSecret (X25519.publicKey ephSecret)) :
    (¬ (X25519.multiply ephSecret keys.kxPublic).all (· = 0) = true →
      ∃ initiator offer responder answer,
        initiate ephSecret keys.kxPublic now config = .ok (initiator, offer) ∧
        (∃ m, Offer.decoder.ofBytes offer.toJson.render = .ok m ∧
          respond keys m now' config' = .ok (responder, answer)) ∧
        (∃ m, Answer.decoder.ofBytes answer.toJson.render = .ok m ∧ initiator.confirm m = .ok ()) ∧
        Paired initiator responder ∧
        (∀ m : Answer, m.ack = false ∨ m.sessionId ≠ initiator.sessionId →
          ∃ text, initiator.confirm m = .error (.malformed text)) ∧
        ∀ nonce ts plaintext aad, nonce.length = Aead.nonceLength →
          (Envelope.Fits config'.maxPayload → plaintext.length ≤ config'.maxPayload →
            responder.open? (initiator.sealed nonce ts plaintext aad) = .ok plaintext) ∧
          (Envelope.Fits config.maxPayload → plaintext.length ≤ config.maxPayload →
            initiator.open? (responder.sealed nonce ts plaintext aad) = .ok plaintext)) ∧
    ((X25519.multiply ephSecret keys.kxPublic).all (· = 0) = true →
      initiate ephSecret keys.kxPublic now config =
        .error (.malformed "peer key is a low-order point") ∧
      ∃ m, Offer.decoder.ofBytes
          (Offer.toJson ⟨Base64.encode (X25519.publicKey ephSecret), now⟩).render = .ok m ∧
        respond keys m now' config' = .error (.malformed "peer key is a low-order point")) := by
  have hdecode : Base64.decodeExactly? 32 (Base64.encode (X25519.publicKey ephSecret)) =
      some (X25519.publicKey ephSecret) :=
    Base64.decodeExactly?_encode (X25519.length_publicKey ephSecret)
  let offer : Offer := ⟨Base64.encode (X25519.publicKey ephSecret), now⟩
  have hread : Offer.decoder.ofBytes offer.toJson.render = .ok offer := Offer.ofBytes_render hnow
  constructor
  · intro hshared
    obtain ⟨key, hkey⟩ := Handshake.exists_deriveKey hshared
    have hkey' : Handshake.deriveKey keys.kxSecret (X25519.publicKey ephSecret) = .ok key :=
      (Handshake.deriveKey_congr hcurve).symm.trans hkey
    have hinitiate := initiate_eq hkey now config
    have hrespond := respond_eq offer hdecode hkey' now' config'
    have hanswer := Answer.ofBytes_render
      (m := ⟨true, now', Handshake.sessionId (X25519.publicKey ephSecret)⟩) hnow'
    refine ⟨_, _, _, _, hinitiate, ⟨_, hread, hrespond⟩, ⟨_, hanswer, confirm_of_eq rfl rfl⟩,
      ⟨rfl, rfl⟩, fun m => confirm_of_ne, fun nonce ts plaintext aad hnonce => ⟨?_, ?_⟩⟩
    · exact fun hfits hlimit =>
        Paired.open?_sealed ⟨rfl, rfl⟩ hnonce ts (Envelope.admits_of_le hfits hlimit) aad
    · exact fun hfits hlimit =>
        Paired.open?_sealed ⟨rfl, rfl⟩ hnonce ts (Envelope.admits_of_le hfits hlimit) aad
  · intro hzeros
    have hzeros' : (X25519.multiply keys.kxSecret (X25519.publicKey ephSecret)).all (· = 0) =
        true := by
      rw [← hcurve]
      exact hzeros
    exact ⟨initiate_of_zeros hzeros now config,
      _, hread, respond_of_zeros offer hdecode hzeros' now' config'⟩

/-! ### Two secrets -/

section Secrets

/-- The keys of a responder. -/
private def responderKeys : NodeKeys := ⟨"node", [], List.replicate 32 1⟩

/-- The secret of an initiator. -/
private def initiatorSecret : Bytes := List.replicate 32 2

private theorem multiply_secrets : X25519.multiply initiatorSecret responderKeys.kxPublic =
    X25519.multiply responderKeys.kxSecret (X25519.publicKey initiatorSecret) := by
  decide +kernel

private theorem multiply_ne_zeros :
    ¬ (X25519.multiply initiatorSecret responderKeys.kxPublic).all (· = 0) = true := by
  decide +kernel

/-- Two secrets for which the law of the curve is computed, and a greeting from the initiator. -/
theorem handshake_agrees_of_secrets :
    ∃ initiator offer responder answer m m',
      initiate initiatorSecret responderKeys.kxPublic 1700000000000 .default =
        .ok (initiator, offer) ∧
      Offer.decoder.ofBytes offer.toJson.render = .ok m ∧
      respond responderKeys m 1700000000001 .default = .ok (responder, answer) ∧
      Answer.decoder.ofBytes answer.toJson.render = .ok m' ∧
      initiator.confirm m' = .ok () ∧
      responder.open? (initiator.sealed (List.replicate 24 7) 1700000000002 (.ofText "hi") none) =
        .ok (.ofText "hi") := by
  obtain ⟨initiator, offer, responder, answer, hinitiate, ⟨m, hoffer, hrespond⟩,
    ⟨m', hanswer, hconfirm⟩, -, -, hopen⟩ :=
      (handshake_agrees responderKeys initiatorSecret .default .default 1700000000000 1700000000001
        (by decide) (by decide) multiply_secrets).1 multiply_ne_zeros
  have hlimit : (Bytes.ofText "hi").length ≤ SessionConfig.default.maxPayload := by decide
  exact ⟨initiator, offer, responder, answer, m, m', hinitiate, hoffer, hrespond, hanswer,
    hconfirm, (hopen _ _ _ _ (by decide)).1 (by decide) hlimit⟩

/-- A responder that is to accept payloads of every length opens none, not even the empty one. -/
theorem not_forall_handshake_opens :
    ¬ ∀ (keys : NodeKeys) (ephSecret : Bytes) (config config' : SessionConfig) (now now' : Int),
      X25519.multiply ephSecret keys.kxPublic =
        X25519.multiply keys.kxSecret (X25519.publicKey ephSecret) →
      ¬ (X25519.multiply ephSecret keys.kxPublic).all (· = 0) = true →
      config'.check = .ok config' → config'.maxPayload < UInt64.size →
      ∃ initiator offer responder answer,
        initiate ephSecret keys.kxPublic now config = .ok (initiator, offer) ∧
        respond keys offer now' config' = .ok (responder, answer) ∧
        ∀ nonce ts plaintext aad, nonce.length = Aead.nonceLength →
          plaintext.length ≤ config'.maxPayload →
            responder.open? (initiator.sealed nonce ts plaintext aad) = .ok plaintext := by
  intro hall
  let boundless : SessionConfig := { SessionConfig.default with maxPayload := UInt64.size - 1 }
  obtain ⟨initiator, offer, responder, answer, -, hrespond, hopen⟩ :=
    hall responderKeys initiatorSecret .default boundless 0 0 multiply_secrets multiply_ne_zeros
      rfl (by decide)
  have hmost : responder.maxPayload = UInt64.size - 1 := maxPayload_of_respond hrespond
  have hnonce : (List.replicate 24 (7 : UInt8)).length = Aead.nonceLength := by decide
  have hroom : ¬ Envelope.Admits responder.maxPayload ([] : Bytes).length := by
    rw [hmost]
    decide
  obtain ⟨text, hrefuse⟩ :=
    Envelope.open?_sealed_of_not_admits responder.key initiator.key hnonce 0 none hroom
  cases (hopen _ 0 [] none hnonce (Nat.zero_le _)).symm.trans hrefuse

end Secrets

end Channel

end MeshNode
