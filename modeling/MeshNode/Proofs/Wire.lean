import MeshNode.Proofs.Json.Tagged
import MeshNode.Wire

/-!
# Wire forms are stable

Every form has one written text for a value, and many texts that are read as it: with blanks and
escapes, with members in another order or unknown ones among them, or as an array. Whatever was
read, its written text is read as the same value again, so that a text is `recode`d only once
(`WireForm.reread_of_whole`). Each form gets the law from those of its fields, in the order in which
its decoder lists them.

The numbers that are kept must be integers of 64 bits. A greater integer is read as a double, whose
shortest text need not be read as that double (`WireForm.not_reread_beyond_words`).
-/

namespace MeshNode

open Json.Decoder
open Json.Field (carries_required)

variable {levels : Nat}

/-! ### Sessions -/

theorem Offer.recodes : Offer.decoder.Recodes Offer.toJson (levels + 1) :=
  recodes_record
    (.cons (recodes_text.required "eph_pub") <|
      .cons (recodes_int64.required "ts") .nil)
    (by decide) _ fun _ => rfl

theorem Answer.recodes : Answer.decoder.Recodes Answer.toJson (levels + 1) :=
  recodes_record
    (.cons (recodes_bool.required "ack") <|
      .cons (recodes_int64.required "ts") <|
      .cons (recodes_text.required "session_id") .nil)
    (by decide) _ fun _ => rfl

theorem Envelope.recodes : Envelope.decoder.Recodes Envelope.toJson (levels + 1) :=
  recodes_record
    (.cons (recodes_text.required "ct") <|
      .cons (recodes_text.required "nonce") <|
      .cons (recodes_int64.required "ts") <|
      .cons (recodes_value?.omitted "aad") .nil)
    (by decide) _
    -- The member is there or not as the value is.
    fun ⟨_, _, _, aad, _⟩ => by cases aad <;> rfl

theorem SealedRun.recodes : SealedRun.decoder.Recodes SealedRun.toJson (levels + 2) :=
  recodes_record
    (.cons (recodes_text.required "session_id") <|
      .cons (Envelope.recodes.required "envelope") .nil)
    (by decide) _ fun _ => rfl

/-! ### Jobs -/

theorem ClaimContext.recodes : ClaimContext.decoder.Recodes ClaimContext.toJson (levels + 1) :=
  recodes_record
    (.cons (recodes_text?.optional "job_id" rfl) <|
      .cons (recodes_text?.optional "attempt_id" rfl) <|
      .cons (recodes_int64?.optional "deadline_ts" rfl) <|
      .cons (recodes_text?.optional "claim_token" rfl) .nil)
    (by decide) _ fun _ => rfl

theorem JobSpec.recodes : JobSpec.decoder.Recodes JobSpec.toJson (levels + 1) :=
  recodes_record
    (.cons (recodes_text?.omissible "job_id" rfl) <|
      .cons (recodes_text?.omissible "attempt_id" rfl) <|
      .cons (recodes_text?.omissible "req_uid" rfl) <|
      .cons (recodes_text.required "kind") <|
      .cons (recodes_value.withDefault "args" fun _ => Json.reads_null levels) <|
      .cons (recodes_word64?.omissible "timeout_seconds" rfl) <|
      .cons (recodes_text?.omissible "claim_token" rfl) <|
      .cons (recodes_int64?.omissible "deadline_ts" rfl) .nil)
    (by decide) _ fun _ => rfl

theorem RunResponse.recodes : RunResponse.decoder.Recodes RunResponse.toJson (levels + 1) :=
  recodes_record
    (.cons (recodes_text.required "request_id") <|
      .cons (recodes_text.required "attempt_id") <|
      .cons (recodes_text.required "job_id") <|
      .cons (recodes_bool.required "cached") <|
      .cons (recodes_value.required "result") .nil)
    (by decide) _ fun _ => rfl

theorem AttemptStatus.recodes : (choice choices).Recodes (fun s => .str (name s)) levels :=
  recodes_choice fun s => by cases s <;> rfl

theorem AttemptRecord.recodes : AttemptRecord.decoder.Recodes AttemptRecord.toJson (levels + 1) :=
  recodes_record
    (.cons (recodes_text.required "attempt_id") <|
      .cons (AttemptStatus.recodes.required "status") <|
      .cons (recodes_value?.optional "result" rfl) <|
      .cons (recodes_int64.required "created_ts") .nil)
    (by decide) _ fun _ => rfl

/-! ### Nodes -/

theorem PublicKeys.recodes : PublicKeys.decoder.Recodes PublicKeys.toJson (levels + 1) :=
  recodes_record
    (.cons (recodes_text.required "node_id") <|
      .cons (recodes_text.required "sign_pub") <|
      .cons (recodes_text.required "kx_pub") .nil)
    (by decide) _ fun _ => rfl

theorem Announcement.recodes : Announcement.decoder.Recodes Announcement.toJson (levels + 2) :=
  recodes_record
    (.cons (recodes_text.required "node_id") <|
      .cons (recodes_text.required "build_id") <|
      .cons (recodes_text.list.required "capabilities") <|
      .cons (recodes_text.required "capability_hash") <|
      .cons (recodes_text.required "addr") <|
      .cons (recodes_int64.required "ts") <|
      .cons (recodes_text.withDefault "signature" fun _ => reads_text _ "") .nil)
    (by decide) _ fun _ => rfl

theorem NodeStatus.recodes : NodeStatus.decoder.Recodes NodeStatus.toJson (levels + 1) :=
  recodes_record
    (.cons (recodes_text.required "node_id") <|
      .cons (recodes_text.required "status") <|
      .cons (recodes_word64.required "uptime_secs") <|
      .cons (recodes_text.required "version") <|
      .cons (recodes_size.required "active_sessions") .nil)
    (by decide) _ fun _ => rfl

/-! ### Trust -/

theorem TrustStatus.recodes : TrustStatus.decoder.Recodes TrustStatus.toJson levels :=
  recodes_choice fun s => by cases s <;> rfl

theorem Health.recodes : Health.decoder.Recodes Health.toJson levels :=
  recodes_choice fun h => by cases h <;> rfl

theorem AttestationReport.recodes :
    AttestationReport.decoder.Recodes AttestationReport.toJson (levels + 1) :=
  recodes_record
    (.cons (recodes_text.required "build_id") <|
      .cons (recodes_text.required "capability_hash") <|
      .cons (recodes_value.withDefault "runtime_info" fun _ => Json.reads_null levels) .nil)
    (by decide) _ fun _ => rfl

theorem AttestationReport.recodes? :
    AttestationReport.decoder.option.Recodes (·.elim .null AttestationReport.toJson) (levels + 1) :=
  AttestationReport.recodes.option_of_ne_null (fun _ => Json.noConfusion) rfl fun _ => rfl

theorem FirstSeen.recodes : FirstSeen.decoder.Recodes FirstSeen.toJson (levels + 1) :=
  recodes_record
    (.cons (recodes_int64.required "timestamp") <|
      .cons (recodes_text.required "build_id") <|
      .cons (recodes_text.required "capability_hash") <|
      .cons (recodes_value.withDefault "runtime_info" fun _ => Json.reads_null levels) .nil)
    (by decide) _ fun _ => rfl

theorem LastSeen.recodes : LastSeen.decoder.Recodes LastSeen.toJson (levels + 1) :=
  recodes_record
    (.cons (recodes_int64.required "timestamp") <|
      .cons (recodes_text.required "build_id") <|
      .cons (recodes_text.required "capability_hash") .nil)
    (by decide) _ fun _ => rfl

theorem TrustRecord.recodes : TrustRecord.decoder.Recodes TrustRecord.toJson (levels + 2) :=
  recodes_record
    (.cons (FirstSeen.recodes.required "first_seen") <|
      .cons (LastSeen.recodes.required "last_seen") <|
      .cons (TrustStatus.recodes.required "status") <|
      .cons (recodes_word64.required "drift_count") <|
      .cons (recodes_word64.required "spoof_count") <|
      .cons (recodes_int64?.optional "last_change_timestamp" rfl) <|
      .cons (Health.recodes.withDefault "health" fun _ => reads_choice rfl _) .nil)
    (by decide) _ fun _ => rfl

theorem Heartbeat.recodes : Heartbeat.decoder.Recodes Heartbeat.toJson (levels + 2) :=
  recodes_record
    (.cons (recodes_text.required "host_id") <|
      .cons (recodes_text.required "status") <|
      .cons (recodes_int64.required "timestamp") <|
      .cons (AttestationReport.recodes?.omitted "attestation") .nil)
    (by decide) _ fun ⟨_, _, _, attestation, _⟩ => by cases attestation <;> rfl

namespace TrustEvent

/-- A count in the event has 64 bits. -/
def Counted : TrustEvent → Prop
  | firstSeen _ _ => True
  | drift _ _ _ _ => True
  | spoofSuspect _ n => n < UInt64.size

/-- What is read is counted. -/
theorem yields_counted : decoder.Yields (levels + 1) Counted := by
  have hnone := Json.Fields.carries_nil fun _ => True
  have htext (name : String) := carries_required (text.carries_true fun _ => True) name
  refine yields_tagged (fun name v hv => ?_) _ _
  simp only [List.mem_cons, Prod.mk.injEq, List.not_mem_nil, or_false] at hv
  rcases hv with ⟨-, rfl⟩ | ⟨-, rfl⟩ | ⟨-, rfl⟩
  · exact admits_variant ((hnone.cons (htext _)).cons (htext _)) _ fun _ _ => trivial
  · exact admits_variant ((((hnone.cons (htext _)).cons (htext _)).cons (htext _)).cons (htext _))
      _ fun _ _ => trivial
  · exact admits_variant ((hnone.cons (carries_required carries_word64 _)).cons (htext _)) _
      fun _ h => h.2.1

/-- An event is read from its written form. -/
theorem reads {e : TrustEvent} (h : e.Counted) :
    Json.Reads (decoder.read (levels + 1)) e.toJson e := by
  have htext (s : String) : Json.Reads (Json.readVerbatim levels) (.str s) (.str s) :=
    Json.reads_str id levels s
  cases e with
  | firstSeen build capabilityHead =>
    exact reads_tagged rfl (by simp [htext]) rfl _
  | drift oldBuild newBuild oldHead newHead =>
    exact reads_tagged rfl (by simp [htext]) rfl _
  | spoofSuspect nodeId n =>
    have hn : n < 0x10000000000000000 := h
    have hcount : Json.Reads (Json.readVerbatim levels) (.nat n) (.nat n) :=
      Json.reads_int id levels ⟨by omega, by omega⟩
    refine reads_tagged rfl (by simp [htext, hcount]) ?_ _
    simp [variant, Json.Fields.convertMembers, Json.Fields.cons, Json.Fields.nil,
      Json.Field.required, text, convert_word64 h, Except.map]

theorem recodes : decoder.Recodes toJson (levels + 1) := fun s =>
  (yields_counted s).mono fun _ h _ => reads h

end TrustEvent

theorem HeartbeatAnswer.recodes :
    HeartbeatAnswer.decoder.Recodes HeartbeatAnswer.toJson (levels + 3) :=
  recodes_record
    (.cons (recodes_text.required "host_id") <|
      .cons (TrustStatus.recodes.required "trust_status") <|
      .cons (Health.recodes.required "health") <|
      .cons (TrustEvent.recodes.list.withDefault "events" fun _ => reads_list .nil)
        .nil)
    (by decide) _ fun _ => rfl

/-! ### All forms -/

namespace WireForm

/-- What is read in a form is read again from its written text. -/
theorem recodes (f : WireForm) : f.decoder.Recodes f.toJson Json.maxDepth := by
  cases f with
  | offer => exact @Offer.recodes 126
  | answer => exact @Answer.recodes 126
  | envelope => exact @Envelope.recodes 126
  | sealedRun => exact @SealedRun.recodes 125
  | claimContext => exact @ClaimContext.recodes 126
  | jobSpec => exact @JobSpec.recodes 126
  | runResponse => exact @RunResponse.recodes 126
  | attemptRecord => exact @AttemptRecord.recodes 126
  | attestationReport => exact @AttestationReport.recodes 126
  | trustRecord => exact @TrustRecord.recodes 125
  | trustEvent => exact @TrustEvent.recodes 126
  | heartbeat => exact @Heartbeat.recodes 125
  | heartbeatAnswer => exact @HeartbeatAnswer.recodes 124
  | publicKeys => exact @PublicKeys.recodes 126
  | announcement => exact @Announcement.recodes 125
  | nodeStatus => exact @NodeStatus.recodes 126
  | trustStatus => exact TrustStatus.recodes
  | health => exact Health.recodes

/-- **Wire forms are stable**: whatever text a value was read from, it is read again from the text
that it is written as, if the numbers in that are integers. So writing what was read leaves that
text as it is. -/
theorem reread_of_whole (f : WireForm) {text : Bytes} {a : f.Carrier}
    (hread : f.decoder.ofBytes text = .ok a) (hwhole : (f.toJson a).Whole) :
    f.decoder.ofBytes (f.toJson a).render = .ok a ∧
      f.recode (f.toJson a).render = .ok (f.toJson a).render := by
  have hagain : f.decoder.ofBytes (f.toJson a).render = .ok a :=
    ofBytes_render ((recodes f).of_ofBytes hread hwhole)
  refine ⟨hagain, ?_⟩
  rw [recode, hagain]
  rfl

/-- An envelope is read from a text with blanks, an escape, a minus zero, and an unknown member. -/
theorem reread_of_whole_envelope :
    let text := Bytes.ofText ("\x7b \"ts\": 7, \"aad\": [-0, 1], \"more\": [1.5],\n" ++
      "\"nonce\": \"\\u0041\", \"ct\": \"\" \x7d")
    let e : Envelope := ⟨"", "A", 7, some (.arr [.num (.float Json.minusZero), .int 1])⟩
    (Envelope.decoder.ofBytes text = .ok e ∧ e.toJson.Whole) ∧
      Envelope.decoder.ofBytes e.toJson.render = .ok e ∧
        envelope.recode e.toJson.render = .ok e.toJson.render := by
  intro text e
  have hread : Envelope.decoder.ofBytes text = .ok e := rfl
  have haad : ∀ j ∈ [.num (.float Json.minusZero), .int 1], Json.Whole j :=
    List.forall_mem_cons.mpr ⟨.minusZero, List.forall_mem_cons.mpr ⟨.int, nofun⟩⟩
  have hwhole : e.toJson.Whole := by
    refine .obj fun m hm => ?_
    simp only [e, List.cons_append, List.nil_append, List.mem_cons, List.not_mem_nil,
      or_false] at hm
    rcases hm with rfl | rfl | rfl | rfl
    · exact .str
    · exact .str
    · exact .int
    · exact .arr haad
  exact ⟨⟨hread, hwhole⟩, reread_of_whole envelope hread hwhole⟩

/-- The integer in the text is read as a double, and from its own text as another one. -/
theorem not_reread_beyond_words :
    ∃ a b : AttestationReport,
      attestationReport.decoder.ofBytes (.ofText "[\"a\",\"b\",93750239111682309890]") = .ok a ∧
        attestationReport.decoder.ofBytes (attestationReport.toJson a).render = .ok b ∧
          b.runtimeInfo ≠ a.runtimeInfo := by
  have hrender : (AttestationReport.toJson ⟨"a", "b", .num (.float 4905638455071756039)⟩).render =
      Bytes.ofText ("\x7b\"build_id\":\"a\",\"capability_hash\":\"b\",\"runtime_info\":" ++
        "9.375023911168231e+19\x7d") := by
    with_unfolding_all rfl
  refine ⟨⟨"a", "b", .num (.float 4905638455071756039)⟩,
    ⟨"a", "b", .num (.float 4905638455071756040)⟩, rfl, ?_, by simp⟩
  change AttestationReport.decoder.ofBytes (AttestationReport.toJson _).render = _
  rw [hrender]
  rfl

end WireForm

end MeshNode
