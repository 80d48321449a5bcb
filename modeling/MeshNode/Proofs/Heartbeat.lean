import MeshNode.Heartbeat
import MeshNode.Proofs.Json.Records
import MeshNode.Proofs.Trust.Document

/-!
# Heartbeats survive the wire

A heartbeat is read from its written form as it was if its time has 64 bits and what the node says
of its runtime nests no more than 125 levels deep: the body of a request is read with 127 levels, of
which the heartbeat and its report take one each.
-/

namespace MeshNode

/-- A report is read as it was written. -/
theorem AttestationReport.reads {r : AttestationReport} (hinfo : r.runtimeInfo.Readable 125) :
    Json.Reads (decoder.read 126) r.toJson r := by
  have hvalue := (Json.Fields.readsMembers_nil 125).present
    (f := .withDefault "runtime_info" .value .null) (by simp) (Json.Decoder.reads_value hinfo)
  have hhash := hvalue.present (f := .required "capability_hash" .text) (by simp)
    (Json.Decoder.reads_text 125 r.capabilityHash)
  have hall := hhash.present (f := .required "build_id" .text) (by simp)
    (Json.Decoder.reads_text 125 r.buildId)
  exact Json.Decoder.reads_record hall _ _

/-- **A heartbeat is read as it was written.** -/
theorem Heartbeat.reads {h : Heartbeat} (htime : InClock h.time)
    (hreport : ∀ r ∈ h.attestation, r.runtimeInfo.Readable 125) :
    Json.Reads (decoder.read Json.maxDepth) h.toJson h := by
  obtain ⟨hostId, status, time, attestation⟩ := h
  have hhost := Json.Decoder.reads_text 126 hostId
  have hstatus := Json.Decoder.reads_text 126 status
  have htime := Json.Decoder.reads_int64 htime 126
  cases attestation with
  | none =>
    have habsent := (Json.Fields.readsMembers_nil 126).absent
      (f := .omissible "attestation" AttestationReport.decoder) (by simp) rfl
    have hlast := habsent.present (f := .required "timestamp" .int64) (by simp) htime
    have hmiddle := hlast.present (f := .required "status" .text) (by simp) hstatus
    have hall := hmiddle.present (f := .required "host_id" .text) (by simp) hhost
    exact Json.Decoder.reads_record hall _ _
  | some r =>
    have hvalue := Json.Decoder.reads_option_some
      (AttestationReport.reads (hreport r rfl)) Json.noConfusion
    have hpresent := (Json.Fields.readsMembers_nil 126).present
      (f := .omissible "attestation" AttestationReport.decoder) (by simp) hvalue
    have hlast := hpresent.present (f := .required "timestamp" .int64) (by simp) htime
    have hmiddle := hlast.present (f := .required "status" .text) (by simp) hstatus
    have hall := hmiddle.present (f := .required "host_id" .text) (by simp) hhost
    exact Json.Decoder.reads_record hall _ _

end MeshNode
