import MeshNode.Proofs.Json.Answers
import MeshNode.Proofs.Json.Records
import MeshNode.Trust.Store

/-!
# The document of a trust store

A record is read from the document as it was written if its times and counters have 64 bits and what
the node said of its runtime nests no more than 124 levels deep: the document is read with 127
levels, of which the map of the records, the record and its first report take one each. Whatever the
document, the records that are read from it are of this kind, as far as they hold no doubles.
-/

namespace MeshNode

/-- A time that a clock can show: a signed integer of 64 bits. -/
def InClock (time : Int) : Prop := -0x8000000000000000 ≤ time ∧ time ≤ 0x7fffffffffffffff

instance (time : Int) : Decidable (InClock time) := inferInstanceAs (Decidable (_ ∧ _))

namespace FirstSeen

/-- A first report is read as it was written. -/
theorem reads {s : FirstSeen} (htime : InClock s.time) (hinfo : s.runtimeInfo.Readable 124) :
    Json.Reads (decoder.read 125) s.toJson s := by
  have hvalue := (Json.Fields.readsMembers_nil 124).present
    (f := .withDefault "runtime_info" .value .null) (by simp) (Json.Decoder.reads_value hinfo)
  have hhash := hvalue.present (f := .required "capability_hash" .text) (by simp)
    (Json.Decoder.reads_text 124 s.capabilityHash)
  have hbuild := hhash.present (f := .required "build_id" .text) (by simp)
    (Json.Decoder.reads_text 124 s.buildId)
  have hall := hbuild.present (f := .required "timestamp" .int64) (by simp)
    (Json.Decoder.reads_int64 htime 124)
  exact Json.Decoder.reads_record hall _ _

/-- Whatever it is read from, a first report is one that is read as it was written, if it holds no
doubles. -/
theorem yields : decoder.Yields 125 fun s =>
    InClock s.time ∧ (s.runtimeInfo.Integral → s.runtimeInfo.Readable 124) := by
  have hvalue := (Json.Fields.yields_nil 124).cons (Json.Field.yields_withDefault
    (Json.Decoder.yields_value 124) "runtime_info" .null fun _ => .null)
  have hhash := hvalue.cons
    (Json.Field.yields_required (Json.Decoder.yields_true .text 124) "capability_hash")
  have hbuild := hhash.cons
    (Json.Field.yields_required (Json.Decoder.yields_true .text 124) "build_id")
  have hall := hbuild.cons
    (Json.Field.yields_required (Json.Decoder.yields_int64 124) "timestamp")
  exact Json.Decoder.yields_record hall _ fun _ ⟨htime, _, _, hinfo, _⟩ => ⟨htime, hinfo⟩

end FirstSeen

namespace LastSeen

/-- A last report is read as it was written. -/
theorem reads {s : LastSeen} (htime : InClock s.time) :
    Json.Reads (decoder.read 125) s.toJson s := by
  have hhash := (Json.Fields.readsMembers_nil 124).present
    (f := .required "capability_hash" .text) (by simp)
    (Json.Decoder.reads_text 124 s.capabilityHash)
  have hbuild := hhash.present (f := .required "build_id" .text) (by simp)
    (Json.Decoder.reads_text 124 s.buildId)
  have hall := hbuild.present (f := .required "timestamp" .int64) (by simp)
    (Json.Decoder.reads_int64 htime 124)
  exact Json.Decoder.reads_record hall _ _

theorem yields : decoder.Yields 125 fun s => InClock s.time := by
  have hhash := (Json.Fields.yields_nil 124).cons
    (Json.Field.yields_required (Json.Decoder.yields_true .text 124) "capability_hash")
  have hbuild := hhash.cons
    (Json.Field.yields_required (Json.Decoder.yields_true .text 124) "build_id")
  have hall := hbuild.cons
    (Json.Field.yields_required (Json.Decoder.yields_int64 124) "timestamp")
  exact Json.Decoder.yields_record hall _ fun _ ⟨htime, _⟩ => htime

end LastSeen

namespace TrustStatus

theorem reads (s : TrustStatus) (levels : Nat) : Json.Reads (decoder.read levels) s.toJson s :=
  Json.Decoder.reads_choice (by cases s <;> rfl) levels

end TrustStatus

namespace Health

theorem reads (h : Health) (levels : Nat) : Json.Reads (decoder.read levels) h.toJson h :=
  Json.Decoder.reads_choice (by cases h <;> rfl) levels

end Health

namespace TrustRecord

/-- The times of the record are such that a clock can show. -/
structure Timed (r : TrustRecord) : Prop where
  first : InClock r.firstSeen.time
  last : InClock r.lastSeen.time
  change : ∀ time ∈ r.lastChange, InClock time

/-- The counters of the record are words of 64 bits. -/
structure Counted (r : TrustRecord) : Prop where
  drifts : r.driftCount < UInt64.size
  spoofs : r.spoofCount < UInt64.size

/-- Records that are read as they were written. -/
structure Writable (r : TrustRecord) : Prop where
  timed : r.Timed
  counted : r.Counted
  info : r.firstSeen.runtimeInfo.Readable 124

/-- A record is read as it was written. -/
theorem Writable.reads {r : TrustRecord} (h : r.Writable) :
    Json.Reads (decoder.read 126) r.toJson r := by
  have htime : Json.Reads (Json.Decoder.int64.option.read 125) (.ofInt? r.lastChange)
      r.lastChange := by
    cases hchange : r.lastChange with
    | none => exact Json.Decoder.reads_option_none _ _
    | some time =>
      have hread := Json.Decoder.reads_int64 (h.timed.change time hchange) 125
      exact Json.Decoder.reads_option_some hread Json.noConfusion
  have hhealth := (Json.Fields.readsMembers_nil 125).present
    (f := .withDefault "health" Health.decoder .green) (by simp) (r.health.reads 125)
  have hchange := hhealth.present (f := .optional "last_change_timestamp" .int64) (by simp) htime
  have hspoofs := hchange.present (f := .required "spoof_count" .word64) (by simp)
    (Json.Decoder.reads_word64 h.counted.spoofs 125)
  have hdrifts := hspoofs.present (f := .required "drift_count" .word64) (by simp)
    (Json.Decoder.reads_word64 h.counted.drifts 125)
  have hstatus := hdrifts.present (f := .required "status" TrustStatus.decoder) (by simp)
    (r.status.reads 125)
  have hlast := hstatus.present (f := .required "last_seen" LastSeen.decoder) (by simp)
    (LastSeen.reads h.timed.last)
  have hall := hlast.present (f := .required "first_seen" FirstSeen.decoder) (by simp)
    (FirstSeen.reads h.timed.first h.info)
  exact Json.Decoder.reads_record hall _ _

/-- What is known of a record, whatever it is read from. -/
theorem yields : decoder.Yields 126 fun r => r.Timed ∧ r.Counted ∧
    (r.firstSeen.runtimeInfo.Integral → r.firstSeen.runtimeInfo.Readable 124) := by
  have hhealth := (Json.Fields.yields_nil 125).cons (Json.Field.yields_withDefault
    (Json.Decoder.yields_true Health.decoder 125) "health" .green trivial)
  have hchange := hhealth.cons
    (Json.Field.yields_optional (Json.Decoder.yields_int64 125) "last_change_timestamp")
  have hspoofs := hchange.cons
    (Json.Field.yields_required (Json.Decoder.yields_word64 125) "spoof_count")
  have hdrifts := hspoofs.cons
    (Json.Field.yields_required (Json.Decoder.yields_word64 125) "drift_count")
  have hstatus := hdrifts.cons
    (Json.Field.yields_required (Json.Decoder.yields_true TrustStatus.decoder 125) "status")
  have hlast := hstatus.cons (Json.Field.yields_required LastSeen.yields "last_seen")
  have hall := hlast.cons (Json.Field.yields_required FirstSeen.yields "first_seen")
  exact Json.Decoder.yields_record hall _
    fun _ ⟨⟨hfirst, hinfo⟩, hlast, _, hdrifts, hspoofs, hchange, _⟩ =>
      ⟨⟨hfirst, hlast, hchange⟩, ⟨hdrifts, hspoofs⟩, hinfo⟩

end TrustRecord

namespace TrustStore

/-- **A document is read as the records that were written**, if they are in order. -/
theorem ofDocument_document {records : Keyed TrustRecord} (hsorted : records.Sorted)
    (h : ∀ p ∈ records, p.2.Writable) : ofDocument (document records) = .ok records := by
  have hmembers : List.Forall₂ (Json.ReadsMember (TrustRecord.decoder.read 126))
      (records.map fun r => (r.1, r.2.toJson)) records :=
    List.forall₂_map_left_iff.mpr (List.forall₂_same.mpr fun p hp => ⟨rfl, (h p hp).reads⟩)
  have hread := Json.Decoder.ofBytes_pretty (Json.Decoder.reads_dict hmembers hsorted)
  have hne : document records ≠ [] := by
    obtain ⟨b, t, heq, -⟩ := Json.exists_write_eq .indented 0 (toJson records)
    rw [document, Json.pretty, ← Json.write_indented, heq]
    exact List.cons_ne_nil b t
  rw [ofDocument, if_neg hne, document, toJson, hread]

/-- What is known of the records, whatever document they are read from. -/
theorem of_ofDocument {b : Bytes} {records : Keyed TrustRecord} (h : ofDocument b = .ok records) :
    records.Sorted ∧ ∀ p ∈ records, p.2.Timed ∧ p.2.Counted ∧
      (p.2.firstSeen.runtimeInfo.Integral → p.2.firstSeen.runtimeInfo.Readable 124) := by
  unfold ofDocument at h
  split at h
  · cases h
    exact ⟨List.Pairwise.nil, fun _ hp => absurd hp List.not_mem_nil⟩
  · split at h
    · rename_i hread
      cases h
      exact TrustRecord.yields.dict.of_ofBytes hread
    · cases h

end TrustStore

end MeshNode
