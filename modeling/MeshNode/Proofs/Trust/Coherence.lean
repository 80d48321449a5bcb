import MeshNode.Proofs.Trust.History

/-!
# Coherence of trust records

The fields of a record are written by separate branches of the evaluation, and its two counters
count different things: drifts are counted against the first report, flips against the report just
before. They constrain each other all the same. A flip to a digest that is not the baseline's is a
drift as well. A flip back to the baseline's digest need not be one, but then the report before it
had another digest and was a drift itself. So there are at most two flips to a drift, and one less
while the last digest is not the baseline's.

That last clause is what the induction needs: `Coherent.compare` uses it for the flip back, which
raises one counter and leaves the other. From the counters, a record's status, health and time of
change can be read off, whatever the reports were.

The counters are words of 64 bits, and no report raises one by more than one. So nothing is said
here about a node that has sent more than 2 ^ 64 reports, for which a counter starts again from
zero.
-/

namespace MeshNode

namespace TrustRecord

/-- What evaluations with one threshold leave of a node that nothing was known of, and how many of
them had a report. -/
inductive Reached (T : Nat) : (reports : Nat) → Option TrustRecord → Prop where
  | unknown : Reached T 0 none
  | evaluate {reports : Nat} {record : Option TrustRecord} (nodeId : String)
      (report : Option AttestationReport) (now : Int) :
      Reached T reports record →
        Reached T (reports + report.toList.length) (evaluate (.ofNat T) nodeId report record now).2

/-- How the fields of a record fit together, for evaluations that suspect a node after `T` flips. -/
structure Coherent (T : Nat) (r : TrustRecord) : Prop where
  /-- Without a drift, the last report was the first one again and so were those before it. -/
  undrifted : r.driftCount = 0 → r.spoofCount = 0 ∧ r.lastSeen.buildId = r.firstSeen.buildId ∧
    r.lastSeen.capabilityHash = r.firstSeen.capabilityHash
  /-- To a drift there are at most two flips, away and back. -/
  flips_le : r.spoofCount ≤ 2 * r.driftCount
  /-- Away from the digest of the baseline, the flip back is still to come. -/
  flips_lt : r.lastSeen.capabilityHash ≠ r.firstSeen.capabilityHash →
    r.spoofCount < 2 * r.driftCount
  /-- The time of the last change is that of a drift. -/
  change : r.lastChange.isSome ↔ 0 < r.driftCount
  /-- The status is the worst that the counters stand for. -/
  status : r.status =
    if max T 1 ≤ r.spoofCount then .spoofSuspect else if 0 < r.driftCount then .drift else .ok
  /-- Every suspected node has drifted, so that drifts alone decide about the health. -/
  health : r.health = if 0 < r.driftCount then .yellow else .green

variable {r : TrustRecord} {T : Nat}

theorem eq_of_not_drifts {report : AttestationReport} (h : ¬ r.Drifts report) :
    report.buildId = r.firstSeen.buildId ∧ report.capabilityHash = r.firstSeen.capabilityHash := by
  simpa only [Drifts, not_or, ne_eq, not_not] using h

theorem coherent_ofFirstReport (T : Nat) (report : AttestationReport) (now : Int) :
    (ofFirstReport report now).Coherent T where
  undrifted _ := ⟨rfl, rfl, rfl⟩
  flips_le := Nat.le_refl 0
  flips_lt h := absurd rfl h
  change := ⟨fun h => (Bool.false_ne_true h).elim, fun h => (Nat.lt_irrefl 0 h).elim⟩
  status := by
    have hzero : ¬ max T 1 ≤ 0 := by omega
    exact (if_neg hzero).symm
  health := rfl

/-- Each counter has room for one more. -/
structure HasRoom (r : TrustRecord) : Prop where
  drifts : r.driftCount + 1 < UInt64.size
  spoofs : r.spoofCount + 1 < UInt64.size

namespace Coherent

variable (h : r.Coherent T) (hroom : r.HasRoom) (nodeId : String) {report : AttestationReport}
  (now : Int)
include h hroom

/-- A drift raises the counter that every other field follows. -/
theorem compare_of_drifts (hdrifts : r.Drifts report) :
    (r.compare (.ofNat T) nodeId report now).2.Coherent T := by
  have hle := h.flips_le
  have hflips : (SpoofThreshold.ofNat T).flips = max T 1 := rfl
  simp only [compare_record, hdrifts, hflips, nextCount_of_lt hroom.drifts,
    nextCount_of_lt hroom.spoofs, true_or, if_true]
  refine ⟨?undrifted, ?le, ?lt, ?change, ?status, ?health⟩
  case undrifted => exact fun hzero => absurd hzero (Nat.succ_ne_zero _)
  case le =>
    change (if r.Flips report then r.spoofCount + 1 else r.spoofCount) ≤ 2 * (r.driftCount + 1)
    split <;> omega
  case lt =>
    intro _
    change (if r.Flips report then r.spoofCount + 1 else r.spoofCount) < 2 * (r.driftCount + 1)
    split <;> omega
  case change => exact iff_of_true rfl (Nat.succ_pos _)
  case status =>
    rw [if_pos (Nat.succ_pos _), h.status]
    by_cases hflip : r.Flips report
    · simp only [hflip, true_and, if_true]
      split_ifs <;> first | rfl | omega
    · simp only [hflip, false_and, if_false]
      split_ifs <;> rfl
  case health =>
    rw [if_pos (Nat.succ_pos _)]
    change r.health.worsen .yellow = .yellow
    rw [h.health]
    split <;> rfl

/-- A flip back to the baseline is the second one to a drift: the first led away from it. -/
theorem compare_of_flips (hdrifts : ¬ r.Drifts report) (hflip : r.Flips report) :
    (r.compare (.ofNat T) nodeId report now).2.Coherent T := by
  obtain ⟨hbuild, hdigest⟩ := eq_of_not_drifts hdrifts
  have haway : r.lastSeen.capabilityHash ≠ r.firstSeen.capabilityHash := fun hback =>
    hflip (hdigest.trans hback.symm)
  have hlt : r.spoofCount < 2 * r.driftCount := h.flips_lt haway
  have hpos : 0 < r.driftCount := by omega
  have hflips : (SpoofThreshold.ofNat T).flips = max T 1 := rfl
  simp only [compare_record, hdrifts, hflip, hflips, nextCount_of_lt hroom.spoofs, true_and,
    false_or, if_true, if_false]
  refine ⟨?undrifted, hlt, fun hne => absurd hdigest hne, h.change, ?status, ?health⟩
  case undrifted => exact fun hzero => absurd hzero (Nat.ne_of_gt hpos)
  case status =>
    rw [h.status]
    simp only [if_pos hpos]
    split_ifs <;> first | rfl | omega
  case health =>
    change (if _ then r.health.worsen .yellow else r.health) = _
    rw [h.health, if_pos hpos]
    exact ite_self _

omit hroom in
/-- A report like the first one and the last one changes nothing that counts. -/
theorem compare_of_same (hdrifts : ¬ r.Drifts report) (hflip : ¬ r.Flips report) :
    (r.compare (.ofNat T) nodeId report now).2.Coherent T := by
  obtain ⟨hbuild, hdigest⟩ := eq_of_not_drifts hdrifts
  simp only [compare_record, hdrifts, hflip, false_and, false_or, if_false]
  exact ⟨fun hzero => ⟨(h.undrifted hzero).1, hbuild, hdigest⟩, h.flips_le,
    fun hne => absurd hdigest hne, h.change, h.status, h.health⟩

/-- A further report keeps a record coherent. -/
theorem compare (report : AttestationReport) :
    (r.compare (.ofNat T) nodeId report now).2.Coherent T := by
  by_cases hdrifts : r.Drifts report
  · exact h.compare_of_drifts hroom nodeId now hdrifts
  · by_cases hflip : r.Flips report
    · exact h.compare_of_flips hroom nodeId now hdrifts hflip
    · exact h.compare_of_same nodeId now hdrifts hflip

end Coherent

/-- No report raises a counter by more than one. -/
theorem counts_compare_le (r : TrustRecord) (threshold : SpoofThreshold) (nodeId : String)
    (report : AttestationReport) (now : Int) :
    (r.compare threshold nodeId report now).2.driftCount ≤ r.driftCount + 1 ∧
      (r.compare threshold nodeId report now).2.spoofCount ≤ r.spoofCount + 1 := by
  have hnext (count : Nat) : nextCount count ≤ count + 1 := Nat.mod_le _ _
  rw [compare_record]
  constructor
  · change (if r.Drifts report then nextCount r.driftCount else r.driftCount) ≤ r.driftCount + 1
    split
    · exact hnext _
    · exact Nat.le_succ _
  · change (if r.Flips report then nextCount r.spoofCount else r.spoofCount) ≤ r.spoofCount + 1
    split
    · exact hnext _
    · exact Nat.le_succ _

/-- The first report is not counted, and every other one at most once. -/
theorem Reached.counts_lt {reports : Nat} {record : Option TrustRecord}
    (h : Reached T reports record) :
    ∀ r ∈ record, r.driftCount < reports ∧ r.spoofCount < reports := by
  induction h with
  | unknown => exact fun _ hr => absurd hr (Option.not_mem_none _)
  | @evaluate reports record nodeId report now _ ih =>
    cases report with
    | none =>
      cases record with
      | none => exact ih
      | some r => exact ih
    | some report =>
      cases record with
      | none =>
        rintro _ ⟨⟩
        exact ⟨Nat.succ_pos _, Nat.succ_pos _⟩
      | some r =>
        rintro _ ⟨⟩
        obtain ⟨hdrifts, hspoofs⟩ := ih r rfl
        obtain ⟨hdrifts', hspoofs'⟩ := r.counts_compare_le (.ofNat T) nodeId report now
        exact ⟨Nat.lt_of_le_of_lt hdrifts' (Nat.succ_lt_succ hdrifts),
          Nat.lt_of_le_of_lt hspoofs' (Nat.succ_lt_succ hspoofs)⟩

/-- **Every record that evaluations reach is coherent.** -/
theorem Reached.coherent {reports : Nat} {record : Option TrustRecord}
    (h : Reached T reports record) (hreports : reports ≤ UInt64.size) :
    ∀ r ∈ record, r.Coherent T := by
  induction h with
  | unknown => exact fun _ hr => absurd hr (Option.not_mem_none _)
  | @evaluate reports record nodeId report now hbefore ih =>
    have hcoherent := ih (Nat.le_trans (Nat.le_add_right ..) hreports)
    cases report with
    | none =>
      cases record with
      | none => exact hcoherent
      | some r => exact hcoherent
    | some report =>
      cases record with
      | none =>
        rintro _ ⟨⟩
        exact coherent_ofFirstReport T report now
      | some r =>
        rintro _ ⟨⟩
        -- Fewer reports have been counted than have come.
        obtain ⟨hdrifts, hspoofs⟩ := hbefore.counts_lt r rfl
        rw [Option.toList_some, List.length_singleton] at hreports
        exact (hcoherent r rfl).compare ⟨by omega, by omega⟩ nodeId now report

/-! ### The bound on the flips is attained -/

private def digestReport (digest : String) : AttestationReport := ⟨"b", digest, .null⟩

/-- A node that changed its digest and changed it back. -/
private def backAndForth : Option TrustRecord :=
  (evaluate (.ofNat 2) "n" (digestReport "x")
    (evaluate (.ofNat 2) "n" (digestReport "y")
      (evaluate (.ofNat 2) "n" (digestReport "x") none 0).2 1).2 2).2

private theorem reached_backAndForth : Reached 2 3 backAndForth :=
  .evaluate "n" (some (digestReport "x")) 2 <| .evaluate "n" (some (digestReport "y")) 1 <|
    .evaluate "n" (some (digestReport "x")) 0 .unknown

/-- One drift, two flips, and with them a suspicion: the last report brought no drift. -/
theorem coherent_backAndForth : Reached 2 3 backAndForth ∧ ∃ r, backAndForth = some r ∧
    r.driftCount = 1 ∧ r.spoofCount = 2 ∧ r.status = .spoofSuspect ∧ r.health = .yellow ∧
      r.lastChange = some 1 ∧ r.Coherent 2 := by
  refine ⟨reached_backAndForth, _, rfl, by decide, by decide, by decide, by decide, by decide, ?_⟩
  exact reached_backAndForth.coherent (by decide) _ rfl

end TrustRecord

end MeshNode
