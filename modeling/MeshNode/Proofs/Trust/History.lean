import Mathlib.Data.List.Induction
import MeshNode.Trust.Evaluation

/-!
# Records as functions of the history

A record is kept by evaluating one contact after another. What it holds in the end can be said
without the evaluation: the baseline is the first report or the record that was there, and every
field counts or picks from the reports after it. Drifts are counted against the baseline, flips
against the report just before, so that a report may be one, the other, both or neither.

The counters are machine words, and a record may come with any values in them. The history says what
they count as long as there is room for it (`CountsFit`), which can be told without the evaluation
too. At the end of its words a counter starts again from zero (`not_forall_evaluateAll_eq`).

The step from one record to the next is `TrustRecord.compare_after`, and `evaluateAll_eq` follows by
induction over the contacts.
-/

namespace MeshNode

/-- A report and when it arrived. -/
structure Arrival where
  report : AttestationReport
  now : Int

/-- What is evaluated at one time: a report or its absence. -/
structure Contact where
  report : Option AttestationReport
  now : Int

namespace Contact

/-- The report that a contact brings. -/
def arrival? (c : Contact) : Option Arrival := c.report.map fun report => ⟨report, c.now⟩

/-- The reports among some contacts. -/
def arrivals (contacts : List Contact) : List Arrival := contacts.filterMap arrival?

@[simp] theorem arrivals_nil : arrivals [] = [] := rfl

theorem arrivals_concat (contacts : List Contact) (c : Contact) :
    arrivals (contacts ++ [c]) = arrivals contacts ++ c.arrival?.toList := by
  simp only [arrivals, List.filterMap_append, List.filterMap_cons, List.filterMap_nil]
  cases c.arrival? <;> rfl

end Contact

/-- Evaluates the contacts of a node one after another: the outcome of each, and the record that is
left. -/
def evaluateAll (threshold : SpoofThreshold) (nodeId : String) :
    Option TrustRecord → List Contact → List Evaluation × Option TrustRecord
  | record, [] => ([], record)
  | record, c :: contacts =>
    let first := evaluate threshold nodeId c.report record c.now
    let further := evaluateAll threshold nodeId first.2 contacts
    (first.1 :: further.1, further.2)

/-- How often a digest differs from the one just before it. -/
def digestChanges : String → List String → Nat
  | _, [] => 0
  | before, digest :: digests =>
    (if digest ≠ before then 1 else 0) + digestChanges digest digests

theorem digestChanges_concat (before : String) (digests : List String) (digest : String) :
    digestChanges before (digests ++ [digest]) =
      digestChanges before digests + if digest ≠ digests.getLast?.getD before then 1 else 0 := by
  induction digests generalizing before with
  | nil => rw [List.nil_append, digestChanges, digestChanges, Nat.zero_add]; rfl
  | cons d digests ih =>
    rw [List.cons_append, digestChanges, digestChanges, ih, List.getLast?_cons, Option.getD_some,
      Nat.add_assoc]

/-! ### What a history adds up to -/

namespace TrustRecord

variable (r : TrustRecord) (T : Nat) (arrivals : List Arrival)

/-- The reports that differ from the baseline. -/
def drifting : List Arrival := arrivals.filter fun a => r.Drifts a.report

/-- The digest of the last report. -/
def lastDigest : String :=
  (arrivals.map (·.report.capabilityHash)).getLast?.getD r.lastSeen.capabilityHash

/-- How many reports had another digest than the one just before. -/
def flips : Nat := digestChanges r.lastSeen.capabilityHash (arrivals.map (·.report.capabilityHash))

/-- One of the reports was a flip, and the flips have reached the threshold. -/
def Suspected : Prop := 0 < r.flips arrivals ∧ max T 1 ≤ r.spoofCount + r.flips arrivals

instance : Decidable (r.Suspected T arrivals) := inferInstanceAs (Decidable (_ ∧ _))

/-- The record that some reports leave, read off the reports as a whole. -/
def after : TrustRecord where
  firstSeen := r.firstSeen
  lastSeen := arrivals.getLast?.elim r.lastSeen fun a =>
    ⟨a.now, a.report.buildId, a.report.capabilityHash⟩
  status :=
    if r.Suspected T arrivals then .spoofSuspect
    else if r.drifting arrivals ≠ [] then r.status.worst .drift
    else r.status
  driftCount := r.driftCount + (r.drifting arrivals).length
  spoofCount := r.spoofCount + r.flips arrivals
  lastChange := (r.drifting arrivals).getLast?.elim r.lastChange fun a => some a.now
  health :=
    if r.drifting arrivals ≠ [] ∨ r.Suspected T arrivals then r.health.worsen .yellow else r.health

/-- The words of the counters have room for what the reports add to them. -/
def Fits : Prop :=
  r.driftCount + (r.drifting arrivals).length < UInt64.size ∧
    r.spoofCount + r.flips arrivals < UInt64.size

instance : Decidable (r.Fits arrivals) := inferInstanceAs (Decidable (_ ∧ _))

/-- A report after some others is a flip that reaches the threshold or goes beyond it. -/
def Suspicious (a : Arrival) : Prop :=
  a.report.capabilityHash ≠ r.lastDigest arrivals ∧
    max T 1 ≤ r.spoofCount + r.flips (arrivals ++ [a])

instance (a : Arrival) : Decidable (r.Suspicious T arrivals a) :=
  inferInstanceAs (Decidable (_ ∧ _))

/-- What a report after some others brings to light. -/
def eventsOf (nodeId : String) (a : Arrival) : List TrustEvent :=
  (if r.Drifts a.report then
    [.drift r.firstSeen.buildId a.report.buildId (Digest.head r.firstSeen.capabilityHash)
      (Digest.head a.report.capabilityHash)] else []) ++
  if r.Suspicious T arrivals a then
    [.spoofSuspect nodeId (r.spoofCount + r.flips (arrivals ++ [a]))] else []

end TrustRecord

/-- The record that the reports of a node are compared with, and the reports that are compared with
it: without a record, the first report makes one. -/
def baseline? : Option TrustRecord → List Arrival → Option (TrustRecord × List Arrival)
  | some r, arrivals => some (r, arrivals)
  | none, [] => none
  | none, a :: arrivals => some (.ofFirstReport a.report a.now, arrivals)

/-- There is room for what the counters of the record come to. -/
def CountsFit (record : Option TrustRecord) (arrivals : List Arrival) : Prop :=
  ∀ base ∈ baseline? record arrivals, base.1.Fits base.2

/-- The record of a node after some reports. -/
def recordAfter (T : Nat) (record : Option TrustRecord) (arrivals : List Arrival) :
    Option TrustRecord :=
  (baseline? record arrivals).map fun (r, later) => r.after T later

/-- What is found at a contact after some reports. -/
def verdict (T : Nat) (nodeId : String) (record : Option TrustRecord) (earlier : List Arrival)
    (c : Contact) : Evaluation :=
  match c.arrival? with
  | none => ⟨(recordAfter T record earlier).elim .missing (·.status), [], none⟩
  | some a =>
    match baseline? record earlier with
    | none => ⟨.ok, [.firstSeen a.report.buildId (Digest.head a.report.capabilityHash)], none⟩
    | some (r, later) =>
      let events := r.eventsOf T later nodeId a
      ⟨(r.after T (later ++ [a])).status, events, if events = [] then none else some .yellow⟩

/-! ### One more report -/

namespace TrustStatus

theorem worst_worst (s t : TrustStatus) : (s.worst t).worst t = s.worst t := by
  cases s <;> cases t <;> rfl

theorem spoofSuspect_worst (s : TrustStatus) : spoofSuspect.worst s = spoofSuspect := by
  cases s <;> rfl

end TrustStatus

theorem Health.worsen_worsen (h hint : Health) : (h.worsen hint).worsen hint = h.worsen hint := by
  cases h <;> cases hint <;> rfl

namespace TrustRecord

variable {r : TrustRecord} {T : Nat} {arrivals : List Arrival} {a : Arrival}

@[simp] theorem after_nil : r.after T [] = r := by
  simp [after, drifting, Suspected, flips, digestChanges]

theorem drifts_after {report : AttestationReport} :
    (r.after T arrivals).Drifts report ↔ r.Drifts report := Iff.rfl

theorem flips_after {report : AttestationReport} :
    (r.after T arrivals).Flips report ↔ report.capabilityHash ≠ r.lastDigest arrivals := by
  have hlast : (r.after T arrivals).lastSeen.capabilityHash = r.lastDigest arrivals := by
    simp only [after, lastDigest, List.getLast?_map]
    cases arrivals.getLast? <;> rfl
  rw [Flips, hlast]

theorem drifting_concat : r.drifting (arrivals ++ [a]) =
    r.drifting arrivals ++ if r.Drifts a.report then [a] else [] := by
  by_cases h : r.Drifts a.report <;> simp [drifting, h]

theorem flips_concat : r.flips (arrivals ++ [a]) =
    r.flips arrivals + if a.report.capabilityHash ≠ r.lastDigest arrivals then 1 else 0 := by
  rw [flips, List.map_append, List.map_singleton, digestChanges_concat]
  rfl

/-- A suspicion is never taken back, and only a flip raises one. -/
theorem suspected_concat : r.Suspected T (arrivals ++ [a]) ↔
    r.Suspicious T arrivals a ∨ r.Suspected T arrivals := by
  rw [Suspected, Suspected, Suspicious, flips_concat]
  by_cases h : a.report.capabilityHash ≠ r.lastDigest arrivals
  · simp only [if_pos h, and_iff_right h]
    omega
  · rw [if_neg h, Nat.add_zero]
    exact (or_iff_right fun hsuspicious => h hsuspicious.1).symm

theorem drifting_concat_ne_nil :
    r.drifting (arrivals ++ [a]) ≠ [] ↔ r.Drifts a.report ∨ r.drifting arrivals ≠ [] := by
  rw [drifting_concat]
  by_cases h : r.Drifts a.report <;> simp [h]

/-- The record after one more report, from the record before it. -/
theorem after_concat : r.after T (arrivals ++ [a]) =
    { r.after T arrivals with
      lastSeen := ⟨a.now, a.report.buildId, a.report.capabilityHash⟩
      status :=
        if r.Suspicious T arrivals a then .spoofSuspect
        else if r.Drifts a.report then (r.after T arrivals).status.worst .drift
        else (r.after T arrivals).status
      driftCount := (r.after T arrivals).driftCount + if r.Drifts a.report then 1 else 0
      spoofCount := (r.after T arrivals).spoofCount +
        if a.report.capabilityHash ≠ r.lastDigest arrivals then 1 else 0
      lastChange := if r.Drifts a.report then some a.now else (r.after T arrivals).lastChange
      health :=
        if r.Drifts a.report ∨ r.Suspicious T arrivals a then
          (r.after T arrivals).health.worsen .yellow
        else (r.after T arrivals).health } := by
  rw [after, TrustRecord.mk.injEq]
  refine ⟨rfl, ?last, ?trust, ?drifts, ?flips, ?change, ?hint⟩
  case last => simp
  case trust =>
    simp only [suspected_concat, drifting_concat_ne_nil, after]
    by_cases hsuspicious : r.Suspicious T arrivals a
    · simp [hsuspicious]
    by_cases hsuspected : r.Suspected T arrivals
    · simp [hsuspicious, hsuspected, TrustStatus.spoofSuspect_worst]
    by_cases hdrifting : r.drifting arrivals = []
    · simp [hsuspicious, hsuspected, hdrifting]
    · simp [hsuspicious, hsuspected, hdrifting, TrustStatus.worst_worst]
  case drifts =>
    rw [drifting_concat, List.length_append, after, Nat.add_assoc]
    by_cases h : r.Drifts a.report <;> simp [h]
  case flips => rw [flips_concat, after, Nat.add_assoc]
  case change =>
    rw [drifting_concat]
    by_cases h : r.Drifts a.report <;> simp [h, after]
  case hint =>
    simp only [suspected_concat, drifting_concat_ne_nil, after]
    by_cases hbefore : r.drifting arrivals ≠ [] ∨ r.Suspected T arrivals
    · have hboth : (r.Drifts a.report ∨ r.drifting arrivals ≠ []) ∨
          r.Suspicious T arrivals a ∨ r.Suspected T arrivals := by
        grind
      rw [if_pos hboth, if_pos hbefore, Health.worsen_worsen, ite_self]
    · have heither : (r.Drifts a.report ∨ r.drifting arrivals ≠ []) ∨
          (r.Suspicious T arrivals a ∨ r.Suspected T arrivals) ↔
            r.Drifts a.report ∨ r.Suspicious T arrivals a := by
        grind
      simp only [if_neg hbefore, heither]

/-- The record that `compare` leaves, field by field. -/
theorem compare_record (r : TrustRecord) (threshold : SpoofThreshold) (nodeId : String)
    (report : AttestationReport) (now : Int) :
    (r.compare threshold nodeId report now).2 =
      { r with
        lastSeen := ⟨now, report.buildId, report.capabilityHash⟩
        status :=
          if r.Flips report ∧ threshold.flips ≤ nextCount r.spoofCount then .spoofSuspect
          else if r.Drifts report then r.status.worst .drift
          else r.status
        driftCount := if r.Drifts report then nextCount r.driftCount else r.driftCount
        spoofCount := if r.Flips report then nextCount r.spoofCount else r.spoofCount
        lastChange := if r.Drifts report then some now else r.lastChange
        health :=
          if r.Drifts report ∨ (r.Flips report ∧ threshold.flips ≤ nextCount r.spoofCount) then
            r.health.worsen .yellow
          else r.health } := by
  by_cases hdrift : r.Drifts report <;> by_cases hflip : r.Flips report <;>
    by_cases hsuspect : threshold.flips ≤ nextCount r.spoofCount <;>
    simp [compare, drifted, flipped, hdrift, hflip, hsuspect]

theorem nextCount_of_lt {count : Nat} (h : count + 1 < UInt64.size) :
    nextCount count = count + 1 := Nat.mod_eq_of_lt h

namespace Fits

variable (h : r.Fits (arrivals ++ [a]))
include h

/-- Where there is room after a report, there was room before it. -/
theorem front : r.Fits arrivals := by
  obtain ⟨hdrifts, hflips⟩ := h
  rw [drifting_concat, List.length_append] at hdrifts
  rw [flips_concat] at hflips
  exact ⟨by omega, by omega⟩

/-- A drift is counted. -/
theorem nextCount_drifts (hdrifts : r.Drifts a.report) :
    nextCount (r.after T arrivals).driftCount = (r.after T arrivals).driftCount + 1 := by
  have hroom := h.1
  rw [drifting_concat, if_pos hdrifts, List.length_append, List.length_singleton] at hroom
  exact nextCount_of_lt (Nat.add_assoc _ _ 1 ▸ hroom)

/-- A flip is counted. -/
theorem nextCount_flips (hflips : a.report.capabilityHash ≠ r.lastDigest arrivals) :
    nextCount (r.after T arrivals).spoofCount = (r.after T arrivals).spoofCount + 1 := by
  have hroom := h.2
  rw [flips_concat, if_pos hflips] at hroom
  exact nextCount_of_lt (Nat.add_assoc _ _ 1 ▸ hroom)

theorem suspicious_iff : r.Suspicious T arrivals a ↔
    a.report.capabilityHash ≠ r.lastDigest arrivals ∧
      (SpoofThreshold.ofNat T).flips ≤ nextCount (r.after T arrivals).spoofCount := by
  rw [Suspicious, flips_concat]
  exact and_congr_right fun hflips => by
    rw [if_pos hflips, ← Nat.add_assoc, h.nextCount_flips hflips]
    rfl

end Fits

/-- What `compare` makes of a record that some reports have left. -/
theorem compare_after (hfits : r.Fits (arrivals ++ [a])) (nodeId : String) :
    (r.after T arrivals).compare (.ofNat T) nodeId a.report a.now =
      (⟨(r.after T (arrivals ++ [a])).status, r.eventsOf T arrivals nodeId a,
          if r.eventsOf T arrivals nodeId a = [] then none else some .yellow⟩,
        r.after T (arrivals ++ [a])) := by
  have hdrifts : (if r.Drifts a.report then nextCount (r.after T arrivals).driftCount
      else (r.after T arrivals).driftCount) =
      (r.after T arrivals).driftCount + if r.Drifts a.report then 1 else 0 := by
    split_ifs with h
    · exact hfits.nextCount_drifts h
    · rfl
  have hflips : (if a.report.capabilityHash ≠ r.lastDigest arrivals then
        nextCount (r.after T arrivals).spoofCount else (r.after T arrivals).spoofCount) =
      (r.after T arrivals).spoofCount +
        if a.report.capabilityHash ≠ r.lastDigest arrivals then 1 else 0 := by
    split_ifs with h
    · exact hfits.nextCount_flips h
    · rfl
  have hrecord : ((r.after T arrivals).compare (.ofNat T) nodeId a.report a.now).2 =
      r.after T (arrivals ++ [a]) := by
    simp only [compare_record, after_concat, ← hfits.suspicious_iff, drifts_after, flips_after,
      hdrifts, hflips]
  have hevents : ((r.after T arrivals).compare (.ofNat T) nodeId a.report a.now).1.events =
      r.eventsOf T arrivals nodeId a := by
    simp only [compare, flips_after, ← hfits.suspicious_iff, drifts_after, driftEvent, eventsOf]
    congr 1
    by_cases h : r.Suspicious T arrivals a
    · rw [if_pos h, if_pos h, flips_concat, if_pos h.1, hfits.nextCount_flips h.1]
      rfl
    · rw [if_neg h, if_neg h]
  have hhint : ((r.after T arrivals).compare (.ofNat T) nodeId a.report a.now).1.healthHint =
      if r.eventsOf T arrivals nodeId a = [] then none else some .yellow := by
    simp only [compare, flips_after, ← hfits.suspicious_iff, drifts_after, eventsOf]
    by_cases hdrift : r.Drifts a.report <;> by_cases h : r.Suspicious T arrivals a <;>
      simp [hdrift, h]
  rw [← hrecord, ← hhint, ← hevents]
  rfl

end TrustRecord

theorem baseline?_concat (record : Option TrustRecord) (arrivals : List Arrival) (a : Arrival) :
    baseline? record (arrivals ++ [a]) =
      some ((baseline? record arrivals).elim (.ofFirstReport a.report a.now, [])
        fun (r, later) => (r, later ++ [a])) := by
  cases record <;> cases arrivals <;> rfl

/-- Where there is room after a contact, there was room before it. -/
theorem CountsFit.front {record : Option TrustRecord} {earlier : List Arrival} {c : Contact}
    (h : CountsFit record (earlier ++ c.arrival?.toList)) : CountsFit record earlier := by
  intro base hbase
  cases hc : c.arrival? with
  | none =>
    rw [hc, Option.toList_none, List.append_nil] at h
    exact h base hbase
  | some a =>
    rw [hc, Option.toList_some] at h
    have hlater := h (base.1, base.2 ++ [a]) (by rw [baseline?_concat, hbase]; rfl)
    exact hlater.front

/-- What an evaluation finds at a contact after some reports, and the record that it leaves. -/
theorem evaluate_recordAfter (T : Nat) (nodeId : String) (record : Option TrustRecord)
    (earlier : List Arrival) (c : Contact)
    (hfits : CountsFit record (earlier ++ c.arrival?.toList)) :
    evaluate (.ofNat T) nodeId c.report (recordAfter T record earlier) c.now =
      (verdict T nodeId record earlier c,
        recordAfter T record (earlier ++ c.arrival?.toList)) := by
  obtain ⟨report, now⟩ := c
  cases report with
  | none =>
    rw [verdict, Contact.arrival?, Option.map_none, Option.toList_none, List.append_nil]
    cases recordAfter T record earlier <;> rfl
  | some report =>
    simp only [Contact.arrival?, Option.map_some, Option.toList_some] at hfits
    simp only [recordAfter, verdict, Contact.arrival?, Option.map_some, Option.toList_some,
      baseline?_concat]
    cases hbase : baseline? record earlier with
    | none => simp only [Option.map_none, Option.elim_none, TrustRecord.after_nil, evaluate]
    | some base =>
      have hroom : base.1.Fits (base.2 ++ [⟨report, now⟩]) :=
        hfits (base.1, base.2 ++ [⟨report, now⟩]) (by rw [baseline?_concat, hbase]; rfl)
      simp only [Option.map_some, Option.elim_some, evaluate,
        TrustRecord.compare_after (a := ⟨report, now⟩) hroom]

/-! ### All contacts -/

theorem evaluateAll_append (threshold : SpoofThreshold) (nodeId : String)
    (record : Option TrustRecord) (before later : List Contact) :
    evaluateAll threshold nodeId record (before ++ later) =
      ((evaluateAll threshold nodeId record before).1 ++
          (evaluateAll threshold nodeId (evaluateAll threshold nodeId record before).2 later).1,
        (evaluateAll threshold nodeId (evaluateAll threshold nodeId record before).2 later).2) := by
  induction before generalizing record with
  | nil => rfl
  | cons c before ih => simp only [List.cons_append, evaluateAll, ih]

/-- **The record of a node is what its history adds up to**, and at every contact the evaluation
finds what the reports before it amount to, as long as there is room for the counts. The induction
adds contacts at the end, as `recordAfter` and `verdict` add reports there. -/
theorem evaluateAll_eq (T : Nat) (nodeId : String) (record : Option TrustRecord)
    (contacts : List Contact) (hfits : CountsFit record (Contact.arrivals contacts)) :
    evaluateAll (.ofNat T) nodeId record contacts =
      (contacts.mapIdx fun i c => verdict T nodeId record (Contact.arrivals (contacts.take i)) c,
        recordAfter T record (Contact.arrivals contacts)) := by
  induction contacts using List.reverseRecOn with
  | nil => cases record <;> simp [evaluateAll, recordAfter, baseline?]
  | append_singleton contacts c ih =>
    rw [Contact.arrivals_concat] at hfits
    have hearlier : (contacts.mapIdx fun i c' =>
          verdict T nodeId record (Contact.arrivals ((contacts ++ [c]).take i)) c') =
        contacts.mapIdx fun i c' =>
          verdict T nodeId record (Contact.arrivals (contacts.take i)) c' := by
      rw [List.mapIdx_eq_mapIdx_iff]
      intro i hi
      rw [List.take_append_of_le_length (Nat.le_of_lt hi)]
    rw [evaluateAll_append, ih hfits.front, List.mapIdx_concat, hearlier, List.take_left,
      Contact.arrivals_concat]
    simp only [evaluateAll, evaluate_recordAfter T nodeId record _ c hfits]

/-! ### At the end of the words -/

/-- A record of which the second counter is one short of its greatest value. -/
private def nearlyFull : TrustRecord :=
  { TrustRecord.ofFirstReport ⟨"b", "x", .null⟩ 0 with spoofCount := UInt64.size - 2 }

private def flipAt (digest : String) (now : Int) : Contact := ⟨some ⟨"b", digest, .null⟩, now⟩

/-- One more flip is counted and arouses suspicion. -/
theorem evaluateAll_eq_of_last_count :
    CountsFit (some nearlyFull) (Contact.arrivals [flipAt "y" 1]) ∧
      (evaluateAll (.ofNat 3) "n" (some nearlyFull) [flipAt "y" 1]).2.map (·.spoofCount) =
        some (UInt64.size - 1) := by
  have hfits : CountsFit (some nearlyFull) (Contact.arrivals [flipAt "y" 1]) := by
    rintro base ⟨⟩
    decide
  refine ⟨hfits, ?_⟩
  rw [evaluateAll_eq 3 "n" (some nearlyFull) [flipAt "y" 1] hfits]
  decide

/-- **A counter that is full starts again from zero**, and the flip that does it goes unnoticed. -/
theorem not_forall_evaluateAll_eq :
    ¬ ∀ (T : Nat) (nodeId : String) (record : Option TrustRecord) (contacts : List Contact),
      (∀ r ∈ record, r.driftCount < UInt64.size ∧ r.spoofCount < UInt64.size) →
        evaluateAll (.ofNat T) nodeId record contacts =
          (contacts.mapIdx fun i c =>
              verdict T nodeId record (Contact.arrivals (contacts.take i)) c,
            recordAfter T record (Contact.arrivals contacts)) := by
  intro hall
  let full : TrustRecord := { nearlyFull with spoofCount := UInt64.size - 1 }
  have hwords : ∀ r ∈ some full, r.driftCount < UInt64.size ∧ r.spoofCount < UInt64.size := by
    rintro _ ⟨⟩
    decide
  have hcount := congrArg (fun outcome => outcome.2.map (·.spoofCount))
    (hall 3 "n" (some full) [flipAt "y" 1] hwords)
  exact absurd hcount (by decide)

end MeshNode
