import Mathlib.Data.List.DropRight
import MeshNode.Proofs.Trust.History
import MeshNode.Proofs.Trust.Service

/-!
# Health under operators' verdicts

Two writers share the health of a record. Reports can only make it yellow, when they drift or raise
a suspicion, and only if it is green. Operators can make it anything, once there is a record. What
it is at any time depends on the past calls about the node in a simple way, `healthAfter`: on the
last verdict since the first report, and on whether any report since that verdict was a reason for
alarm. A report that goes back to the baseline may be one, by the flip that it is.

`Handled` are the pasts of a service as they are seen from one node: the calls about it that were
answered, with their answers. Calls about other nodes come in between, and so do calls whose save
fails, but they leave no trace in the record. The induction in `Handled.shown` adds a call at the
end of the past, where `ruling_concat_of_verdict` and `ruling_concat` say what it adds.
-/

namespace MeshNode

/-! ### What a call does to the service -/

namespace TrustCall

variable {c : TrustCall} {s s' : TrustService} {t t' : FileTree}

/-- A call that runs alone is answered with its effect, which then is what the service shows, or it
fails and leaves the service as it is. -/
theorem run_cases (hlocked : s.locked = []) {result : Except StoreError TrustAnswer}
    (h : c.run s t = (result, s', t')) :
    s'.threshold = s.threshold ∧ s'.locked = [] ∧
      ((result = .ok (c.effect s.threshold (s.record c.node)).1 ∧
          s'.record = Function.update s.record c.node (c.effect s.threshold (s.record c.node)).2) ∨
        ∃ e, result = .error e ∧ s'.record = s.record) := by
  rcases c.run_eq hlocked t with ⟨answer, heffect, hrun⟩ | ⟨answer, after, heffect, hrun⟩
  · rw [hrun] at h
    cases h
    rw [heffect, Function.update_eq_self]
    exact ⟨rfl, hlocked, Or.inl ⟨rfl, rfl⟩⟩
  · rw [hrun] at h
    rcases hsave : (s.store.save c.node after).run t with ⟨e | store, _⟩
    · rw [hsave] at h
      cases h
      exact ⟨rfl, hlocked, Or.inr ⟨e, rfl, rfl⟩⟩
    · rw [hsave] at h
      cases h
      obtain rfl := TrustStore.eq_of_save hsave
      rw [heffect]
      exact ⟨rfl, hlocked, Or.inl ⟨rfl, TrustStore.load_insert s.store c.node after⟩⟩

/-- A call that is answered leaves the record that is its effect. -/
theorem record_of_run (hlocked : s.locked = []) {answer : TrustAnswer}
    (h : c.run s t = (.ok answer, s', t')) :
    answer = (c.effect s.threshold (s.record c.node)).1 ∧
      s'.record = Function.update s.record c.node (c.effect s.threshold (s.record c.node)).2 := by
  obtain ⟨-, -, ⟨hanswer, hrecord⟩ | ⟨e, ⟨⟩, -⟩⟩ := run_cases hlocked h
  exact ⟨Except.ok.inj hanswer, hrecord⟩

/-- A verdict on a node without a record is answered at once. -/
theorem run_setHealth_of_unknown (hlocked : s.locked = []) {node : String}
    (hrecord : s.record node = none) (health : Health) (t : FileTree) :
    (setHealth node health).run s t = (.ok (.health none), s, t) := by
  have heffect : (setHealth node health).effect s.threshold (s.record node) =
      (.health none, none) := by
    rw [hrecord]
    rfl
  rcases run_eq (setHealth node health) hlocked t with ⟨answer, hsame, hrun⟩ |
    ⟨answer, after, hsome, -⟩
  · have hanswer : TrustAnswer.health none = answer :=
      congrArg Prod.fst (heffect.symm.trans hsame)
    rw [hrun, hanswer]
  · cases heffect.symm.trans hsome

end TrustCall

/-! ### The past of a node -/

/-- Whether an event is a suspicion. -/
def TrustEvent.isSuspicion : TrustEvent → Bool
  | spoofSuspect .. => true
  | firstSeen .. | drift .. => false

/-- A call that was answered. -/
structure Dealing where
  call : TrustCall
  answer : TrustAnswer

namespace Dealing

/-- The report that a call brought. -/
def report? (d : Dealing) : Option AttestationReport :=
  match d.call with
  | .ingest _ report _ => report
  | .setHealth .. => none

/-- The verdict that a call was. -/
def verdict? (d : Dealing) : Option Health :=
  match d.call with
  | .setHealth _ health => some health
  | .ingest .. => none

/-- Whether the answer to a call tells of a suspicion. -/
def suspects (d : Dealing) : Bool :=
  match d.answer with
  | .evaluated evaluation _ => evaluation.events.any TrustEvent.isSuspicion
  | .health _ => false

/-- The call is a reason for alarm: its report differs from the first one, or led to a suspicion. -/
def Alarms (first : AttestationReport) (d : Dealing) : Prop :=
  (∃ report ∈ d.report?, report.buildId ≠ first.buildId ∨
    report.capabilityHash ≠ first.capabilityHash) ∨ d.suspects = true

instance (first : AttestationReport) (d : Dealing) : Decidable (d.Alarms first) :=
  inferInstanceAs (Decidable (_ ∨ _))

/-- The first report in a past. -/
def firstReport? (past : List Dealing) : Option AttestationReport := past.findSome? report?

/-- A past from the first report on. -/
def sinceContact (past : List Dealing) : List Dealing := past.dropWhile fun d => d.report?.isNone

/-- The last verdict among some calls; none at all counts as green. -/
def lastVerdict (calls : List Dealing) : Health := (calls.filterMap verdict?).getLast?.getD .green

/-- The calls after the last verdict, or all if there is no verdict. -/
def sinceVerdict (calls : List Dealing) : List Dealing :=
  calls.rtakeWhile fun d => d.verdict?.isNone

/-- What the calls since the first report amount to. -/
def ruling (first : AttestationReport) (calls : List Dealing) : Health :=
  if lastVerdict calls = .red then .red
  else if lastVerdict calls = .yellow ∨ ∃ d ∈ sinceVerdict calls, d.Alarms first then .yellow
  else .green

/-- The health of a node by its past; there is none before the first report. -/
def healthAfter (past : List Dealing) : Option Health :=
  (firstReport? past).map fun first => ruling first (sinceContact past)

/-! ### One more call -/

variable {first : AttestationReport} {past calls : List Dealing} {d : Dealing}

theorem firstReport?_concat : firstReport? (past ++ [d]) = (firstReport? past).or d.report? := by
  rw [firstReport?, List.findSome?_append, List.findSome?_singleton]
  rfl

theorem sinceContact_of_none (h : firstReport? past = none) : sinceContact past = [] := by
  rw [firstReport?, List.findSome?_eq_none_iff] at h
  rw [sinceContact, List.dropWhile_eq_nil_iff]
  exact fun d hd => by rw [h d hd, Option.isNone_none]

theorem sinceContact_concat_of_none (h : firstReport? past = none) :
    sinceContact (past ++ [d]) = if d.report?.isNone then [] else [d] := by
  have hnil := sinceContact_of_none h
  rw [sinceContact] at hnil ⊢
  rw [List.dropWhile_append, hnil]
  cases hreport : d.report? <;> simp [hreport]

theorem sinceContact_concat_of_some (h : firstReport? past = some first) :
    sinceContact (past ++ [d]) = sinceContact past ++ [d] := by
  have hne : sinceContact past ≠ [] := by
    intro hnil
    rw [sinceContact, List.dropWhile_eq_nil_iff] at hnil
    have hnone : firstReport? past = none :=
      List.findSome?_eq_none_iff.mpr fun d hd => Option.isNone_iff_eq_none.mp (hnil d hd)
    rw [hnone] at h
    cases h
  rw [sinceContact] at hne ⊢
  rw [List.dropWhile_append, if_neg (by simpa using hne)]
  rfl

/-- A verdict settles the matter. -/
theorem ruling_concat_of_verdict {health : Health} (h : d.verdict? = some health) :
    ruling first (calls ++ [d]) = health := by
  have hlast : lastVerdict (calls ++ [d]) = health := by
    simp [lastVerdict, h]
  have hsince : sinceVerdict (calls ++ [d]) = [] :=
    List.rtakeWhile_concat_neg _ _ _ (by rw [h]; exact Bool.false_ne_true)
  rw [ruling, hlast, hsince]
  cases health <;> simp

/-- A call that is no verdict makes things worse if it is a reason for alarm. -/
theorem ruling_concat (h : d.verdict? = none) :
    ruling first (calls ++ [d]) =
      if d.Alarms first then (ruling first calls).worsen .yellow else ruling first calls := by
  have hlast : lastVerdict (calls ++ [d]) = lastVerdict calls := by
    simp [lastVerdict, h]
  have hsince : sinceVerdict (calls ++ [d]) = sinceVerdict calls ++ [d] :=
    List.rtakeWhile_concat_pos _ _ _ (by rw [h]; rfl)
  have hexists : (∃ e ∈ sinceVerdict calls ++ [d], e.Alarms first) ↔
      (∃ e ∈ sinceVerdict calls, e.Alarms first) ∨ d.Alarms first := by
    simp [or_and_right, exists_or]
  simp only [ruling, hlast, hsince, hexists]
  by_cases hd : d.Alarms first
  · rw [if_pos hd]
    by_cases hcalls : ∃ e ∈ sinceVerdict calls, e.Alarms first <;>
      cases lastVerdict calls <;> simp [hd, hcalls, Health.worsen, Health.severity]
  · simp only [hd, or_false, if_false]

/-! ### The record of the node -/

/-- A record that shows what the past calls amount to. -/
inductive Shown (past : List Dealing) : Option TrustRecord → Prop where
  | unknown (hfirst : firstReport? past = none) : Shown past none
  | known {first : AttestationReport} {r : TrustRecord} (hfirst : firstReport? past = some first)
      (hbuild : r.firstSeen.buildId = first.buildId)
      (hdigest : r.firstSeen.capabilityHash = first.capabilityHash)
      (hhealth : r.health = ruling first (sinceContact past)) : Shown past (some r)

theorem Shown.eq_none {record : Option TrustRecord} (h : Shown past record)
    (hfirst : firstReport? past = none) : record = none := by
  cases h with
  | unknown => rfl
  | known hsome => cases hfirst.symm.trans hsome

theorem Shown.exists_eq_some {record : Option TrustRecord} (h : Shown past record)
    (hfirst : firstReport? past = some first) : ∃ r, record = some r := by
  cases h with
  | unknown hnone => cases hfirst.symm.trans hnone
  | known => exact ⟨_, rfl⟩

theorem Shown.health_eq {record : Option TrustRecord} (h : Shown past record) :
    record.map (·.health) = healthAfter past := by
  rw [healthAfter]
  cases h with
  | unknown hfirst => rw [hfirst, Option.map_none, Option.map_none]
  | known hfirst _ _ hhealth => rw [hfirst, Option.map_some, Option.map_some, hhealth]

/-- A report is a reason for alarm as far as the evaluation hints at a worse health. -/
theorem alarms_iff_of_compare {r : TrustRecord} (hbuild : r.firstSeen.buildId = first.buildId)
    (hdigest : r.firstSeen.capabilityHash = first.capabilityHash) (threshold : SpoofThreshold)
    (node : String) (report : AttestationReport) (now : Int) (record : Option TrustRecord) :
    Alarms first ⟨.ingest node (some report) now,
        .evaluated (r.compare threshold node report now).1 record⟩ ↔
      r.Drifts report ∨ (r.Flips report ∧ threshold.flips ≤ TrustRecord.nextCount r.spoofCount) := by
  have hreport : (∃ x ∈ some report, x.buildId ≠ first.buildId ∨
      x.capabilityHash ≠ first.capabilityHash) ↔ r.Drifts report := by
    rw [TrustRecord.Drifts, hbuild, hdigest]
    simp
  have hevents : (r.compare threshold node report now).1.events.any TrustEvent.isSuspicion = true ↔
      r.Flips report ∧ threshold.flips ≤ TrustRecord.nextCount r.spoofCount := by
    simp only [TrustRecord.compare, List.any_append, Bool.or_eq_true]
    by_cases hdrift : r.Drifts report <;>
      by_cases hsuspect : r.Flips report ∧ threshold.flips ≤ TrustRecord.nextCount r.spoofCount <;>
      simp [hdrift, hsuspect, TrustRecord.driftEvent, TrustEvent.isSuspicion]
  exact or_congr hreport hevents

/-- Without a report nothing is alarming. -/
theorem not_alarms_of_absent {node : String} {now : Int} {evaluation : Evaluation}
    (hevents : evaluation.events = []) (record : Option TrustRecord) :
    ¬ Alarms first ⟨.ingest node none now, .evaluated evaluation record⟩ := by
  rintro (⟨_, ⟨⟩, -⟩ | hsuspects)
  simp only [suspects, hevents, List.any_nil, Bool.false_eq_true] at hsuspects

/-- The first report shows in the record that it makes. -/
theorem shown_ofFirstReport (hfirst : firstReport? past = none) (node : String)
    (report : AttestationReport) (now : Int) (threshold : SpoofThreshold) :
    Shown
      (past ++ [⟨.ingest node (some report) now,
        ((TrustCall.ingest node (some report) now).effect threshold none).1⟩])
      (some (.ofFirstReport report now)) := by
  refine .known (by rw [firstReport?_concat, hfirst]; rfl) rfl rfl ?_
  rw [sinceContact_concat_of_none hfirst]
  simp [TrustRecord.ofFirstReport, ruling, lastVerdict, sinceVerdict, List.rtakeWhile, verdict?,
    Alarms, report?, suspects, TrustCall.effect, evaluate, TrustEvent.isSuspicion]

/-- A further call shows in the record. -/
theorem Shown.concat {record : Option TrustRecord} (h : Shown past record) (c : TrustCall)
    (threshold : SpoofThreshold) :
    Shown (past ++ [⟨c, (c.effect threshold record).1⟩]) (c.effect threshold record).2 := by
  cases h with
  | unknown hfirst =>
    cases c with
    | setHealth node health => exact .unknown (by rw [firstReport?_concat, hfirst]; rfl)
    | ingest node report now =>
      cases report with
      | none => exact .unknown (by rw [firstReport?_concat, hfirst]; rfl)
      | some report => exact shown_ofFirstReport hfirst node report now threshold
  | @known first r hfirst hbuild hdigest hhealth =>
    have hfirst' (d : Dealing) : firstReport? (past ++ [d]) = some first := by
      rw [firstReport?_concat, hfirst]
      rfl
    cases c with
    | setHealth node health =>
      refine .known (hfirst' _) hbuild hdigest ?_
      rw [sinceContact_concat_of_some hfirst]
      exact (ruling_concat_of_verdict rfl).symm
    | ingest node report now =>
      cases report with
      | none =>
        refine .known (hfirst' _) hbuild hdigest ?_
        rw [sinceContact_concat_of_some hfirst, ruling_concat rfl]
        exact hhealth.trans (if_neg (not_alarms_of_absent rfl _)).symm
      | some report =>
        have hrecord := r.compare_record threshold node report now
        refine .known (hfirst' _) ?_ ?_ ?_
        · exact (congrArg (·.firstSeen.buildId) hrecord).trans hbuild
        · exact (congrArg (·.firstSeen.capabilityHash) hrecord).trans hdigest
        · have halarms := alarms_iff_of_compare hbuild hdigest threshold node report now
            (some (r.compare threshold node report now).2)
          rw [sinceContact_concat_of_some hfirst, ruling_concat rfl]
          refine (congrArg (·.health) hrecord).trans ?_
          simp only [← halarms, hhealth]
          rfl

end Dealing

/-! ### Red -/

theorem Health.worsen_yellow_eq_red_iff (h : Health) : h.worsen .yellow = .red ↔ h = .red := by
  cases h <;> decide

/-- A report neither makes a record red nor takes the red from it. -/
theorem TrustCall.effect_ingest_red_iff (node : String) (report : Option AttestationReport)
    (now : Int) (threshold : SpoofThreshold) (record : Option TrustRecord) :
    ((ingest node report now).effect threshold record).2.map (·.health) = some .red ↔
      record.map (·.health) = some .red := by
  cases report with
  | none => cases record <;> exact Iff.rfl
  | some report =>
    cases record with
    | none => exact iff_of_false nofun nofun
    | some r =>
      have hrecord := congrArg (·.health) (r.compare_record threshold node report now)
      simp only [effect, evaluate, Option.map_some, Option.some_inj, hrecord]
      split
      · exact Health.worsen_yellow_eq_red_iff r.health
      · exact Iff.rfl

/-! ### The service -/

/-- What has become of a service over a store that does not know a node, and the past of that node:
its calls that were answered. Calls about other nodes and calls that failed are not part of it. The
files may change between two calls, since the service does not read them. -/
inductive Handled (threshold : SpoofThreshold) (store : TrustStore) (node : String) :
    List Dealing → TrustService → Prop where
  | fresh (hunknown : store.load node = none) :
      Handled threshold store node [] (.ofStore threshold store)
  | answered {past : List Dealing} {c : TrustCall} {s s' : TrustService} {t t' : FileTree}
      {answer : TrustAnswer} (h : Handled threshold store node past s) (hnode : c.node = node)
      (hrun : c.run s t = (.ok answer, s', t')) :
      Handled threshold store node (past ++ [⟨c, answer⟩]) s'
  | aside {past : List Dealing} {c : TrustCall} {s s' : TrustService} {t t' : FileTree}
      {result : Except StoreError TrustAnswer} (h : Handled threshold store node past s)
      (haside : c.node ≠ node ∨ ∃ e, result = .error e) (hrun : c.run s t = (result, s', t')) :
      Handled threshold store node past s'

/-- What holds of the health of a node after some calls. -/
structure Governed (node : String) (past : List Dealing) (s : TrustService) : Prop where
  /-- It is what the past amounts to. -/
  health : (s.record node).map (·.health) = Dealing.healthAfter past
  /-- Before the first report a verdict finds nothing and changes nothing. -/
  early : Dealing.firstReport? past = none → ∀ health t,
    (TrustCall.setHealth node health).run s t = (.ok (.health none), s, t)
  /-- Afterwards a verdict replaces the health in the record of the node and nothing else. -/
  verdict : ∀ first, Dealing.firstReport? past = some first → ∃ r, s.record node = some r ∧
    ∀ health t answer s' t',
      (TrustCall.setHealth node health).run s t = (.ok answer, s', t') →
        answer = .health (some { r with health }) ∧
          s'.record = Function.update s.record node (some { r with health }) ∧
          s'.threshold = s.threshold ∧ s'.locked = s.locked
  /-- What a node sends neither makes its health red nor anything else of a red one. -/
  red : ∀ report now t answer s' t',
    (TrustCall.ingest node report now).run s t = (.ok answer, s', t') →
      ((s'.record node).map (·.health) = some .red ↔ (s.record node).map (·.health) = some .red)

namespace Handled

variable {threshold : SpoofThreshold} {store : TrustStore} {node : String} {past : List Dealing}
  {s : TrustService}

/-- The past of a node shows in its record. -/
theorem shown (h : Handled threshold store node past s) :
    s.locked = [] ∧ Dealing.Shown past (s.record node) := by
  induction h with
  | fresh hunknown =>
    refine ⟨rfl, ?_⟩
    rw [TrustService.record, TrustService.ofStore, hunknown]
    exact .unknown rfl
  | answered _ hnode hrun ih =>
    obtain ⟨hlocked, hshown⟩ := ih
    obtain ⟨-, hfree, -⟩ := TrustCall.run_cases hlocked hrun
    obtain ⟨rfl, hrecord⟩ := TrustCall.record_of_run hlocked hrun
    rw [← hnode] at hshown
    rw [hrecord, ← hnode, Function.update_self]
    exact ⟨hfree, hshown.concat _ _⟩
  | aside _ haside hrun ih =>
    obtain ⟨hlocked, hshown⟩ := ih
    obtain ⟨-, hfree, ⟨hresult, hrecord⟩ | ⟨e, -, hrecord⟩⟩ := TrustCall.run_cases hlocked hrun
    · have hne : node ≠ _ := haside.resolve_right (by rw [hresult]; rintro ⟨_, ⟨⟩⟩) |>.symm
      rw [hrecord, Function.update_of_ne hne]
      exact ⟨hfree, hshown⟩
    · rw [hrecord]
      exact ⟨hfree, hshown⟩

/-- **The health of a node is governed by the verdicts on it and by the reports since the last of
them**, whatever calls the service has handled. -/
theorem governed (h : Handled threshold store node past s) : Governed node past s := by
  obtain ⟨hlocked, hshown⟩ := h.shown
  refine ⟨hshown.health_eq, ?early, ?verdict, ?red⟩
  case early =>
    intro hfirst health t
    exact TrustCall.run_setHealth_of_unknown hlocked (hshown.eq_none hfirst) health t
  case verdict =>
    intro first hfirst
    obtain ⟨r, hrecord⟩ := hshown.exists_eq_some hfirst
    refine ⟨r, hrecord, fun health t answer s' t' hrun => ?_⟩
    obtain ⟨hthreshold, hfree, -⟩ := TrustCall.run_cases hlocked hrun
    obtain ⟨hanswer, hafter⟩ := TrustCall.record_of_run hlocked hrun
    simp only [TrustCall.node, hrecord] at hanswer hafter
    exact ⟨hanswer, hafter, hthreshold, hfree.trans hlocked.symm⟩
  case red =>
    intro report now t answer s' t' hrun
    obtain ⟨-, hafter⟩ := TrustCall.record_of_run hlocked hrun
    rw [hafter, TrustCall.node, Function.update_self]
    exact TrustCall.effect_ingest_red_iff node report now s.threshold (s.record node)

/-! ### A suspicion after a verdict -/

private def build (digest : String) : Option AttestationReport := some ⟨"b", digest, .null⟩

/-- Verdicts and reports in turn: the last report is the baseline's again. -/
private def exchange : List TrustCall :=
  [.setHealth "n" .red, .ingest "n" (build "x") 0, .setHealth "n" .red, .ingest "n" (build "y") 1,
    .setHealth "n" .green, .ingest "n" none 2, .ingest "n" (build "x") 3]

private theorem handled_exchange : ∃ past s,
    Handled (.ofNat 2) .inMemory "n" past s ∧ past.map (·.call) = exchange ∧
      Dealing.healthAfter past = some .yellow := by
  have h0 : Handled (.ofNat 2) .inMemory "n" [] (.ofStore (.ofNat 2) .inMemory) := .fresh rfl
  have h1 := h0.answered (c := .setHealth "n" .red) (t := .empty) rfl rfl
  have h2 := h1.answered (c := .ingest "n" (build "x") 0) (t := .empty) rfl rfl
  have h3 := h2.answered (c := .setHealth "n" .red) (t := .empty) rfl rfl
  have h4 := h3.answered (c := .ingest "n" (build "y") 1) (t := .empty) rfl rfl
  have h5 := h4.answered (c := .setHealth "n" .green) (t := .empty) rfl rfl
  have h6 := h5.answered (c := .ingest "n" none 2) (t := .empty) rfl rfl
  have h7 := h6.answered (c := .ingest "n" (build "x") 3) (t := .empty) rfl rfl
  exact ⟨_, _, h7, rfl, rfl⟩

/-- The health is yellow again, for the flip back that is the second. -/
theorem governed_exchange : ∃ past s, Handled (.ofNat 2) .inMemory "n" past s ∧
    past.map (·.call) = exchange ∧ (s.record "n").map (·.health) = some .yellow ∧
      Governed "n" past s := by
  obtain ⟨past, s, h, hcalls, hhealth⟩ := handled_exchange
  exact ⟨past, s, h, hcalls, h.governed.health.trans hhealth, h.governed⟩

end Handled

end MeshNode
