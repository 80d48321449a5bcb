import MeshNode.Proofs.Job.Traffic

/-!
# Calls that run alone

A call goes straight through its stages while no other is under way. Either it is not authorized, or
there is no row of its attempt and it carries the attempt out, or there is one and the call answers
with what it finds. The rows that there were stay as they are each time (`JobRunner.row_run`).
-/

namespace MeshNode

namespace JobRunner

variable {r : JobRunner} {c : RunCall} {w : Workspace} {claim : Claim}

/-- A call that is not authorized is over, and has changed nothing. -/
theorem run_of_unauthorized {e : AuthError} (h : c.authorization r = .error e) :
    r.run c w = (.error (.auth e), w) := by
  rw [RunCall.authorization] at h
  simp only [run, RunCall.maxSteps, RunCall.advance, RunCall.step, h]

/-- A call carries out an attempt without a row, records the result and answers with it. -/
theorem run_of_free (hauth : c.authorization r = .ok claim)
    (hfree : w.row claim.attemptId = none) :
    ∃ (t : FileTree) (result : Json) (w' : Workspace),
      result = (Job.execute r.jail c.spec.kind c.spec.args
        (c.spec.timeout r.config.defaultTimeout r.config.maxTimeout) c.nowMillis t).1.result ∧
      r.run c w = (.ok ⟨c.requestId, claim.attemptId, claim.jobId, false, result⟩, w') ∧
      w'.row = Function.update w.row claim.attemptId
        (some (Ledger.completedRow (Ledger.claimedRow c.now) result)) := by
  have hbegin := RunCall.step_begun_of_authorization hauth w
  obtain ⟨w₁, hclaim⟩ : ∃ w₁, c.step r (.authorized claim) w = some (.won claim, w₁) := by
    have hwon := (w.ledger.claim_won claim.attemptId c.now w.files).trans
      (Option.isNone_iff_eq_none.mpr hfree)
    simp only [RunCall.step, hwon, if_true]
    exact ⟨_, rfl⟩
  obtain ⟨t, result, w₂, hresult, hexecute⟩ : ∃ t result w₂,
      result = (Job.execute r.jail c.spec.kind c.spec.args
        (c.spec.timeout r.config.defaultTimeout r.config.maxTimeout) c.nowMillis t).1.result ∧
      c.step r (.won claim) w₁ = some (.executed claim result, w₂) := ⟨w₁.files, _, _, rfl, rfl⟩
  obtain ⟨w₃, hcomplete⟩ : ∃ w₃, c.step r (.executed claim result) w₂ =
      some (c.respond claim false result, w₃) := ⟨_, rfl⟩
  refine ⟨t, result, w₃, hresult, run_of_advance ?_, ?_⟩
  · rw [RunCall.maxSteps, RunCall.advance_of_step hbegin, RunCall.advance_of_step hclaim,
      RunCall.advance_of_step hexecute, RunCall.advance_of_step hcomplete]
    rfl
  · cases RunCall.turn_of_step hclaim with
    | win _ hclaimed =>
      cases RunCall.turn_of_step hexecute with
      | execute _ hexecuted =>
        cases RunCall.turn_of_step hcomplete with
        | complete hcompleted =>
          rw [hcompleted, hexecuted, hclaimed, Function.update_self, Function.update_idem]
          rfl

/-- A call does nothing but look an attempt up that has a row. -/
theorem run_of_taken {held : LedgerRow} {answer : Except MeshError RunResponse}
    (hauth : c.authorization r = .ok claim) (hheld : w.row claim.attemptId = some held)
    (hlooked : c.lookedUp claim (some held) = .done answer) :
    ∃ w', r.run c w = (answer, w') ∧ w'.row = w.row := by
  have hbegin := RunCall.step_begun_of_authorization hauth w
  obtain ⟨w₁, hclaim⟩ : ∃ w₁, c.step r (.authorized claim) w = some (.lost claim, w₁) := by
    have hlost := w.ledger.claim_won claim.attemptId c.now w.files
    rw [show w.ledger.ledger.rows.get? claim.attemptId = some held from hheld] at hlost
    simp only [RunCall.step, hlost, Option.isNone_some, Bool.false_eq_true, if_false]
    exact ⟨_, rfl⟩
  cases RunCall.turn_of_step hclaim with
  | lose _ hsame =>
    obtain ⟨_, hdone⟩ | ⟨⟨stage, w₂⟩, hlook⟩ := RunCall.exists_step r c (.lost claim) w₁
    · cases hdone
    · cases RunCall.turn_of_step hlook with
      | lookUp hrow =>
        rw [hsame, hheld, hlooked] at hlook
        refine ⟨w₂, run_of_advance ?_, hrow.trans hsame⟩
        rw [RunCall.maxSteps, RunCall.advance_of_step hbegin, RunCall.advance_of_step hclaim,
          RunCall.advance_of_step hlook]
        rfl

/-- A call leaves the rows that there are. -/
theorem row_run {id : String} {held : LedgerRow} (hheld : w.row id = some held) :
    (r.run c w).2.row id = some held := by
  cases hauth : c.authorization r with
  | error e =>
    rw [run_of_unauthorized hauth]
    exact hheld
  | ok claim =>
    cases hrow : w.row claim.attemptId with
    | none =>
      obtain ⟨t, result, w', -, hrun, hrow'⟩ := run_of_free hauth hrow
      have hne : id ≠ claim.attemptId := by
        rintro rfl
        rw [hheld] at hrow
        cases hrow
      rw [hrun, hrow', Function.update_of_ne hne, hheld]
    | some found =>
      obtain ⟨answer, hlooked⟩ := c.exists_lookedUp_eq_done claim (some found)
      obtain ⟨w', hrun, hrow'⟩ := run_of_taken hauth hrow hlooked
      rw [hrun, hrow', hheld]

end JobRunner

end MeshNode
