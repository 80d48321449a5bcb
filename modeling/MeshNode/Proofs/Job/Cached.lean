import MeshNode.Proofs.Job.Once

/-!
# Whose result a cached answer has

The ledger goes by attempt ids alone: a row does not say for which job its attempt was claimed, and
a request names its attempt by whichever of three ids it has. So a cached answer has the result of
the one call that carried out the attempt, and the job id of the request that it answers
(`cached_origin`). The two belong together if no attempt is shared by two jobs, and need not
otherwise (`not_forall_cached_same_job`).
-/

namespace MeshNode

/-- A lookup that finds the row of a completed attempt answers with what the text of its result is
read as. -/
theorem RunCall.ofBytes_of_lookedUp {c : RunCall} {claim : Claim} {row : LedgerRow}
    {result : Json} {answer : RunResponse}
    (h : c.lookedUp claim (some (Ledger.completedRow row result)) = .done (.ok answer)) :
    Json.ofBytes (.ofText result.compact) = .ok answer.result := by
  rw [lookedUp, Ledger.readRow_completedRow_eq] at h
  cases hread : Json.ofBytes (.ofText result.compact) with
  | error e =>
    rw [hread] at h
    cases h
  | ok value =>
    rw [hread] at h
    cases h
    rfl

namespace Traffic

variable {ι : Type} [DecidableEq ι] {T : Traffic ι} {w₀ : Workspace} {s : State ι}

/-- A stage in the history was entered by a step from a reachable state with the history before. -/
theorem Reachable.exists_step_of_suffix (h : T.Reachable w₀ s) {older : History ι} {i : ι}
    {stage : RunCall.Stage} (hsuffix : (i, stage) :: older <:+ s.history) :
    ∃ s' w, T.Reachable w₀ s' ∧ s'.history = older ∧
      (T.call i).step (T.runner i) (s'.stage i) s'.workspace = some (stage, w) := by
  induction h with
  | start => simp [begin] at hsuffix
  | @step s j stage' w hs hstep ih =>
    rw [State.enter_history] at hsuffix
    rcases List.suffix_cons_iff.mp hsuffix with hlast | hearlier
    · obtain ⟨heq, rfl⟩ := List.cons.inj hlast
      obtain ⟨rfl, rfl⟩ := Prod.mk.inj heq
      exact ⟨s, w, hs, rfl, hstep⟩
    · exact ih hearlier

/-- Where a result comes from that is found for an attempt: it is what the text is read as of the
result that one call produced, which was authorized for the attempt, alone has carried it out, and
has completed it. -/
structure Origin (T : Traffic ι) (older : History ι) (id : String) (found : Json) (winner : ι)
    (claim : Claim) (produced : Json) : Prop where
  authorized : (T.call winner).authorization (T.runner winner) = .ok claim
  attempt : claim.attemptId = id
  executed : older.executions id = [(winner, produced)]
  completed : older.completions id = [(winner, produced)]
  read : Json.ofBytes (.ofText produced.compact) = .ok found

/-- What a lost call finds, if it can read it, of an attempt that had no row before the calls. -/
theorem Reachable.origin_of_lookedUp (h : T.Reachable w₀ s) {i : ι} {claim : Claim}
    (hfree : w₀.row claim.attemptId = none) (hlost : s.stage i = .lost claim)
    {answer : RunResponse}
    (hanswer : (T.call i).lookedUp claim (s.workspace.row claim.attemptId) = .done (.ok answer)) :
    (s.history.completions claim.attemptId = [] ∧ answer.result = inProgressResult) ∨
      ∃ winner owner produced,
        T.Origin s.history claim.attemptId answer.result winner owner produced := by
  obtain ⟨p, hbefore, hat⟩ := h.exists_at claim.attemptId
  have hrow := h.row_ne_none_of_lost hlost
  cases p with
  | untouched row =>
    rw [hat.row, Phase.row, show row = none from hbefore.trans hfree] at hrow
    exact absurd rfl hrow
  | claimed | executed =>
    rw [hat.row, Phase.row, RunCall.lookedUp_claimedRow] at hanswer
    refine Or.inl ⟨hat.completions, ?_⟩
    rw [← Except.ok.inj (RunCall.Stage.done.inj hanswer)]
  | completed winner c produced =>
    -- The winner has answered, and its answer goes by what it was authorized for.
    obtain ⟨hdone, howns⟩ := (hat.holder winner _).mp rfl
    have hfollows := h.follows winner
    rw [hdone] at hfollows
    obtain ⟨owner, hauth, -, hattempt, -⟩ := hfollows
    have hid : c.attemptId = claim.attemptId := by
      simpa [RunCall.respond, RunCall.Stage.owns] using howns
    rw [hat.row, Phase.row] at hanswer
    exact Or.inr ⟨winner, owner, produced, hauth, hattempt.symm.trans hid, hat.executions,
      hat.completions, RunCall.ofBytes_of_lookedUp hanswer⟩

/-- **A cached answer has the job id of the call that it answers and the result of the call that
carried out the attempt before**, or the marker if the attempt was not completed by then. The two
calls are of one job if no two calls were authorized for the same attempt of different jobs. -/
theorem cached_origin (T : Traffic ι) (w₀ : Workspace) (hempty : ∀ id, w₀.row id = none)
    (s : State ι) (h : T.Reachable w₀ s) (older : History ι) (i : ι) (answer : RunResponse)
    (hsuffix : (i, .done (.ok answer)) :: older <:+ s.history) (hcached : answer.cached = true) :
    ∃ claim, (T.call i).authorization (T.runner i) = .ok claim ∧
      answer.attemptId = claim.attemptId ∧ answer.jobId = claim.jobId ∧
      ((older.completions claim.attemptId = [] ∧ answer.result = inProgressResult) ∨
        ∃ winner owner produced,
          T.Origin older claim.attemptId answer.result winner owner produced ∧
          ((∀ j k cj ck, (T.call j).authorization (T.runner j) = .ok cj →
              (T.call k).authorization (T.runner k) = .ok ck →
              cj.attemptId = ck.attemptId → cj.jobId = ck.jobId) →
            answer.jobId = owner.jobId)) := by
  have hdone := h.stage_eq_of_done (hsuffix.subset List.mem_cons_self)
  have hfollows := h.follows i
  rw [hdone] at hfollows
  obtain ⟨claim, hauth, -, hattempt, hjob⟩ := hfollows
  refine ⟨claim, hauth, hattempt, hjob, ?_⟩
  obtain ⟨s', w, hs', rfl, hstep⟩ := h.exists_step_of_suffix hsuffix
  have hturn := RunCall.turn_of_step hstep
  have hbefore := hs'.follows i
  generalize hi : s'.stage i = old at hturn hbefore
  generalize hnew : RunCall.Stage.done (.ok answer) = new at hturn
  cases hturn with
  | @lookUp claim' =>
    obtain rfl : claim' = claim := Except.ok.inj (hbefore.symm.trans hauth)
    rcases hs'.origin_of_lookedUp (hempty _) hi hnew.symm with hpending | horigin
    · exact Or.inl hpending
    · obtain ⟨winner, owner, produced, horigin⟩ := horigin
      refine Or.inr ⟨winner, owner, produced, horigin, fun hunshared => ?_⟩
      exact hjob.trans
        (hunshared i winner claim' owner hauth horigin.authorized horigin.attempt.symm)
  | complete =>
    rw [Except.ok.inj (RunCall.Stage.done.inj hnew)] at hcached
    cases hcached
  | refuse | authorize | win | lose | execute => cases hnew

/-! ### Two jobs that share an attempt -/

/-- Two calls of one attempt, each for a job of its own. -/
private def sharing : Traffic Bool :=
  let spec (job : String) : JobSpec :=
    ⟨some job, some "a", none, "probe", .obj [("echo", .str job)], none,
      some (Token.issue [107] job "a" 60), some 60⟩
  ⟨fun _ => ⟨[107], ⟨[]⟩, .default⟩, fun late => ⟨"r", spec (bif late then "k" else "j"), 0, 0⟩⟩

/-- The result of the probe of the first job. -/
private def echoed : Json :=
  .obj [("echo", .str "j"), ("node_ts", .int 0), ("ok", .bool true), ("pong", .bool true)]

/-- The ledger with the row of the attempt. -/
private def rowed (row : LedgerRow) : Workspace := ⟨⟨⟨[("a", row)]⟩, none⟩, .empty⟩

/-- The first call carries out the attempt, and the second has lost it. -/
private def overtaken : State Bool :=
  let claimed := rowed (Ledger.claimedRow 0)
  let completed := rowed (Ledger.completedRow (Ledger.claimedRow 0) echoed)
  begin ⟨.inMemory, .empty⟩ |>.enter false (.authorized ⟨"j", "a", 60⟩) ⟨.inMemory, .empty⟩
    |>.enter false (.won ⟨"j", "a", 60⟩) claimed
    |>.enter false (.executed ⟨"j", "a", 60⟩ echoed) claimed
    |>.enter false ((sharing.call false).respond ⟨"j", "a", 60⟩ false echoed) completed
    |>.enter true (.authorized ⟨"k", "a", 60⟩) completed
    |>.enter true (.lost ⟨"k", "a", 60⟩) completed

/-- What the second call is answered. -/
private def borrowed : RunResponse := ⟨"r", "a", "k", true, echoed⟩

private def answered : State Bool :=
  overtaken.enter true (.done (.ok borrowed)) overtaken.workspace

private theorem authorization_sharing (late : Bool) :
    (sharing.call late).authorization (sharing.runner late) =
      .ok ⟨bif late then "k" else "j", "a", 60⟩ := by
  simp [RunCall.authorization, sharing, JobSpec.claimContext, JobSpec.effectiveAttemptId,
    Token.authorize_full]

private theorem step_begun_sharing (late : Bool) (w : Workspace) :
    (sharing.call late).step (sharing.runner late) .begun w =
      some (.authorized ⟨bif late then "k" else "j", "a", 60⟩, w) :=
  RunCall.step_begun_of_authorization (authorization_sharing late) w

private theorem get_overtaken :
    overtaken.workspace.ledger.get "a" = .ok (some ⟨"a", .completed, some echoed, 0⟩) := by
  have hreadable : Json.Readable Json.maxDepth echoed := by
    refine .obj (by decide) ?_
    simp only [List.forall_mem_cons, List.not_mem_nil, false_imp_iff, implies_true, and_true]
    exact ⟨.str, .int (by decide), .bool, .bool⟩
  have hrow : overtaken.workspace.row "a" =
      some (Ledger.completedRow (Ledger.claimedRow 0) echoed) := rfl
  rw [Workspace.get_eq, hrow]
  simp only [Ledger.readRow_completedRow (Json.ofBytes_compact hreadable)]
  rfl

private theorem step_lost_sharing :
    (sharing.call true).step (sharing.runner true) (.lost ⟨"k", "a", 60⟩) overtaken.workspace =
      some (.done (.ok borrowed), overtaken.workspace) := by
  simp only [RunCall.step, get_overtaken]
  rfl

private theorem reachable_answered : sharing.Reachable ⟨.inMemory, .empty⟩ answered :=
  .step (.step (.step (.step (.step (.step (.step .start (step_begun_sharing false _)) rfl) rfl)
    rfl) (step_begun_sharing true _)) rfl) step_lost_sharing

/-- The second of two jobs with one attempt is answered with the result of the first. -/
theorem cached_origin_of_shared_attempt :
    (∀ id, (⟨.inMemory, .empty⟩ : Workspace).row id = none) ∧
      sharing.Reachable ⟨.inMemory, .empty⟩ answered ∧
      (true, .done (.ok borrowed)) :: overtaken.history <:+ answered.history ∧
      borrowed.cached = true ∧ borrowed.jobId = "k" ∧
      ∃ winner owner produced,
        sharing.Origin overtaken.history "a" echoed winner owner produced ∧ owner.jobId = "j" := by
  refine ⟨fun _ => rfl, reachable_answered, List.suffix_rfl, rfl, rfl, ?_⟩
  obtain ⟨claim, -, hattempt, -, horigin⟩ := cached_origin sharing ⟨.inMemory, .empty⟩
    (fun _ => rfl) answered reachable_answered overtaken.history true borrowed List.suffix_rfl rfl
  rw [← show "a" = claim.attemptId from hattempt] at horigin
  rcases horigin with ⟨hpending, -⟩ | ⟨winner, owner, produced, horigin, -⟩
  · cases hpending
  · have hwinner : winner = false := by
      have hexecuted := horigin.executed
      cases hexecuted
      rfl
    refine ⟨winner, owner, produced, horigin, ?_⟩
    have howner := horigin.authorized
    rw [hwinner, authorization_sharing] at howner
    rw [← Except.ok.inj howner]
    rfl

/-- A cached result need not be of the job that asks for it, not even of two calls to one runner of
which the second comes after the answer to the first. -/
theorem not_forall_cached_same_job :
    ¬ ∀ (r : JobRunner) (first second : RunCall) (w : Workspace) (owner : Claim)
        (answer : RunResponse),
      (∀ id, w.row id = none) → first.authorization r = .ok owner →
      (r.run second (r.run first w).2).1 = .ok answer → answer.cached = true →
      answer.result ≠ inProgressResult →
      owner.jobId = answer.jobId ∧ owner.attemptId = answer.attemptId := by
  intro h
  have hfirst : (sharing.runner false).run (sharing.call false) ⟨.inMemory, .empty⟩ =
      (.ok ⟨"r", "a", "j", false, echoed⟩, overtaken.workspace) := by
    have hclaim : (sharing.call false).step (sharing.runner false) (.authorized ⟨"j", "a", 60⟩)
        ⟨.inMemory, .empty⟩ = some (.won ⟨"j", "a", 60⟩, rowed (Ledger.claimedRow 0)) := rfl
    have hexecute : (sharing.call false).step (sharing.runner false) (.won ⟨"j", "a", 60⟩)
        (rowed (Ledger.claimedRow 0)) =
          some (.executed ⟨"j", "a", 60⟩ echoed, rowed (Ledger.claimedRow 0)) := rfl
    refine JobRunner.run_of_advance ?_
    rw [RunCall.maxSteps, RunCall.advance_of_step (step_begun_sharing false _)]
    exact (RunCall.advance_of_step hclaim 2).trans ((RunCall.advance_of_step hexecute 1).trans rfl)
  have hsecond : (sharing.runner true).run (sharing.call true) overtaken.workspace =
      (.ok borrowed, overtaken.workspace) := by
    have hlose : (sharing.call true).step (sharing.runner true) (.authorized ⟨"k", "a", 60⟩)
        overtaken.workspace = some (.lost ⟨"k", "a", 60⟩, overtaken.workspace) := rfl
    refine JobRunner.run_of_advance ?_
    rw [RunCall.maxSteps, RunCall.advance_of_step (step_begun_sharing true _)]
    exact (RunCall.advance_of_step hlose 2).trans
      ((RunCall.advance_of_step step_lost_sharing 1).trans rfl)
  have hrunner : sharing.runner false = sharing.runner true := rfl
  have hsame := h (sharing.runner false) (sharing.call false) (sharing.call true)
    ⟨.inMemory, .empty⟩ _ borrowed (fun _ => rfl) (authorization_sharing false)
    (by rw [hfirst, hrunner, hsecond]) rfl (by simp [borrowed, echoed, inProgressResult])
  exact absurd hsame.1 (by decide)

end Traffic

end MeshNode
