import MeshNode.Proofs.Job.Traffic
import MeshNode.Proofs.Json.Compact
import MeshNode.Proofs.Token

/-!
# Every attempt is carried out once

Calls that share a workspace carry every attempt out at most once, in whatever order they take their
steps. An attempt goes through phases: nobody has touched it, a call has won it, that call has
carried it out, that call has completed it. The phase fixes the row of the ledger, what the history
tells of the attempt, and the one call that holds it with the stage at which that call is. This is
the invariant `At`; a step of any call leaves the phase as it is or takes it to the next one.

What calls answer follows. A call that did not win the attempt looks its row up, and the row says
whether the attempt has been completed by then.
-/

namespace MeshNode

namespace Traffic

variable {ι : Type}

/-! ### Phases -/

/-- How far an attempt has come. -/
inductive Phase (ι : Type) where
  /-- No call has won it; the row is the one that was there from the beginning. -/
  | untouched (row : Option LedgerRow)
  | claimed (winner : ι) (claim : Claim)
  | executed (winner : ι) (claim : Claim) (result : Json)
  | completed (winner : ι) (claim : Claim) (result : Json)

namespace Phase

/-- The row from before the calls: only an attempt without one can be won. -/
def before : Phase ι → Option LedgerRow
  | untouched row => row
  | _ => none

/-- The row of the attempt. -/
def row (T : Traffic ι) : Phase ι → Option LedgerRow
  | untouched row => row
  | claimed w _ | executed w _ _ => some (Ledger.claimedRow (T.call w).now)
  | completed w _ result =>
    some (Ledger.completedRow (Ledger.claimedRow (T.call w).now) result)

/-- What the history tells of the attempt. -/
def tally : Phase ι → List ι × List (ι × Json) × List (ι × Json)
  | untouched _ => ([], [], [])
  | claimed w _ => ([w], [], [])
  | executed w _ result => ([w], [(w, result)], [])
  | completed w _ result => ([w], [(w, result)], [(w, result)])

/-- The call that holds the attempt, and its stage. -/
def holder (T : Traffic ι) : Phase ι → Option (ι × RunCall.Stage)
  | untouched _ => none
  | claimed w claim => some (w, .won claim)
  | executed w claim result => some (w, .executed claim result)
  | completed w claim result => some (w, (T.call w).respond claim false result)

end Phase

/-- An attempt is in a phase: its row, its history and the stages of the calls are as they are in
that phase. -/
structure At (T : Traffic ι) (s : State ι) (id : String) (p : Phase ι) : Prop where
  row : s.workspace.row id = p.row T
  tally : s.history.tally id = p.tally
  holder : ∀ j stage, p.holder T = some (j, stage) ↔ s.stage j = stage ∧ stage.owns id = true
  result_ne : ∀ e ∈ p.tally.2.1, e.2 ≠ inProgressResult

/-- A call that does not hold the attempt adds nothing to its history. -/
theorem History.tally_cons_of_not_owns (i : ι) {stage : RunCall.Stage} (h : History ι)
    {id : String} (howns : stage.owns id = false) :
    History.tally ((i, stage) :: h) id = h.tally id := by
  rw [History.tally_cons]
  cases stage with
  | begun | authorized | lost => rfl
  | won claim | executed claim result =>
    have hne : claim.attemptId ≠ id := by simpa [RunCall.Stage.owns] using howns
    simp [RunCall.Stage.wins, RunCall.Stage.execution?, RunCall.Stage.completion?, hne,
      History.tally]
  | done answer =>
    cases answer with
    | error e => rfl
    | ok answer =>
      have hnot : ¬ (answer.attemptId = id ∧ answer.cached = false) := by
        simpa [RunCall.Stage.owns] using howns
      simp [RunCall.Stage.wins, RunCall.Stage.execution?, RunCall.Stage.completion?, hnot,
        History.tally]

/-- Looking an attempt up does not get hold of it. -/
theorem not_owns_lookedUp (c : RunCall) (claim : Claim) (row : Option LedgerRow) (id : String) :
    (c.lookedUp claim row).owns id = false := by
  unfold RunCall.lookedUp
  split
  · simp [RunCall.respond, RunCall.Stage.owns]
  · split <;> simp [RunCall.respond, RunCall.Stage.owns]

variable {T : Traffic ι} {w₀ : Workspace} {s : State ι} {id : String}

namespace At

variable {p : Phase ι}

theorem winners (h : T.At s id p) : s.history.winners id = p.tally.1 := congrArg (·.1) h.tally

theorem executions (h : T.At s id p) : s.history.executions id = p.tally.2.1 :=
  congrArg (·.2.1) h.tally

theorem completions (h : T.At s id p) : s.history.completions id = p.tally.2.2 :=
  congrArg (·.2.2) h.tally

/-- Nobody holds an attempt without a row. -/
theorem eq_untouched (h : T.At s id p) (hrow : s.workspace.row id = none) :
    p = .untouched none := by
  have hnone := h.row.symm.trans hrow
  cases p with
  | untouched row => rw [show row = none from hnone]
  | claimed | executed | completed => exact absurd hnone (Option.some_ne_none _)

/-- The holder of an attempt is the only one. -/
theorem eq_of_owns (h : T.At s id p) {i j : ι} (hi : (s.stage i).owns id = true)
    (hj : (s.stage j).owns id = true) : j = i := by
  have heq := ((h.holder i _).mpr ⟨rfl, hi⟩).symm.trans ((h.holder j _).mpr ⟨rfl, hj⟩)
  exact (Prod.mk.inj (Option.some.inj heq)).1.symm

/-- The call at the stage `won` holds an attempt that it has claimed. -/
theorem eq_claimed (h : T.At s id p) {i : ι} {claim : Claim} (hi : s.stage i = .won claim)
    (hid : claim.attemptId = id) : p = .claimed i claim := by
  have hholder := (h.holder i _).mpr ⟨hi, by simp [RunCall.Stage.owns, hid]⟩
  cases p with
  | claimed w c =>
    obtain ⟨rfl, hc⟩ := Prod.mk.inj (Option.some.inj hholder)
    rw [RunCall.Stage.won.inj hc]
  | untouched => cases hholder
  | executed | completed => exact absurd (Option.some.inj hholder) (by simp [RunCall.respond])

/-- The call at the stage `executed` holds an attempt that it has carried out. -/
theorem eq_executed (h : T.At s id p) {i : ι} {claim : Claim} {result : Json}
    (hi : s.stage i = .executed claim result) (hid : claim.attemptId = id) :
    p = .executed i claim result := by
  have hholder := (h.holder i _).mpr ⟨hi, by simp [RunCall.Stage.owns, hid]⟩
  cases p with
  | executed w c r =>
    obtain ⟨rfl, hc⟩ := Prod.mk.inj (Option.some.inj hholder)
    obtain ⟨rfl, rfl⟩ := RunCall.Stage.executed.inj hc
    rfl
  | untouched => cases hholder
  | claimed | completed => exact absurd (Option.some.inj hholder) (by simp [RunCall.respond])

variable [DecidableEq ι]

/-- **Frame.** A step by which no call gets hold of the attempt or lets go of it, and which leaves
its row, leaves its phase. -/
theorem frame (h : T.At s id p) {i : ι} {stage : RunCall.Stage} {w : Workspace}
    (hold : (s.stage i).owns id = false) (hnew : stage.owns id = false)
    (hrow : w.row id = s.workspace.row id) : T.At (s.enter i stage w) id p := by
  refine ⟨hrow.trans h.row, ?_, fun j st => ?_, h.result_ne⟩
  · rw [State.enter_history, History.tally_cons_of_not_owns i s.history hnew, h.tally]
  · rw [h.holder]
    by_cases hj : j = i
    · subst hj
      rw [State.enter_stage_self]
      constructor
      · rintro ⟨rfl, howns⟩
        exact absurd howns (by simp [hold])
      · rintro ⟨rfl, howns⟩
        exact absurd howns (by simp [hnew])
    · rw [State.enter_stage_of_ne s hj]

/-- When one call alone can hold the attempt and moves on, it is the holder of the next phase. -/
theorem of_enter {p' : Phase ι} {i : ι} {stage : RunCall.Stage} {w : Workspace}
    (hold : ∀ j, (s.stage j).owns id = true → j = i)
    (hnew : p'.holder T = some (i, stage)) (howns : stage.owns id = true)
    (hrow : w.row id = p'.row T)
    (htally : History.tally ((i, stage) :: s.history) id = p'.tally)
    (hresult : ∀ e ∈ p'.tally.2.1, e.2 ≠ inProgressResult) :
    T.At (s.enter i stage w) id p' := by
  refine ⟨hrow, htally, fun j st => ?_, hresult⟩
  rw [hnew]
  by_cases hj : j = i
  · subst hj
    rw [State.enter_stage_self]
    constructor
    · intro heq
      obtain ⟨-, rfl⟩ := Prod.mk.inj (Option.some.inj heq)
      exact ⟨rfl, howns⟩
    · rintro ⟨rfl, -⟩
      rfl
  · rw [State.enter_stage_of_ne s hj]
    constructor
    · intro heq
      exact absurd (Prod.mk.inj (Option.some.inj heq)).1.symm hj
    · rintro ⟨rfl, howns'⟩
      exact absurd (hold j howns') hj

/-- **A step of a call takes every attempt to a phase that the same row comes before.** -/
theorem step (h : T.At s id p) {i : ι} {stage : RunCall.Stage} {w : Workspace}
    (hstep : (T.call i).step (T.runner i) (s.stage i) s.workspace = some (stage, w)) :
    ∃ p', p'.before = p.before ∧ T.At (s.enter i stage w) id p' := by
  have hturn := RunCall.turn_of_step hstep
  generalize hi : s.stage i = old at hturn
  -- A turn that concerns another attempt, or no attempt, is a frame; the others are the phases.
  cases hturn with
  | refuse _ hrow | authorize _ hrow | lose _ hrow =>
    exact ⟨p, rfl, h.frame (by rw [hi]; rfl) rfl (congrFun hrow id)⟩
  | lookUp hrow =>
    exact ⟨p, rfl, h.frame (by rw [hi]; rfl) (not_owns_lookedUp ..) (congrFun hrow id)⟩
  | @win claim hfree hrow =>
    by_cases hid : claim.attemptId = id
    · subst hid
      obtain rfl := h.eq_untouched hfree
      refine ⟨.claimed i claim, rfl, of_enter ?_ rfl ?_ ?_ ?_ ?_⟩
      · intro j hj
        cases (h.holder j _).mpr ⟨rfl, hj⟩
      · simp [RunCall.Stage.owns]
      · rw [hrow, Function.update_self]
        rfl
      · simp [History.tally_cons, h.winners, h.executions, h.completions, RunCall.Stage.wins,
          RunCall.Stage.execution?, RunCall.Stage.completion?, Phase.tally]
      · simp [Phase.tally]
    · refine ⟨p, rfl, h.frame (by rw [hi]; rfl) (by simp [RunCall.Stage.owns, hid]) ?_⟩
      rw [hrow, Function.update_of_ne (Ne.symm hid)]
  | @execute claim result hresult hrow =>
    by_cases hid : claim.attemptId = id
    · subst hid
      obtain rfl := h.eq_claimed hi rfl
      refine ⟨.executed i claim result, rfl, of_enter ?_ rfl ?_ ?_ ?_ ?_⟩
      · exact fun j => h.eq_of_owns (by rw [hi]; simp [RunCall.Stage.owns])
      · simp [RunCall.Stage.owns]
      · rw [hrow, h.row]
        rfl
      · simp [History.tally_cons, h.winners, h.executions, h.completions, RunCall.Stage.wins,
          RunCall.Stage.execution?, RunCall.Stage.completion?, Phase.tally]
      · simpa [Phase.tally] using hresult
    · exact ⟨p, rfl, h.frame (by rw [hi]; simp [RunCall.Stage.owns, hid])
        (by simp [RunCall.Stage.owns, hid]) (congrFun hrow id)⟩
  | @complete claim result hrow =>
    by_cases hid : claim.attemptId = id
    · subst hid
      obtain rfl := h.eq_executed hi rfl
      refine ⟨.completed i claim result, rfl, of_enter ?_ rfl ?_ ?_ ?_ h.result_ne⟩
      · exact fun j => h.eq_of_owns (by rw [hi]; simp [RunCall.Stage.owns])
      · simp [RunCall.respond, RunCall.Stage.owns]
      · rw [hrow, Function.update_self, h.row]
        rfl
      · simp [History.tally_cons, h.winners, h.executions, h.completions, RunCall.respond,
          RunCall.Stage.wins, RunCall.Stage.execution?, RunCall.Stage.completion?, Phase.tally]
    · refine ⟨p, rfl, h.frame (by rw [hi]; simp [RunCall.Stage.owns, hid])
        (by simp [RunCall.respond, RunCall.Stage.owns, hid]) ?_⟩
      rw [hrow, Function.update_of_ne (Ne.symm hid)]

end At

variable [DecidableEq ι]

/-- **Every attempt is in a phase**, in every reachable state. -/
theorem Reachable.exists_at (h : T.Reachable w₀ s) (id : String) :
    ∃ p, p.before = w₀.row id ∧ T.At s id p := by
  induction h with
  | start =>
    refine ⟨.untouched (w₀.row id), rfl, rfl, rfl, fun j stage => ?_, by simp [Phase.tally]⟩
    constructor
    · intro hnone
      cases hnone
    · rintro ⟨rfl, howns⟩
      exact absurd howns (by simp [begin, RunCall.Stage.owns])
  | step _ hstep ih =>
    obtain ⟨p, hbefore, hat⟩ := ih
    obtain ⟨p', hbefore', hat'⟩ := hat.step hstep
    exact ⟨p', hbefore'.trans hbefore, hat'⟩

/-! ### Answers -/

/-- A call that is done takes no further step. -/
theorem Reachable.stage_eq_of_done (h : T.Reachable w₀ s) {i : ι}
    {answer : Except MeshError RunResponse} (hdone : (i, .done answer) ∈ s.history) :
    s.stage i = .done answer := by
  induction h with
  | start => cases hdone
  | @step s j stage w _ hstep ih =>
    rw [State.enter_history] at hdone
    rcases List.mem_cons.mp hdone with heq | hmem
    · obtain ⟨rfl, rfl⟩ := Prod.mk.inj heq
      exact State.enter_stage_self ..
    · have hi := ih hmem
      by_cases hij : i = j
      · subst hij
        rw [hi] at hstep
        cases hstep
      · rw [State.enter_stage_of_ne s hij]
        exact hi

/-- What a call is told of an attempt when `older` is the history before its answer: its own result,
if it carried out the attempt; otherwise the result of the call that has completed the attempt, or
the marker of an attempt in progress if there is no such call yet. -/
inductive Told (older : History ι) (id : String) (i : ι) : RunResponse → Prop where
  | own {answer : RunResponse} (hcached : answer.cached = false)
      (hexecuted : (i, answer.result) ∈ older.executions id) : Told older id i answer
  | inProgress {answer : RunResponse} (hcached : answer.cached = true)
      (hpending : older.completions id = []) (hresult : answer.result = inProgressResult) :
      Told older id i answer
  | completed {answer : RunResponse} {w : ι} (hcached : answer.cached = true)
      (hcompleted : (w, answer.result) ∈ older.completions id) : Told older id i answer

/-- The texts of the results of an attempt are read as they were written. -/
def Decodes (h : History ι) (id : String) : Prop :=
  ∀ e ∈ h.executions id, Json.ofBytes (.ofText e.2.compact) = .ok e.2

omit [DecidableEq ι] in
theorem Decodes.of_cons {e : ι × RunCall.Stage} {h : History ι}
    (hdecode : Decodes (e :: h) id) : Decodes h id := by
  intro x hx
  obtain ⟨y, hy, hyx⟩ := List.mem_filterMap.mp hx
  exact hdecode x (List.mem_filterMap.mpr ⟨y, List.mem_cons_of_mem e hy, hyx⟩)

/-- What a call finds in the row of an attempt that had none before the calls. -/
theorem told_lookedUp (h : T.Reachable w₀ s) (hfree : w₀.row id = none)
    (hdecode : Decodes s.history id) {i : ι} {claim : Claim} (hid : claim.attemptId = id)
    (hlost : s.stage i = .lost claim) :
    ∃ answer, (T.call i).lookedUp claim (s.workspace.row id) = .done (.ok answer) ∧
      answer.attemptId = id ∧ Told s.history id i answer := by
  obtain ⟨p, hbefore, hat⟩ := h.exists_at id
  have hrow : s.workspace.row id ≠ none := hid ▸ h.row_ne_none_of_lost hlost
  cases p with
  | untouched row =>
    -- A call only loses against a row, and there was none.
    rw [hat.row, Phase.row, show row = none from hbefore.trans hfree] at hrow
    exact absurd rfl hrow
  | claimed | executed =>
    rw [hat.row, Phase.row, RunCall.lookedUp_claimedRow]
    exact ⟨_, rfl, hid, .inProgress rfl hat.completions rfl⟩
  | completed w c result =>
    have hexecuted : (w, result) ∈ s.history.executions id := by simp [hat.executions, Phase.tally]
    have hcompleted : (w, result) ∈ s.history.completions id := by
      simp [hat.completions, Phase.tally]
    rw [hat.row, Phase.row, RunCall.lookedUp_completedRow _ _ (hdecode _ hexecuted)]
    exact ⟨_, rfl, hid, .completed rfl hcompleted⟩

/-- **Every authorized call for an attempt is told what became of it.** -/
theorem Reachable.told (h : T.Reachable w₀ s) (hfree : w₀.row id = none)
    (hdecode : Decodes s.history id) {older : History ι} {i : ι} {claim : Claim}
    {a : Except MeshError RunResponse} (hsuffix : (i, .done a) :: older <:+ s.history)
    (hauth : (T.call i).authorization (T.runner i) = .ok claim) (hid : claim.attemptId = id) :
    ∃ answer, a = .ok answer ∧ answer.attemptId = id ∧ Told older id i answer := by
  induction h with
  | start => simp [begin] at hsuffix
  | @step s j stage w hs hstep ih =>
    rw [State.enter_history] at hdecode hsuffix
    rcases List.suffix_cons_iff.mp hsuffix with hhistory | hearlier
    · -- The answer has just been given: by looking up, or by completing.
      obtain ⟨heq, rfl⟩ := List.cons.inj hhistory
      obtain ⟨rfl, rfl⟩ := Prod.mk.inj heq
      have hfollows := hs.follows i
      have hturn := RunCall.turn_of_step hstep
      generalize hi : s.stage i = old at hturn hfollows
      generalize hnew : RunCall.Stage.done a = new at hturn
      cases hturn with
      | refuse hrefused => cases hrefused.symm.trans hauth
      | @lookUp claim' =>
        obtain rfl : claim' = claim := Except.ok.inj (hfollows.symm.trans hauth)
        obtain ⟨answer, hanswer, htold⟩ := told_lookedUp hs hfree hdecode.of_cons hid hi
        rw [hid, hanswer] at hnew
        exact ⟨answer, RunCall.Stage.done.inj hnew, htold⟩
      | @complete claim' result =>
        obtain rfl : claim' = claim := Except.ok.inj (hfollows.symm.trans hauth)
        have hmem := (hs.mem_history i).resolve_left (by rw [hi]; simp)
        rw [hi] at hmem
        refine ⟨_, RunCall.Stage.done.inj hnew, hid, .own rfl ?_⟩
        exact hid ▸ History.mem_executions_of_mem hmem
      | authorize | win | lose | execute => cases hnew
    · exact ih hdecode.of_cons hearlier

/-- A call for an attempt that had a row before the calls is answered by that row. -/
theorem Reachable.done_eq_lookedUp (h : T.Reachable w₀ s) {row : LedgerRow}
    (hrow : w₀.row id = some row) {i : ι} {claim : Claim} {a : Except MeshError RunResponse}
    (hdone : s.stage i = .done a)
    (hauth : (T.call i).authorization (T.runner i) = .ok claim) (hid : claim.attemptId = id) :
    RunCall.Stage.done a = (T.call i).lookedUp claim (some row) := by
  induction h with
  | start => cases hdone
  | @step s j stage w hs hstep ih =>
    by_cases hij : i = j
    · subst hij
      rw [State.enter_stage_self] at hdone
      subst hdone
      obtain ⟨p, hbefore, hat⟩ := hs.exists_at id
      have hfollows := hs.follows i
      have hturn := RunCall.turn_of_step hstep
      generalize hi : s.stage i = old at hturn hfollows
      generalize hnew : RunCall.Stage.done a = new at hturn
      -- An attempt with a row is not won, so no call completes it.
      cases hturn with
      | refuse hrefused => cases hrefused.symm.trans hauth
      | @lookUp claim' =>
        obtain rfl : claim' = claim := Except.ok.inj (hfollows.symm.trans hauth)
        cases p with
        | untouched before =>
          rw [hid, hat.row, Phase.row, show before = some row from hbefore.trans hrow]
        | claimed | executed | completed => cases hbefore.trans hrow
      | @complete claim' result =>
        obtain rfl : claim' = claim := Except.ok.inj (hfollows.symm.trans hauth)
        obtain rfl := hat.eq_executed hi hid
        cases hbefore.trans hrow
      | authorize | win | lose | execute => cases hnew
    · rw [State.enter_stage_of_ne s hij] at hdone
      exact ih hdone

/-! ### Accounts -/

/-- The record of an attempt that had none before the calls, by what happened to it since: it is in
progress while the call that won it has not completed it, and has the result of that call then. -/
def History.record? (T : Traffic ι) (h : History ι) (id : String) : Option AttemptRecord :=
  match h.winners id, h.completions id with
  | [], _ => none
  | w :: _, [] => some ⟨id, .inProgress, none, (T.call w).now⟩
  | w :: _, (_, result) :: _ => some ⟨id, .completed, some result, (T.call w).now⟩

/-- The account of an attempt that had no row before the calls. -/
structure Once (T : Traffic ι) (s : State ι) (id : String) : Prop where
  winners_le : (s.history.winners id).length ≤ 1
  executions_le : (s.history.executions id).length ≤ 1
  won : ∀ e ∈ s.history.executions id, e.1 ∈ s.history.winners id
  result_ne : ∀ e ∈ s.history.executions id, e.2 ≠ inProgressResult
  executed : ∀ older : History ι, older <:+ s.history →
    ∀ e ∈ older.completions id, e ∈ s.history.executions id
  record : s.workspace.ledger.get id = .ok (s.history.record? T id)
  told : ∀ (older : History ι) i claim a, (i, .done a) :: older <:+ s.history →
    (T.call i).authorization (T.runner i) = .ok claim → claim.attemptId = id →
    ∃ answer, a = .ok answer ∧ answer.attemptId = id ∧ Told older id i answer ∧
      (answer.cached = false ↔ i ∈ s.history.winners id)

/-- The account of an attempt that had a row before the calls: the row stays, and is what every call
goes by. -/
structure Kept (T : Traffic ι) (s : State ι) (id : String) (row : LedgerRow) : Prop where
  tally : s.history.tally id = ([], [], [])
  stays : s.workspace.row id = some row
  told : ∀ i claim a, s.stage i = .done a →
    (T.call i).authorization (T.runner i) = .ok claim → claim.attemptId = id →
    RunCall.Stage.done a = (T.call i).lookedUp claim (some row)

omit [DecidableEq ι] in
/-- The record of an attempt in a phase that no row came before. -/
theorem At.get_eq {p : Phase ι} (hat : T.At s id p) (hbefore : p.before = none)
    (hdecode : Decodes s.history id) :
    s.workspace.ledger.get id = .ok (s.history.record? T id) := by
  rw [Workspace.get_eq, hat.row, History.record?, hat.winners, hat.completions]
  cases p with
  | untouched row =>
    rw [show row = none from hbefore]
    rfl
  | claimed | executed => rfl
  | completed w c result =>
    have hread : Ledger.readRow id
        (Ledger.completedRow (Ledger.claimedRow (T.call w).now) result) =
          .ok ⟨id, .completed, some result, (T.call w).now⟩ :=
      Ledger.readRow_completedRow (hdecode (w, result) (by simp [hat.executions, Phase.tally]))
    simp only [Phase.row, Phase.tally, hread]
    rfl

omit [DecidableEq ι] in
/-- Exactly the call that won an attempt holds it. -/
theorem At.owns_iff {p : Phase ι} (hat : T.At s id p) (i : ι) :
    (s.stage i).owns id = true ↔ i ∈ s.history.winners id := by
  have hholder : (s.stage i).owns id = true ↔ ∃ stage, p.holder T = some (i, stage) := by
    constructor
    · exact fun howns => ⟨_, (hat.holder i _).mpr ⟨rfl, howns⟩⟩
    · rintro ⟨stage, hstage⟩
      obtain ⟨rfl, howns⟩ := (hat.holder i stage).mp hstage
      exact howns
  rw [hholder, hat.winners]
  cases p <;> simp [Phase.tally, Phase.holder, eq_comm]

omit [DecidableEq ι] in
/-- What has been completed before has been carried out. -/
theorem At.mem_executions {p : Phase ι} (hat : T.At s id p) {older : History ι}
    (hsuffix : older <:+ s.history) {e : ι × Json} (he : e ∈ older.completions id) :
    e ∈ s.history.executions id := by
  have hmem : e ∈ s.history.completions id := (hsuffix.filterMap _).subset he
  rw [hat.completions] at hmem
  rw [hat.executions]
  cases p with
  | untouched | claimed | executed => cases hmem
  | completed => exact hmem

/-- The account of an attempt without a row before the calls, in every reachable state. -/
theorem Reachable.once (h : T.Reachable w₀ s) (hfree : w₀.row id = none)
    (hdecode : Decodes s.history id) : T.Once s id := by
  obtain ⟨p, hbefore, hat⟩ := h.exists_at id
  refine ⟨?_, ?_, ?_, ?_, fun older hsuffix e => hat.mem_executions hsuffix,
    hat.get_eq (hbefore.trans hfree) hdecode, ?_⟩
  · rw [hat.winners]
    cases p <;> simp [Phase.tally]
  · rw [hat.executions]
    cases p <;> simp [Phase.tally]
  · rw [hat.winners, hat.executions]
    cases p <;> simp [Phase.tally]
  · rw [hat.executions]
    exact hat.result_ne
  · intro older i claim a hsuffix hauth hid
    obtain ⟨answer, rfl, hanswer, htold⟩ := h.told hfree hdecode hsuffix hauth hid
    have hstage := h.stage_eq_of_done (hsuffix.subset List.mem_cons_self)
    refine ⟨answer, rfl, hanswer, htold, ?_⟩
    rw [← hat.owns_iff, hstage]
    simp [RunCall.Stage.owns, hanswer]

/-- The account of an attempt with a row before the calls, in every reachable state. -/
theorem Reachable.kept (h : T.Reachable w₀ s) {row : LedgerRow} (hrow : w₀.row id = some row) :
    T.Kept s id row := by
  obtain ⟨p, hbefore, hat⟩ := h.exists_at id
  cases p with
  | untouched before =>
    obtain rfl : before = some row := hbefore.trans hrow
    exact ⟨hat.tally, hat.row, fun i claim a hdone hauth hid =>
      h.done_eq_lookedUp hrow hdone hauth hid⟩
  | claimed | executed | completed => cases hbefore.trans hrow

/-- **Every attempt is carried out at most once**, whatever calls there are and in whatever order
they take their steps, if the texts of the results are read as they were written. An attempt that
had a row before the calls is not carried out at all. Every call is done or can go on. -/
theorem executed_once (T : Traffic ι) (w₀ : Workspace) (s : State ι) (h : T.Reachable w₀ s)
    (id : String) (hdecode : Decodes s.history id) :
    (w₀.row id = none → T.Once s id) ∧ (∀ row, w₀.row id = some row → T.Kept s id row) ∧
      ∀ i, (∃ a, s.stage i = .done a ∧ (i, .done a) ∈ s.history) ∨
        ∃ next, (T.call i).step (T.runner i) (s.stage i) s.workspace = some next := by
  refine ⟨fun hfree => h.once hfree hdecode, fun row hrow => h.kept hrow, fun i => ?_⟩
  rcases (T.call i).exists_step (T.runner i) (s.stage i) s.workspace with ⟨a, hdone⟩ | hnext
  · have hmem := (h.mem_history i).resolve_left (by rw [hdone]; simp)
    exact Or.inl ⟨a, hdone, hdone ▸ hmem⟩
  · exact Or.inr hnext

/-- Two calls of one attempt, which is a probe. -/
private def probes : Traffic Bool :=
  ⟨fun _ => ⟨[107], ⟨[]⟩, .default⟩, fun _ => ⟨"r", ⟨some "j", some "a", none, "probe", .null, none,
    some (Token.issue [107] "j" "a" 60), some 60⟩, 0, 0⟩⟩

/-- The result of the probe. -/
private def pong : Json :=
  .obj [("echo", .null), ("node_ts", .int 0), ("ok", .bool true), ("pong", .bool true)]

/-- A workspace without files whose ledger has the given rows. -/
private def holding (rows : Keyed LedgerRow) : Workspace := ⟨⟨⟨rows⟩, none⟩, .empty⟩

/-- One call wins the attempt and completes it; the other loses it and looks it up in between. -/
private def race : State Bool :=
  let claim : Claim := ⟨"j", "a", 60⟩
  let claimed := holding [("a", Ledger.claimedRow 0)]
  let completed := holding [("a", Ledger.completedRow (Ledger.claimedRow 0) pong)]
  let answer (cached : Bool) (result : Json) := (probes.call true).respond claim cached result
  begin (holding []) |>.enter true (.authorized claim) (holding [])
    |>.enter false (.authorized claim) (holding []) |>.enter true (.won claim) claimed
    |>.enter false (.lost claim) claimed |>.enter true (.executed claim pong) claimed
    |>.enter false (answer true inProgressResult) claimed
    |>.enter true (answer false pong) completed

private theorem reachable_race : probes.Reachable (holding []) race := by
  have hauth (b : Bool) : (probes.call b).step (probes.runner b) .begun (holding []) =
      some (.authorized ⟨"j", "a", 60⟩, holding []) := by
    have htoken : Token.authorize (probes.runner b).key (probes.call b).spec.claimContext
        (probes.call b).now = .ok ⟨"j", "a", 60⟩ := by
      simp [probes, JobSpec.claimContext, JobSpec.effectiveAttemptId, Token.authorize_full]
    simp only [RunCall.step, htoken]
  exact .step (.step (.step (.step (.step (.step (.step .start (hauth true)) (hauth false)) rfl)
    rfl) rfl) rfl) rfl

private theorem decodes_race : Decodes race.history "a" := by
  have hreadable : Json.Readable Json.maxDepth pong := by
    refine .obj (by decide) ?_
    simp only [List.forall_mem_cons, List.not_mem_nil, false_imp_iff, implies_true, and_true]
    exact ⟨.null, .int (by decide), .bool, .bool⟩
  intro e he
  obtain rfl : e = (true, pong) := by simpa [race, begin, History.executions,
    RunCall.Stage.execution?, RunCall.respond] using he
  exact Json.ofBytes_compact hreadable

/-- Of two calls at once for one attempt the one is told the result and the other the marker. -/
theorem executed_once_race :
    probes.Reachable (holding []) race ∧ Decodes race.history "a" ∧
      race.history.executions "a" = [(true, pong)] ∧
      (∃ a b, race.stage true = .done (.ok a) ∧ a.cached = false ∧ a.result = pong ∧
        race.stage false = .done (.ok b) ∧ b.cached = true ∧ b.result = inProgressResult) ∧
      probes.Once race "a" :=
  ⟨reachable_race, decodes_race, rfl, ⟨_, _, rfl, rfl, rfl, rfl, rfl, rfl⟩,
    (executed_once probes (holding []) race reachable_race "a" decodes_race).1 rfl⟩

end Traffic

end MeshNode
