import Mathlib.Logic.Function.Basic
import Mathlib.Tactic.SplitIfs
import MeshNode.Proofs.Job.Outcome
import MeshNode.Proofs.Ledger

/-!
# Calls under way at once

Any number of calls, each to a runner of its own, share one workspace. Each call takes its atomic
steps one after the other, and between two of them any other calls may take some of theirs: a state
is reachable if some order of steps leads to it. Beside the stages of the calls and the workspace a
state remembers its history, the stages that calls have entered so far, latest first. What happened
to an attempt is read off the history: which calls won it, which carried it out and with what
result, and which completed it.

`Turn` says once what a step can do, as far as the rows of the ledger go. Everything that is proved
of runs goes by its cases.
-/

namespace MeshNode

/-- What the ledger of a workspace holds for an attempt. -/
def Workspace.row (w : Workspace) (id : String) : Option LedgerRow := w.ledger.ledger.rows.get? id

/-- The rows are all that looking an attempt up depends on. -/
theorem Workspace.get_eq (w : Workspace) (id : String) :
    w.ledger.get id =
      match w.row id with
      | none => .ok none
      | some row => (Ledger.readRow id row).map some := rfl

/-! ### One step -/

namespace RunCall

/-- What a call presents is authorized, or refused, by its runner. -/
def authorization (r : JobRunner) (c : RunCall) : Except AuthError Claim :=
  Token.authorize r.key c.spec.claimContext c.now

/-- An authorized call goes on. -/
theorem step_begun_of_authorization {r : JobRunner} {c : RunCall} {claim : Claim}
    (h : c.authorization r = .ok claim) (w : Workspace) :
    c.step r .begun w = some (.authorized claim, w) := by
  rw [authorization] at h
  simp only [step, h]

/-- What a call that lost the claim answers with, by the row that it finds. -/
def lookedUp (c : RunCall) (claim : Claim) : Option LedgerRow → Stage
  | none => c.respond claim true inProgressResult
  | some row =>
    match Ledger.readRow claim.attemptId row with
    | .ok record => c.respond claim true record.callerResult
    | .error e => .done (.error (.store e))

@[simp] theorem lookedUp_claimedRow (c : RunCall) (claim : Claim) (now : Int) :
    c.lookedUp claim (some (Ledger.claimedRow now)) = c.respond claim true inProgressResult := rfl

theorem lookedUp_completedRow (c : RunCall) (claim : Claim) {row : LedgerRow} {result : Json}
    (hdecode : Json.ofBytes (.ofText result.compact) = .ok result) :
    c.lookedUp claim (some (Ledger.completedRow row result)) = c.respond claim true result := by
  rw [lookedUp, Ledger.readRow_completedRow hdecode]
  rfl

/-- A call that looks its attempt up is done. -/
theorem exists_lookedUp_eq_done (c : RunCall) (claim : Claim) (row : Option LedgerRow) :
    ∃ answer, c.lookedUp claim row = .done answer := by
  unfold lookedUp
  split
  · exact ⟨_, rfl⟩
  · split <;> exact ⟨_, rfl⟩

/-- What one step of a call can do, to its stage and to the rows of the ledger. -/
inductive Turn (r : JobRunner) (c : RunCall) (row row' : String → Option LedgerRow) :
    Stage → Stage → Prop where
  | refuse {e : AuthError} (hauth : authorization r c = .error e) (hrow : row' = row) :
      Turn r c row row' .begun (.done (.error (.auth e)))
  | authorize {claim : Claim} (hauth : authorization r c = .ok claim) (hrow : row' = row) :
      Turn r c row row' .begun (.authorized claim)
  | win {claim : Claim} (hfree : row claim.attemptId = none)
      (hrow : row' = Function.update row claim.attemptId (some (Ledger.claimedRow c.now))) :
      Turn r c row row' (.authorized claim) (.won claim)
  | lose {claim : Claim} (htaken : row claim.attemptId ≠ none) (hrow : row' = row) :
      Turn r c row row' (.authorized claim) (.lost claim)
  | lookUp {claim : Claim} (hrow : row' = row) :
      Turn r c row row' (.lost claim) (c.lookedUp claim (row claim.attemptId))
  | execute {claim : Claim} {result : Json} (hresult : result ≠ inProgressResult)
      (hrow : row' = row) : Turn r c row row' (.won claim) (.executed claim result)
  | complete {claim : Claim} {result : Json}
      (hrow : row' = Function.update row claim.attemptId
        ((row claim.attemptId).map (Ledger.completedRow · result))) :
      Turn r c row row' (.executed claim result) (c.respond claim false result)

/-- Every step is a turn. -/
theorem turn_of_step {r : JobRunner} {c : RunCall} {stage stage' : Stage} {w w' : Workspace}
    (h : step r c stage w = some (stage', w')) : Turn r c w.row w'.row stage stage' := by
  cases stage with
  | begun =>
    simp only [step] at h
    split at h
    · obtain ⟨rfl, rfl⟩ := Prod.mk.inj (Option.some.inj h)
      exact .authorize ‹_› rfl
    · obtain ⟨rfl, rfl⟩ := Prod.mk.inj (Option.some.inj h)
      exact .refuse ‹_› rfl
  | authorized claim =>
    simp only [step, LedgerStore.claim_won, Option.some.injEq, Prod.mk.injEq] at h
    obtain ⟨rfl, rfl⟩ := h
    cases hfree : w.ledger.ledger.rows.get? claim.attemptId with
    | none =>
      refine .win hfree (funext fun k => ?_)
      rw [Workspace.row, LedgerStore.get?_claim, hfree, Function.update_apply]
      rfl
    | some row =>
      refine .lose (by rw [Workspace.row, hfree]; exact Option.some_ne_none row)
        (funext fun k => ?_)
      rw [Workspace.row, LedgerStore.get?_claim, hfree]
      split_ifs with hk
      · rw [hk, Workspace.row, hfree]; rfl
      · rfl
  | lost claim =>
    simp only [step, Workspace.get_eq] at h
    have hturn : Turn r c w.row w.row (.lost claim)
        (c.lookedUp claim (w.row claim.attemptId)) := .lookUp rfl
    cases hrow : w.row claim.attemptId with
    | none =>
      rw [hrow] at h hturn
      obtain ⟨rfl, rfl⟩ := Prod.mk.inj (Option.some.inj h)
      exact hturn
    | some row =>
      rw [hrow] at h hturn
      rw [lookedUp] at hturn
      cases hread : Ledger.readRow claim.attemptId row with
      | ok record =>
        rw [hread] at hturn
        simp only [hread, Except.map, Option.some.injEq, Prod.mk.injEq] at h
        obtain ⟨rfl, rfl⟩ := h
        exact hturn
      | error e =>
        rw [hread] at hturn
        simp only [hread, Except.map, Option.some.injEq, Prod.mk.injEq] at h
        obtain ⟨rfl, rfl⟩ := h
        exact hturn
  | won claim =>
    simp only [step, Option.some.injEq, Prod.mk.injEq] at h
    obtain ⟨rfl, rfl⟩ := h
    exact .execute (Job.execute_ended ..).result_ne_inProgress rfl
  | executed claim result =>
    simp only [step, Option.some.injEq, Prod.mk.injEq] at h
    obtain ⟨rfl, rfl⟩ := h
    refine .complete (funext fun k => ?_)
    rw [Workspace.row, LedgerStore.get?_complete, Function.update_apply]
    rfl
  | done answer => exact absurd h (by simp [step])

/-- A step is one of the steps that are taken. -/
theorem advance_of_step {r : JobRunner} {c : RunCall} {stage stage' : Stage} {w w' : Workspace}
    (h : step r c stage w = some (stage', w')) (steps : Nat) :
    c.advance r (steps + 1) stage w = c.advance r steps stage' w' := by
  rw [advance, h]

/-- What every step preserves holds after any number of steps. -/
theorem advance_induction {r : JobRunner} {c : RunCall} {P : Stage → Prop}
    (hstep : ∀ stage w stage' w', P stage → step r c stage w = some (stage', w') → P stage')
    (steps : Nat) {stage : Stage} {w : Workspace} (hstage : P stage) :
    P (c.advance r steps stage w).1 := by
  induction steps generalizing stage w with
  | zero => exact hstage
  | succ steps ih =>
    rw [advance]
    split
    · rename_i hnext
      exact ih (hstep _ _ _ _ hstage hnext)
    · exact hstage

/-- A call that is not done can take a step. -/
theorem exists_step (r : JobRunner) (c : RunCall) (stage : Stage) (w : Workspace) :
    (∃ answer, stage = .done answer) ∨ ∃ next, step r c stage w = some next := by
  cases stage with
  | begun =>
    right
    simp only [step]
    split <;> exact ⟨_, rfl⟩
  | authorized claim => exact Or.inr ⟨_, rfl⟩
  | lost claim =>
    right
    simp only [step]
    split <;> exact ⟨_, rfl⟩
  | won claim => exact Or.inr ⟨_, rfl⟩
  | executed claim result => exact Or.inr ⟨_, rfl⟩
  | done answer => exact Or.inl ⟨answer, rfl⟩

/-- What a call presented is what its stage goes by. -/
def Follows (r : JobRunner) (c : RunCall) : Stage → Prop
  | .begun => True
  | .authorized claim | .lost claim | .won claim | .executed claim _ =>
    authorization r c = .ok claim
  | .done (.ok answer) =>
    ∃ claim, authorization r c = .ok claim ∧ answer.requestId = c.requestId ∧
      answer.attemptId = claim.attemptId ∧ answer.jobId = claim.jobId
  | .done (.error (.auth e)) => authorization r c = .error e
  | .done (.error _) => ∃ claim, authorization r c = .ok claim

theorem Turn.follows {r : JobRunner} {c : RunCall} {row row' : String → Option LedgerRow}
    {stage stage' : Stage} (h : Turn r c row row' stage stage') (hstage : Follows r c stage) :
    Follows r c stage' := by
  cases h with
  | refuse hauth => exact hauth
  | authorize hauth => exact hauth
  | win | lose | execute => exact hstage
  | complete => exact ⟨_, hstage, rfl, rfl, rfl⟩
  | @lookUp claim =>
    have hok : authorization r c = .ok claim := hstage
    unfold lookedUp
    split
    · exact ⟨_, hok, rfl, rfl, rfl⟩
    · split
      · exact ⟨_, hok, rfl, rfl, rfl⟩
      · exact ⟨_, hok⟩

/-- No step takes a row away. -/
theorem Turn.row_ne_none {r : JobRunner} {c : RunCall} {row row' : String → Option LedgerRow}
    {stage stage' : Stage} (h : Turn r c row row' stage stage') {id : String}
    (hid : row id ≠ none) : row' id ≠ none := by
  cases h with
  | refuse _ hrow | authorize _ hrow | lose _ hrow | lookUp hrow | execute _ hrow =>
    exact hrow ▸ hid
  | @win claim _ hrow =>
    rw [hrow, Function.update_apply]
    split_ifs
    · exact Option.some_ne_none _
    · exact hid
  | @complete claim _ hrow =>
    rw [hrow, Function.update_apply]
    split_ifs with heq
    · rw [heq] at hid
      simpa using hid
    · exact hid

end RunCall

namespace JobRunner

variable {r : JobRunner} {c : RunCall} {w w' : Workspace} {answer : Except MeshError RunResponse}

/-- A run answers with what its last stage holds. -/
theorem run_of_advance (h : c.advance r RunCall.maxSteps .begun w = (.done answer, w')) :
    r.run c w = (answer, w') := by
  rw [run, h]

/-- What a run answers is what its last stage holds, or the error of a run that has not come to an
end. -/
theorem advance_eq_done_or (h : (r.run c w).1 = answer) :
    (c.advance r RunCall.maxSteps .begun w).1 = .done answer ∨
      answer = .error (.store (.task "run not finished")) := by
  rw [run] at h
  split at h
  · rename_i answer' w' hdone
    exact Or.inl (by rw [hdone, ← h])
  · exact Or.inr h.symm

end JobRunner

/-! ### Histories -/

namespace RunCall.Stage

/-- Whether a call that enters the stage wins the attempt. -/
def wins (id : String) : Stage → Bool
  | .won claim => claim.attemptId = id
  | _ => false

/-- The result with which a call that enters the stage has carried out the attempt. -/
def execution? (id : String) : Stage → Option Json
  | .executed claim result => if claim.attemptId = id then some result else none
  | _ => none

/-- The result with which a call that enters the stage has completed the attempt. -/
def completion? (id : String) : Stage → Option Json
  | .done (.ok answer) =>
    if answer.attemptId = id ∧ answer.cached = false then some answer.result else none
  | _ => none

/-- Whether a call at the stage has won the attempt. -/
def owns (id : String) : Stage → Bool
  | .won claim | .executed claim _ => claim.attemptId = id
  | .done (.ok answer) => answer.attemptId = id ∧ answer.cached = false
  | _ => false

end RunCall.Stage

/-- Calls to runners that share one workspace. -/
structure Traffic (ι : Type) where
  runner : ι → JobRunner
  call : ι → RunCall

namespace Traffic

/-- The stages that calls have entered, latest first. -/
abbrev History (ι : Type) := List (ι × RunCall.Stage)

namespace History

variable {ι : Type}

/-- The calls that won an attempt. -/
def winners (h : History ι) (id : String) : List ι :=
  h.filterMap fun e => if e.2.wins id then some e.1 else none

/-- The calls that carried out an attempt, and their results. -/
def executions (h : History ι) (id : String) : List (ι × Json) :=
  h.filterMap fun e => (e.2.execution? id).map (e.1, ·)

/-- The calls that completed an attempt, and their results. -/
def completions (h : History ι) (id : String) : List (ι × Json) :=
  h.filterMap fun e => (e.2.completion? id).map (e.1, ·)

/-- All that happened to an attempt. -/
def tally (h : History ι) (id : String) : List ι × List (ι × Json) × List (ι × Json) :=
  (h.winners id, h.executions id, h.completions id)

theorem tally_cons (i : ι) (stage : RunCall.Stage) (h : History ι) (id : String) :
    History.tally ((i, stage) :: h) id =
      ((if stage.wins id then [i] else []) ++ h.winners id,
        ((stage.execution? id).map (i, ·)).toList ++ h.executions id,
        ((stage.completion? id).map (i, ·)).toList ++ h.completions id) := by
  cases hw : stage.wins id <;> cases he : stage.execution? id <;>
    cases hc : stage.completion? id <;>
    simp [tally, winners, executions, completions, hw, he, hc]

theorem mem_executions_of_mem {h : History ι} {i : ι} {claim : Claim} {result : Json}
    (hmem : (i, RunCall.Stage.executed claim result) ∈ h) :
    (i, result) ∈ h.executions claim.attemptId :=
  List.mem_filterMap.mpr ⟨_, hmem, by simp [RunCall.Stage.execution?]⟩

end History

/-- Where the calls and the workspace stand. -/
structure State (ι : Type) where
  stage : ι → RunCall.Stage
  workspace : Workspace
  history : History ι

variable {ι : Type} [DecidableEq ι]

/-- The state before any call has begun. -/
def begin (w : Workspace) : State ι := ⟨fun _ => .begun, w, []⟩

/-- The state after one call has entered a stage and left the workspace as it is then. -/
def State.enter (s : State ι) (i : ι) (stage : RunCall.Stage) (w : Workspace) : State ι :=
  ⟨Function.update s.stage i stage, w, (i, stage) :: s.history⟩

@[simp] theorem State.enter_stage_self (s : State ι) (i : ι) (stage : RunCall.Stage)
    (w : Workspace) : (s.enter i stage w).stage i = stage := Function.update_self ..

theorem State.enter_stage_of_ne (s : State ι) {i j : ι} (h : j ≠ i) (stage : RunCall.Stage)
    (w : Workspace) : (s.enter i stage w).stage j = s.stage j := Function.update_of_ne h ..

@[simp] theorem State.enter_workspace (s : State ι) (i : ι) (stage : RunCall.Stage)
    (w : Workspace) : (s.enter i stage w).workspace = w := rfl

@[simp] theorem State.enter_history (s : State ι) (i : ι) (stage : RunCall.Stage)
    (w : Workspace) : (s.enter i stage w).history = (i, stage) :: s.history := rfl

/-- The states that the calls get to from a workspace, in whatever order they take their steps. -/
inductive Reachable (T : Traffic ι) (w₀ : Workspace) : State ι → Prop where
  | start : Reachable T w₀ (begin w₀)
  | step {s : State ι} {i : ι} {stage : RunCall.Stage} {w : Workspace}
      (hs : Reachable T w₀ s)
      (hstep : (T.call i).step (T.runner i) (s.stage i) s.workspace = some (stage, w)) :
      Reachable T w₀ (s.enter i stage w)

variable {T : Traffic ι} {w₀ : Workspace} {s : State ι}

/-- The stage of a call that has begun is in the history. -/
theorem Reachable.mem_history (h : T.Reachable w₀ s) (i : ι) :
    s.stage i = .begun ∨ (i, s.stage i) ∈ s.history := by
  induction h with
  | start => exact Or.inl rfl
  | @step s j stage w _ _ ih =>
    by_cases hij : i = j
    · subst hij
      rw [State.enter_stage_self]
      exact Or.inr List.mem_cons_self
    · rw [State.enter_stage_of_ne s hij]
      exact ih.imp_right (List.mem_cons_of_mem _)

/-- Every call goes by what it presented. -/
theorem Reachable.follows (h : T.Reachable w₀ s) (i : ι) :
    RunCall.Follows (T.runner i) (T.call i) (s.stage i) := by
  induction h with
  | start => trivial
  | @step s j stage w _ hstep ih =>
    by_cases hij : i = j
    · subst hij
      rw [State.enter_stage_self]
      exact (RunCall.turn_of_step hstep).follows ih
    · rw [State.enter_stage_of_ne s hij]
      exact ih

/-- A call that lost an attempt finds a row. -/
theorem Reachable.row_ne_none_of_lost (h : T.Reachable w₀ s) {i : ι} {claim : Claim}
    (hlost : s.stage i = .lost claim) : s.workspace.row claim.attemptId ≠ none := by
  induction h with
  | start => exact RunCall.Stage.noConfusion hlost
  | @step s j stage w _ hstep ih =>
    have hturn := RunCall.turn_of_step hstep
    by_cases hij : i = j
    · subst hij
      rw [State.enter_stage_self] at hlost
      subst hlost
      -- Only losing takes a call to this stage, and it loses against a row.
      generalize hold : s.stage i = old at hturn
      generalize hnew : RunCall.Stage.lost claim = new at hturn
      cases hturn with
      | lose htaken hrow =>
        cases hnew
        exact hrow ▸ htaken
      | @lookUp claim' =>
        obtain ⟨answer, hdone⟩ :=
          (T.call i).exists_lookedUp_eq_done claim' (s.workspace.row claim'.attemptId)
        exact RunCall.Stage.noConfusion (hnew.trans hdone)
      | refuse | authorize | win | execute | complete => cases hnew
    · rw [State.enter_stage_of_ne s hij] at hlost
      exact hturn.row_ne_none (ih hlost)

end Traffic

end MeshNode
