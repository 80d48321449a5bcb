import MeshNode.Proofs.Files.Operations
import MeshNode.Proofs.Job.Alone
import MeshNode.Proofs.Json.Order

/-!
# Results are in order

There are only so many results that a job can have (`Job.Result`), and all of them are built in
order, except that a probe answers with a value it was sent. A request that was read is in order, so
that this value is, and so is a result that the ledger was asked for, which was read from its text.
A call answers with either (`JobRunner.result_of_run`), and hence in order if its request is. A
result that the call has produced itself nests no deeper than the arguments of its job.

What a request hands on to the arguments of its job, and these to what a probe is sent, is proved of
any property of values that passes to the values which they hold (`Json.Inherits`).
-/

namespace MeshNode

open Json (InOrder)

namespace Files

variable {ε α β : Type} {P : α → Prop}

/-- Whatever the files, an activity that ends with a value ends with one of a kind. -/
def Ends (a : Files ε α) (P : α → Prop) : Prop := ∀ t x t', run a t = (.ok x, t') → P x

theorem ends_pure {x : α} (h : P x) : Ends (pure x : Files ε α) P := by
  intro t y t' hrun
  rw [run_pure] at hrun
  exact Except.ok.inj (Prod.mk.inj hrun).1 ▸ h

theorem ends_throw (e : ε) : Ends (throw e : Files ε α) P := by
  intro t y t' hrun
  rw [run_throw] at hrun
  cases hrun

theorem ends_bind {a : Files ε β} {f : β → Files ε α} (h : ∀ x, Ends (f x) P) :
    Ends (a >>= f) P := by
  intro t y t' hrun
  rw [run_bind] at hrun
  split at hrun
  · exact h _ _ y t' hrun
  · cases hrun

theorem ends_inspect {f : FileTree → Except ε α} (h : ∀ t x, f t = .ok x → P x) :
    Ends (inspect f) P := by
  intro t y t' hrun
  rw [run_inspect] at hrun
  exact h t y (Prod.mk.inj hrun).1

end Files

/-! ### Jobs -/

namespace Job

/-- The values with which jobs are completed. A probe answers with one that it was sent. -/
inductive Completion (args : Json) (now : Int) : Json → Prop where
  | written (bytes : Nat) (path digest : String) : Completion args now
      (.obj [("bytes_written", .nat bytes), ("path", .str path), ("sha256", .str digest)])
  | listed (count : Nat) (names : List String) (root : String) : Completion args now
      (.obj [("count", .nat count), ("entries", .arr (names.map .str)), ("root", .str root)])
  | pong {probe : ProbeArgs} (hread : readArgs .probe ProbeArgs.decoder args = .ok probe) :
      Completion args now (pong probe now)

/-- The results of jobs. -/
inductive Result (args : Json) (now : Int) : Json → Prop where
  | failed (code message : String) : Result args now (JobOutcome.failure code message)
  | completed {fields : List (String × Json)} (h : Completion args now (.obj fields)) :
      Result args now (.obj (Keyed.insert fields "ok" (.bool true)))

variable {args : Json} {now : Int}

theorem Completion.result {value : Json} (h : Completion args now value) :
    Result args now (JobOutcome.completed value).result := by
  cases h with
  | written => exact .completed (.written ..)
  | listed => exact .completed (.listed ..)
  | pong hread => exact .completed (.pong hread)

theorem ends_write (jail : Jail) (given : WriteArgs) :
    Files.Ends (write jail given) (Completion args now) := by
  unfold write
  split
  · exact Files.ends_throw _
  · refine Files.ends_bind fun l => ?_
    split_ifs
    · exact Files.ends_bind fun _ => Files.ends_bind fun _ => Files.ends_pure (.written _ _ _)
    · exact Files.ends_bind fun _ => Files.ends_pure (.written _ _ _)

theorem completion_of_list {jail : Jail} {t : FileTree} {given : ListArgs} {value : Json}
    (h : list jail t given = .ok value) : Completion args now value := by
  unfold list at h
  cases hpatterns : given.patterns.mapM readPattern with
  | error e =>
    rw [hpatterns] at h
    cases h
  | ok patterns =>
    rw [hpatterns] at h
    cases hdir : jail.resolve t given.root with
    | error e =>
      rw [hdir] at h
      cases h
    | ok dir =>
      rw [hdir] at h
      simp only [bind, Except.bind] at h
      split_ifs at h
      cases hfound : entries t dir given.recursive patterns with
      | error e =>
        rw [hfound] at h
        cases h
      | ok found =>
        rw [hfound] at h
        exact Except.ok.inj h ▸ .listed _ _ _

theorem result_outcome {a : Files SandboxError Json} (h : Files.Ends a (Completion args now))
    (t : FileTree) : Result args now (outcome a t).1.result := by
  unfold outcome
  split
  · rename_i value t' hrun
    exact (h t value t' hrun).result
  · exact .failed _ _

/-- **What the result of a job can be.** -/
theorem result_execute (jail : Jail) (kind : String) (args : Json) (timeout : Nat) (now : Int)
    (t : FileTree) : Result args now (execute jail kind args timeout now t).1.result := by
  unfold execute
  split
  · rename_i kind _
    cases kind with
    | probe =>
      simp only [executeKind]
      split
      · exact .failed _ _
      · rename_i hread
        split_ifs
        · exact .failed _ _
        · exact (Completion.pong hread).result
    | write =>
      simp only [executeKind]
      split
      · exact .failed _ _
      · exact result_outcome (ends_write _ _) t
    | list =>
      simp only [executeKind]
      split
      · exact .failed _ _
      · exact result_outcome (Files.ends_inspect fun t value h => completion_of_list h) t
  · exact .failed _ _

/-! ### Arguments -/

section

variable {P P' : Json → Prop} (hP : Json.Inherits P P')
include hP

/-- What a probe is sent has the property that its arguments hand on. -/
theorem ProbeArgs.carries : decoder.Carries P fun probe => ∀ j ∈ probe.echo, P' j :=
  Json.Decoder.carries_record
    (((Json.Fields.carries_nil P').cons (Json.Field.carries_omissible
      (Json.Decoder.carries_true .word64 P') "delay_ms")).cons
      (Json.Field.carries_omissible (Json.Decoder.carries_value P') "echo"))
    hP.members hP.items _ fun _ h => h.1

theorem carries_readArgs {α : Type} {kind : JobKind} {d : Json.Decoder α} {Q : α → Prop}
    (hd : d.Carries P Q) {args : Json} (hargs : P args) {a : α}
    (h : readArgs kind d args = .ok a) : Q a := by
  unfold readArgs at h
  -- Null stands for no arguments.
  split at h <;> dsimp only at h <;> split at h
  · rename_i a' hconvert
    exact Except.ok.inj h ▸ hd _ a' hP.blank hconvert
  · cases h
  · rename_i a' hconvert
    exact Except.ok.inj h ▸ hd _ a' hargs hconvert
  · cases h

/-- What a probe answers with has the property that its arguments hand on. -/
theorem echo_of_readArgs {args : Json} (hargs : P args) {probe : ProbeArgs}
    (h : readArgs .probe ProbeArgs.decoder args = .ok probe) : P' (probe.echo.getD .null) := by
  have hecho := carries_readArgs hP (ProbeArgs.carries hP) hargs h
  cases hvalue : probe.echo with
  | none => exact hP.null
  | some j => exact hecho j hvalue

end

/-! ### Order -/

variable {levels : Nat}

theorem Completion.inOrder {value : Json} (h : Completion args now value)
    (hargs : args.InOrder (levels + 2)) : value.InOrder (levels + 2) := by
  cases h with
  | written =>
    have hkeys : ["bytes_written", "path", "sha256"].Pairwise (· < ·) := by decide
    refine .obj (Keyed.sorted_of_keys hkeys) ?_
    simp only [List.forall_mem_cons, List.not_mem_nil, false_imp_iff, implies_true, and_true]
    exact ⟨.num, .str, .str⟩
  | listed count names =>
    have hkeys : ["count", "entries", "root"].Pairwise (· < ·) := by decide
    refine .obj (Keyed.sorted_of_keys hkeys) ?_
    simp only [List.forall_mem_cons, List.not_mem_nil, false_imp_iff, implies_true, and_true]
    refine ⟨.num, .arr fun j hj => ?_, .str⟩
    obtain ⟨name, -, rfl⟩ := List.mem_map.mp hj
    exact .str
  | pong hread =>
    have hkeys : ["echo", "node_ts", "pong"].Pairwise (· < ·) := by decide
    refine .obj (Keyed.sorted_of_keys hkeys) ?_
    simp only [List.forall_mem_cons, List.not_mem_nil, false_imp_iff, implies_true, and_true]
    exact ⟨echo_of_readArgs InOrder.inherits hargs hread, .num, .bool⟩

/-- **The result of a job is in order** if its arguments are, and nests no deeper than they do or a
list does. -/
theorem Result.inOrder {result : Json} (h : Result args now result)
    (hargs : args.InOrder (levels + 2)) : result.InOrder (levels + 2) := by
  cases h with
  | failed =>
    have hkeys : ["error", "error_code", "ok"].Pairwise (· < ·) := by decide
    refine .obj (Keyed.sorted_of_keys hkeys) ?_
    simp only [List.forall_mem_cons, List.not_mem_nil, false_imp_iff, implies_true, and_true]
    exact ⟨.str, .str, .bool⟩
  | completed h => exact (h.inOrder hargs).insert "ok" .bool

end Job

/-! ### Requests -/

namespace JobSpec

section

variable {P P' : Json → Prop} (hP : Json.Inherits P P')
include hP

/-- The arguments of a job have the property that its request hands on. -/
theorem carries : decoder.Carries P fun spec => P' spec.args := by
  have htext (name : String) := Json.Field.carries_omissible
    (Json.Decoder.carries_true .text P') name
  have hlast := (Json.Fields.carries_nil P').cons (Json.Field.carries_omissible
    (Json.Decoder.carries_true .int64 P') "deadline_ts")
  have htimeout := (hlast.cons (htext "claim_token")).cons (Json.Field.carries_omissible
    (Json.Decoder.carries_true .word64 P') "timeout_seconds")
  have hargs := htimeout.cons (Json.Field.carries_withDefault
    (Json.Decoder.carries_value P') "args" .null hP.null)
  have hkind := hargs.cons (Json.Field.carries_required
    (Json.Decoder.carries_true .text P') "kind")
  have hall := ((hkind.cons (htext "req_uid")).cons (htext "attempt_id")).cons (htext "job_id")
  exact Json.Decoder.carries_record hall hP.members hP.items _ fun _ h => h.2.2.2.2.1

theorem of_jobOf {fields : List (String × Json)} {job : Json} (hfields : P (.obj fields))
    (h : jobOf fields = .ok job) : P job := by
  unfold jobOf at h
  split at h
  · exact Except.ok.inj h ▸ hfields
  · split at h
    · cases h
    · split_ifs at h
      split at h
      · rename_i job' hjob
        have hjob' := hP.mono _ (hP.members _ hfields ("job", job') (Keyed.mem_of_get? hjob))
        exact Except.ok.inj h ▸ hjob'
      · cases h

theorem args_of_ofRequest {request : Json} {spec : JobSpec} (hrequest : P request)
    (h : ofRequest request = .ok spec) : P' spec.args := by
  unfold ofRequest at h
  split at h
  · rename_i fields
    cases hjob : jobOf fields with
    | error e =>
      rw [hjob] at h
      cases h
    | ok job =>
      rw [hjob] at h
      simp only [bind, Except.bind] at h
      split at h
      · rename_i spec' hspec
        obtain rfl : spec' = spec := Except.ok.inj h
        exact carries hP job spec' (of_jobOf hP hrequest hjob) hspec
      · cases h
  · cases h

end

theorem inOrder_of_ofRequest {levels : Nat} {request : Json} {spec : JobSpec}
    (hrequest : request.InOrder (levels + 1)) (h : ofRequest request = .ok spec) :
    spec.args.InOrder levels := args_of_ofRequest InOrder.inherits hrequest h

end JobSpec

/-! ### Calls -/

theorem inOrder_inProgressResult {levels : Nat} : inProgressResult.InOrder (levels + 1) := by
  refine .obj (by decide) ?_
  simp only [List.forall_mem_cons, List.not_mem_nil, false_imp_iff, implies_true, and_true]
  exact ⟨.str, .str, .bool⟩

namespace Ledger

/-- A result that is read from a row is in order. -/
theorem inOrder_of_readRow {id : String} {row : LedgerRow} {record : AttemptRecord}
    (h : readRow id row = .ok record) : record.callerResult.InOrder Json.maxDepth := by
  unfold readRow at h
  split at h
  · cases h
  · cases h
    exact inOrder_inProgressResult
  · cases h
  · split at h
    · rename_i result hresult
      cases h
      exact Json.inOrder_of_ofBytes hresult
    · cases h

end Ledger

namespace RunCall

/-- What a call carries out is its job. -/
theorem result_of_step {r : JobRunner} {c : RunCall} {stage : Stage} {w w' : Workspace}
    {claim : Claim} {result : Json} (h : step r c stage w = some (.executed claim result, w')) :
    Job.Result c.spec.args c.nowMillis result := by
  have hturn := turn_of_step h
  generalize hnew : Stage.executed claim result = new at hturn
  cases hturn with
  | execute =>
    cases hnew
    simp only [step, Option.some.injEq, Prod.mk.injEq, Stage.executed.injEq, true_and] at h
    exact h.1 ▸ Job.result_execute ..
  | @lookUp claim' =>
    obtain ⟨answer, hdone⟩ := c.exists_lookedUp_eq_done claim' (w.row claim'.attemptId)
    exact Stage.noConfusion (hnew.trans hdone)
  | refuse | authorize | win | lose | complete => cases hnew

/-- What a call has looked up is in order, and is marked as looked up. -/
theorem inOrder_of_lookedUp {c : RunCall} {claim : Claim} {row : LedgerRow} {answer : RunResponse}
    (h : c.lookedUp claim (some row) = .done (.ok answer)) :
    answer.cached = true ∧ answer.result.InOrder Json.maxDepth := by
  cases hread : Ledger.readRow claim.attemptId row with
  | ok record =>
    simp only [lookedUp, hread] at h
    cases h
    exact ⟨rfl, Ledger.inOrder_of_readRow hread⟩
  | error e =>
    simp only [lookedUp, hread] at h
    cases h

end RunCall

namespace JobRunner

variable {r : JobRunner} {c : RunCall} {w : Workspace} {answer : RunResponse}

/-- **A call answers with the result of its job, or with one that it has looked up.** -/
theorem result_of_run (h : (r.run c w).1 = .ok answer) :
    answer.cached = false ∧ Job.Result c.spec.args c.nowMillis answer.result ∨
      answer.cached = true ∧ answer.result.InOrder Json.maxDepth := by
  cases hauth : c.authorization r with
  | error e =>
    rw [run_of_unauthorized hauth] at h
    cases h
  | ok claim =>
    cases hrow : w.row claim.attemptId with
    | none =>
      obtain ⟨t, result, w', rfl, hrun, -⟩ := run_of_free hauth hrow
      rw [hrun] at h
      cases h
      exact Or.inl ⟨rfl, Job.result_execute ..⟩
    | some held =>
      obtain ⟨answer', hlooked⟩ := c.exists_lookedUp_eq_done claim (some held)
      obtain ⟨w', hrun, -⟩ := run_of_taken hauth hrow hlooked
      rw [hrun] at h
      obtain rfl : answer' = .ok answer := h
      exact Or.inr (RunCall.inOrder_of_lookedUp hlooked)

/-- What a call answers with is in order if its arguments are. -/
theorem inOrder_of_run {levels : Nat} (hargs : c.spec.args.InOrder (levels + 2))
    (hlevels : levels + 2 ≤ Json.maxDepth) (h : (r.run c w).1 = .ok answer) :
    answer.result.InOrder Json.maxDepth := by
  rcases result_of_run h with ⟨-, hresult⟩ | ⟨-, hlooked⟩
  · exact (hresult.inOrder hargs).mono hlevels
  · exact hlooked

end JobRunner

end MeshNode
