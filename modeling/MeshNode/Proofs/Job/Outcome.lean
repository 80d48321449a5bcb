import MeshNode.Job.Runner

/-!
# What jobs end with

A job that is carried out is completed, fails with an error of the sandbox, or runs out of time. It
follows that its result is never the marker of an attempt in progress: a completed job says that it
is well, and the code of the marker belongs to no error.
-/

namespace MeshNode

namespace JobOutcome

/-- The outcomes of jobs that have been carried out. -/
inductive Ended : JobOutcome → Prop where
  | completed (value : Json) : Ended (.completed value)
  | refused (e : SandboxError) : Ended (.ofError e)
  | timedOut (micros : Nat) : Ended (.timedOut micros)

/-- The result of a completed job says that it is well. -/
theorem ok_of_completed (value : Json) :
    (JobOutcome.completed value).result.get? "ok" = some (.bool true) := by
  cases value with
  | obj fields => exact Keyed.get?_insert_self fields "ok" (.bool true)
  | null | bool | num | str | arr => rfl

/-- No error of the sandbox has the code of the marker. -/
theorem code_ne_inProgress (e : SandboxError) : e.code ≠ "IN_PROGRESS" := by
  cases e <;> simp [SandboxError.code]

private theorem failure_ne_inProgress {code : String} (message : String)
    (h : code ≠ "IN_PROGRESS") : failure code message ≠ inProgressResult := by
  intro heq
  simp only [failure, inProgressResult, Json.obj.injEq, List.cons.injEq, Prod.mk.injEq,
    Json.str.injEq] at heq
  exact h heq.2.1.2

/-- The result of a job that has been carried out is not the marker of an attempt in progress. -/
theorem Ended.result_ne_inProgress {o : JobOutcome} (h : Ended o) :
    o.result ≠ inProgressResult := by
  cases h with
  | completed value =>
    intro heq
    have hok := ok_of_completed value
    rw [heq] at hok
    simp [Json.get?, inProgressResult, List.lookup_cons] at hok
  | refused e => exact failure_ne_inProgress _ (code_ne_inProgress e)
  | timedOut micros => exact failure_ne_inProgress _ (by decide)

end JobOutcome

namespace Job

/-- An activity on the files ends with a value or with an error of the sandbox. -/
theorem outcome_ended (a : Files SandboxError Json) (t : FileTree) : (outcome a t).1.Ended := by
  unfold outcome
  split
  · exact .completed _
  · exact .refused _

/-- Every job that is carried out ends. -/
theorem execute_ended (jail : Jail) (kind : String) (args : Json) (timeout : Nat) (now : Int)
    (t : FileTree) : (execute jail kind args timeout now t).1.Ended := by
  unfold execute
  split
  · rename_i kind _
    cases kind with
    | probe =>
      simp only [executeKind]
      split
      · exact .refused _
      · split
        · exact .timedOut _
        · exact .completed _
    | write =>
      simp only [executeKind]
      split
      · exact .refused _
      · exact outcome_ended _ _
    | list =>
      simp only [executeKind]
      split
      · exact .refused _
      · exact outcome_ended _ _
  · exact .refused _

end Job

end MeshNode
