import MeshNode.Proofs.Job.Once
import MeshNode.Proofs.Job.Results
import MeshNode.Proofs.Json.Lossless

/-!
# Results are read back from the ledger

The ledger keeps the text of a result. Around what a probe was sent a result has as many levels as
the arguments of the job had, and these stood inside the request, so that the result nests less deep
than is read. Its numbers are those that were sent, a time, and counts. So its text is read as the
result that was recorded (`RunCall.Received.ofBytes_compact`).

With that, calls that share a workspace carry each attempt out once and are told its result,
whatever the jobs are (`Traffic.Reachable.once_of_received`).
-/

namespace MeshNode

namespace Job

/-- The counts in a result are sizes on a machine with words of 64 bits. -/
def Counted (result : Json) : Prop :=
  ∀ name ∈ ["bytes_written", "count"], ∀ n, result.get? name = some (.nat n) → n < UInt64.size

variable {args result : Json} {now : Int}

private theorem lossless_nat {n : Nat} (h : n < UInt64.size) : Json.Lossless (.nat n) := by
  have hsize : UInt64.size = 0x10000000000000000 := rfl
  exact .int (by constructor <;> omega)

theorem Result.lossless (h : Result args now result) (hargs : args.Lossless)
    (hnow : Number.InRange now) (hcounts : Counted result) : result.Lossless := by
  cases h with
  | failed =>
    refine .obj ?_
    simp only [List.forall_mem_cons, List.not_mem_nil, false_imp_iff, implies_true, and_true]
    exact ⟨.str, .str, .bool⟩
  | @completed fields h =>
    have hcount (name : String) {n : Nat} (hname : name ∈ ["bytes_written", "count"])
        (hfield : Keyed.get? fields name = some (.nat n)) : Json.Lossless (.nat n) := by
      have hne : name ≠ "ok" := (by decide : ∀ k ∈ ["bytes_written", "count"], k ≠ "ok") name hname
      refine lossless_nat (hcounts name hname n ?_)
      exact (Keyed.get?_insert fields "ok" _ name).trans ((if_neg hne).trans hfield)
    have hfields : ∀ f ∈ fields, f.2.Lossless := by
      cases h with
      | written =>
        simp only [List.forall_mem_cons, List.not_mem_nil, false_imp_iff, implies_true, and_true]
        exact ⟨hcount "bytes_written" (by decide) rfl, .str, .str⟩
      | listed count names =>
        simp only [List.forall_mem_cons, List.not_mem_nil, false_imp_iff, implies_true, and_true]
        refine ⟨hcount "count" (by decide) rfl, .arr fun j hj => ?_, .str⟩
        obtain ⟨name, -, rfl⟩ := List.mem_map.mp hj
        exact .str
      | pong hread =>
        simp only [List.forall_mem_cons, List.not_mem_nil, false_imp_iff, implies_true, and_true]
        exact ⟨echo_of_readArgs Json.Lossless.inherits hargs hread, .int hnow, .bool⟩
    refine .obj fun f hf => ?_
    rcases Keyed.eq_or_mem_of_mem_insert hf with rfl | hf
    · exact .bool
    · exact hfields f hf

end Job

/-! ### Calls -/

/-- The job of a call came in a request that was read and whose numbers are integers. -/
structure RunCall.Received (c : RunCall) (request : Json) : Prop where
  shaped : request.Shaped Json.maxDepth
  whole : request.Whole
  spec : JobSpec.ofRequest request = .ok c.spec
  clock : Number.InRange c.nowMillis

/-- **What a call records is read back** if its job was received. -/
theorem RunCall.Received.ofBytes_compact {c : RunCall} {request result : Json}
    (h : c.Received request) (hresult : Job.Result c.spec.args c.nowMillis result)
    (hcounts : Job.Counted result) : Json.ofBytes (.ofText result.compact) = .ok result := by
  have hargs : c.spec.args.InOrder 126 := JobSpec.inOrder_of_ofRequest h.shaped.inOrder h.spec
  have hlossless : c.spec.args.Lossless :=
    JobSpec.args_of_ofRequest Json.Lossless.inherits (h.shaped.lossless h.whole) h.spec
  have horder : result.InOrder Json.maxDepth := (hresult.inOrder hargs).mono (by decide)
  exact (hresult.lossless hlossless h.clock hcounts).ofBytes_compact horder

namespace Traffic

variable {ι : Type} [DecidableEq ι] {T : Traffic ι} {w₀ : Workspace} {s : State ι} {id : String}

/-- What a call has carried out is its job. -/
theorem Reachable.result_of_mem (h : T.Reachable w₀ s) {i : ι} {result : Json}
    (hmem : (i, result) ∈ s.history.executions id) :
    Job.Result (T.call i).spec.args (T.call i).nowMillis result := by
  induction h with
  | start => cases hmem
  | @step s j stage w _ hstep ih =>
    obtain ⟨e, he, hresult⟩ := List.mem_filterMap.mp hmem
    rcases List.mem_cons.mp he with rfl | he
    · cases stage with
      | executed claim result' =>
        simp only [RunCall.Stage.execution?, Option.map_eq_some_iff, Prod.mk.injEq] at hresult
        obtain ⟨r, hr, rfl, rfl⟩ := hresult
        split_ifs at hr
        obtain rfl := Option.some.inj hr
        exact RunCall.result_of_step hstep
      | begun | authorized | lost | won | done => cases hresult
    · exact ih (List.mem_filterMap.mpr ⟨e, he, hresult⟩)

/-- **However calls are interleaved, each attempt is carried out once**, and every later call for it
is told the result, if the jobs of the calls were received. -/
theorem Reachable.once_of_received (h : T.Reachable w₀ s) (hfree : w₀.row id = none)
    (hreceived : ∀ i, ∃ request, (T.call i).Received request)
    (hcounts : ∀ e ∈ s.history.executions id, Job.Counted e.2) : T.Once s id := by
  refine h.once hfree fun e he => ?_
  obtain ⟨request, hrequest⟩ := hreceived e.1
  exact hrequest.ofBytes_compact (h.result_of_mem he) (hcounts e he)

end Traffic

end MeshNode
