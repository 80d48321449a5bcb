import MeshNode.Proofs.Job.Recorded
import MeshNode.Proofs.Ledger.Calls
import MeshNode.Proofs.Node.Refusal
import MeshNode.Proofs.Token

/-!
# Results are answered again

A node that carries out a job records the result and answers with it. What it recorded is read back,
since the arguments that a result repeats came in a request that was read too, however that was sent
(`RunCall.Received.ofBytes_compact`). So no job that a node accepts spoils the ledger: whatever
happens to the node then, each request for the same attempt that is admitted is answered with the
same result, until the row of the attempt is dropped (`answered_again`).
-/

namespace MeshNode

/-- What happens to a node: it serves a request, or drops the old rows of its ledger. -/
inductive Happening where
  | request (r : Http.Request) (o : Occasion)
  | eviction (ttlSecs : Nat) (now : Int)

/-- Rows that were claimed at a given time are not dropped. -/
def Happening.Spares (created : Int) : Happening → Prop
  | request _ _ => True
  | eviction ttlSecs now => (LedgerCall.evict ttlSecs now).Spares created

namespace Node

variable {n : Node} {r : Http.Request} {o : Occasion} {body request : Json} {spec : JobSpec}
  {id : String} {held : LedgerRow}

/-- The node after something has happened. -/
def meet (n : Node) : Happening → Node
  | .request r o => (n.serve r o).2
  | .eviction ttlSecs now =>
    { n with workspace := (n.workspace.call (.evict ttlSecs now)).2 }

/-- The node after some things have happened, one after another. -/
def later (n : Node) (happenings : List Happening) : Node := happenings.foldl meet n

/-! ### What stays -/

/-- Two states of a node, with the same runner and limit. A row of the ledger has stayed. -/
structure Keeps (n : Node) (id : String) (held : LedgerRow) (n' : Node) : Prop where
  runner : n'.runner = n.runner
  maxBody : n'.maxBody = n.maxBody
  row : n.workspace.row id = some held → n'.workspace.row id = some held

theorem Keeps.refl (n : Node) : n.Keeps id held n := ⟨rfl, rfl, fun h => h⟩

/-- No request drops a row. -/
theorem lasting_keeps (n : Node) (id : String) (held : LedgerRow) : Lasting (n.Keeps id held) where
  sessions _ h := ⟨h.runner, h.maxBody, h.row⟩
  workspace _ h := ⟨h.runner, h.maxBody, fun hrow => JobRunner.row_run (h.row hrow)⟩

theorem Keeps.meet {n' : Node} (h : n.Keeps id held n') {x : Happening}
    (hspares : x.Spares held.created) : n.Keeps id held (n'.meet x) := by
  cases x with
  | request r o => exact (lasting_keeps n id held).serve h r o
  | eviction ttlSecs now =>
    exact ⟨h.runner, h.maxBody, fun hrow => Workspace.row_call (h.row hrow) hspares⟩

/-- **A row stays** while nothing happens that drops it. -/
theorem Keeps.later {n' : Node} (h : n.Keeps id held n') {happenings : List Happening}
    (hspares : ∀ x ∈ happenings, x.Spares held.created) :
    n.Keeps id held (n'.later happenings) :=
  List.foldlRecOn happenings _ h fun _ h x hx => h.meet (hspares x hx)

/-! ### Answers -/

/-- The request is answered with what a job has answered, in the form in which it came. -/
def Answers (n : Node) (r : Http.Request) (body : Json) (o : Occasion) (a : RunResponse) : Prop :=
  ∃ shown, n.Shows body o a shown ∧ (n.serve r o).1 = .ofJson 200 shown

/-- A request is answered with what its call answers, and leaves what that leaves. -/
theorem answers_of_run {a : RunResponse} {w : Workspace} (hasks : n.Asks r body)
    (hrequest : n.requestOf body = .ok request) (hspec : JobSpec.ofRequest request = .ok spec)
    (hrun : n.runner.run (o.call spec) n.workspace = (.ok a, w)) :
    n.Answers r body o a ∧ (n.serve r o).2.workspace = w := by
  obtain ⟨n', shown, hn', hshown, hbody⟩ := run_of_requestOf_ok (o := o) hrequest
  have hjob : n'.runJob request o = (.ok a, { n' with workspace := w }) := by
    rw [runJob_of_ofRequest hspec, hn'.runner_eq, hn'.workspace, hrun]
    rfl
  have hserve : n.serve r o = (.ofJson 200 (shown a), { n' with workspace := w }) := by
    rw [hasks.serve, hbody, hjob]
    rfl
  rw [hserve]
  exact ⟨⟨shown a, hshown a, by rw [hserve]⟩, rfl⟩

/-- A request that was read is in the shape in which values are read, even if it came sealed. -/
theorem shaped_requestOf (hasks : n.Asks r body) (h : n.requestOf body = .ok request) :
    request.Shaped Json.maxDepth := by
  unfold requestOf at h
  split_ifs at h
  · split at h
    · cases h
    · obtain ⟨s, -, hopen⟩ := openedRequest_eq_ok h
      have hyields : Json.Decoder.value.Yields Json.maxDepth (Json.Shaped Json.maxDepth) :=
        Json.shaped_readValue Json.maxDepth
      unfold Channel.openAs at hopen
      split at hopen
      · cases hopen
      · split at hopen
        · rename_i hread
          exact Except.ok.inj hopen ▸ hyields.of_ofBytes hread
        · cases hopen
  · obtain ⟨rest, hread⟩ := Http.Request.exists_read_of_readBody hasks.body
    exact Except.ok.inj h ▸ Json.shaped_readValue Json.maxDepth r.body body rest hread

/-- Carrying out the job of a request has the result, for some state of the files. -/
def Executes (n : Node) (request : Json) (o : Occasion) (result : Json) : Prop :=
  ∃ spec files, JobSpec.ofRequest request = .ok spec ∧
    (Job.execute n.runner.jail spec.kind spec.args
      (spec.timeout n.runner.config.defaultTimeout n.runner.config.maxTimeout)
      o.wallMillis files).1.result = result

/-- What carrying out the job of a request has for a result is read back from its text. -/
theorem Executes.ofBytes_compact {result : Json} (h : n.Executes request o result)
    (hasks : n.Asks r body) (hrequest : n.requestOf body = .ok request) (hwhole : request.Whole)
    (hclock : Number.InRange o.wallMillis) (hcounts : Job.Counted result) :
    Json.ofBytes (.ofText result.compact) = .ok result := by
  obtain ⟨spec, files, hspec, rfl⟩ := h
  have hreceived : (o.call spec).Received request :=
    ⟨shaped_requestOf hasks hrequest, hwhole, hspec, hclock⟩
  exact hreceived.ofBytes_compact (Job.result_execute ..) hcounts

/-- Each request for the attempt that is admitted is answered with the result, marked as cached. -/
def Repeats (n : Node) (id : String) (result : Json) : Prop :=
  ∀ r body o claim, n.Asks r body → n.admission body o = .ok claim → claim.attemptId = id →
    n.Answers r body o ⟨o.requestId, id, claim.jobId, true, result⟩

/-- A node repeats a result that it has recorded and that is read back. -/
theorem repeats_of_completed {result : Json}
    (hrow : n.workspace.row id = some (Ledger.completedRow held result))
    (hdecode : Json.ofBytes (.ofText result.compact) = .ok result) : n.Repeats id result := by
  rintro r body o claim hasks hadmission rfl
  obtain ⟨request, hrequest, hclaim⟩ := exists_requestOf_of_admission hadmission
  obtain ⟨spec, hspec, hauth⟩ := exists_spec_of_claimOf hclaim
  have hlooked : (o.call spec).lookedUp claim (some (Ledger.completedRow held result)) =
      (o.call spec).respond claim true result := RunCall.lookedUp_completedRow _ _ hdecode
  obtain ⟨w, hrun, -⟩ := JobRunner.run_of_taken hauth hrow hlooked
  exact (answers_of_run hasks hrequest hspec hrun).1

/-- **Results are answered again.** When a request for a job is admitted and its attempt has no row,
the job is carried out and the request is answered with the result. If the numbers in the request
are integers, the ledger finds this result afterwards, and whatever happens that does not drop the
row, each further request for the attempt that is admitted is answered with it. -/
theorem answered_again {claim : Claim} (hasks : n.Asks r body)
    (hrequest : n.requestOf body = .ok request) (hwhole : request.Whole)
    (hclaim : n.claimOf request o = .ok claim)
    (hfree : n.workspace.row claim.attemptId = none) (hclock : Number.InRange o.wallMillis) :
    ∃ result, n.Executes request o result ∧
      n.Answers r body o ⟨o.requestId, claim.attemptId, claim.jobId, false, result⟩ ∧
      (Job.Counted result →
        (n.serve r o).2.workspace.ledger.get claim.attemptId =
          .ok (some ⟨claim.attemptId, .completed, some result, o.wallSecs⟩) ∧
        ∀ happenings, (∀ x ∈ happenings, x.Spares o.wallSecs) →
          ((n.serve r o).2.later happenings).Repeats claim.attemptId result) := by
  obtain ⟨spec, hspec, hauth⟩ := exists_spec_of_claimOf hclaim
  obtain ⟨files, result, w, hresult, hrun, hrow⟩ := JobRunner.run_of_free hauth hfree
  obtain ⟨hanswers, hworkspace⟩ := answers_of_run hasks hrequest hspec hrun
  have hexecutes : n.Executes request o result := ⟨spec, files, hspec, hresult.symm⟩
  refine ⟨result, hexecutes, hanswers, fun hcounts => ?_⟩
  have hdecode := hexecutes.ofBytes_compact hasks hrequest hwhole hclock hcounts
  have hcompleted : (n.serve r o).2.workspace.row claim.attemptId =
      some (Ledger.completedRow (Ledger.claimedRow o.wallSecs) result) := by
    rw [hworkspace, hrow, Function.update_self]
    rfl
  constructor
  · rw [Workspace.get_eq, hcompleted]
    simp only [Ledger.readRow_completedRow hdecode]
    rfl
  · intro happenings hspares
    exact repeats_of_completed (((Keeps.refl _).later hspares).row hcompleted) hdecode

/-! ### Probes -/

/-- A node that knows of no attempts. -/
def keeper : Node where
  keys := ⟨"node", [], []⟩
  info := ⟨"", [], ""⟩
  runner := ⟨[107], ⟨[]⟩, .default⟩
  workspace := ⟨.inMemory, .empty⟩
  sessions := .empty .default
  maxBody := 4096
  started := 0

def instant : Occasion := ⟨0, 0, "r", List.replicate 24 7⟩

/-- The token for attempt `a` of job `j`. -/
def probeToken : String := "b5521539e5b3f353fd52c21b72232ed5a194b7f171f46e5c43877a77e5917d0f"

private theorem probeToken_eq : probeToken = Token.issue [107] "j" "a" 60 := by decide +kernel

/-- A request for a probe that sends a value. -/
def probing (sent : Json) : Json :=
  .obj [("args", .arr [sent]), ("attempt_id", .str "a"), ("claim_token", .str probeToken),
    ("deadline_ts", .int 60), ("job_id", .str "j"), ("kind", .str "probe")]

/-- The job of the request. -/
def probe (sent : Json) : JobSpec :=
  ⟨some "j", some "a", none, "probe", .arr [sent], none, some probeToken, some 60⟩

/-- What the probe has for a result. -/
def probed (sent : Json) : Json :=
  .obj [("echo", sent), ("node_ts", .int 0), ("ok", .bool true), ("pong", .bool true)]

/-- A request that brings a body. -/
def posted (body : Json) : Http.Request :=
  ⟨"POST", "/run", some "application/json", none, body.render⟩

theorem asks_posted {body : Json} (hlimit : n.maxBody = 4096)
    (hread : Json.ofBytes body.render = .ok request) (hlength : body.render.length ≤ 4096) :
    n.Asks (posted body) request :=
  asks_of_ofBytes rfl rfl rfl rfl hread (hlimit ▸ hlength)

section Probes

variable (sent : Json)

theorem ofRequest_probing : JobSpec.ofRequest (probing sent) = .ok (probe sent) := rfl

/-- A probe counts nothing. -/
theorem counted_probed : Job.Counted (probed sent) := by
  have hfields : ∀ name ∈ ["bytes_written", "count"], (probed sent).get? name = none := by
    simp [probed, Json.get?, List.lookup_cons]
  intro name hname n hfield
  rw [hfields name hname] at hfield
  cases hfield

theorem authorization_probe :
    (instant.call (probe sent)).authorization keeper.runner = .ok ⟨"j", "a", 60⟩ := by
  simp [RunCall.authorization, Occasion.call, probe, JobSpec.claimContext,
    JobSpec.effectiveAttemptId, probeToken_eq, Token.authorize_full, keeper, instant,
    Occasion.wallSecs]

variable (hrunner : n.runner = keeper.runner)
include hrunner

theorem claimOf_probing : n.claimOf (probing sent) instant = .ok ⟨"j", "a", 60⟩ := by
  rw [claimOf, ofRequest_probing, hrunner]
  simp only [authorization_probe]
  rfl

variable {sent} in
/-- The result of a probe does not depend on the files. -/
theorem eq_probed_of_executes {result : Json} (h : n.Executes (probing sent) instant result) :
    result = probed sent := by
  obtain ⟨spec, files, hspec, hresult⟩ := h
  obtain rfl : probe sent = spec := Except.ok.inj hspec
  rw [hrunner] at hresult
  -- A null that is sent stands for nothing sent, and nothing is answered with a null.
  cases sent <;> exact hresult.symm

/-- A probe is answered with its result, which is recorded. -/
theorem exists_runJob_probing (hfree : n.workspace.row "a" = none) :
    ∃ w, n.runJob (probing sent) instant =
        (.ok ⟨"r", "a", "j", false, probed sent⟩, { n with workspace := w }) ∧
      w.row "a" = some (Ledger.completedRow (Ledger.claimedRow 0) (probed sent)) := by
  have hauth : (instant.call (probe sent)).authorization n.runner = .ok ⟨"j", "a", 60⟩ :=
    hrunner ▸ authorization_probe sent
  obtain ⟨files, result, w, hresult, hrun, hrow⟩ := JobRunner.run_of_free hauth hfree
  obtain rfl : result = probed sent :=
    eq_probed_of_executes hrunner ⟨_, files, ofRequest_probing sent, hresult.symm⟩
  refine ⟨w, ?_, ?_⟩
  · rw [runJob_of_ofRequest (ofRequest_probing sent), hrun]
    rfl
  · rw [hrow, Function.update_self]
    rfl

end Probes

/-! ### As deep as can be -/

/-- Lists in lists. -/
private def nest : Nat → Json
  | 0 => .null
  | levels + 1 => .arr [nest levels]

private theorem readable_nest (levels : Nat) : (nest levels).Readable levels := by
  induction levels with
  | zero => exact .null
  | succ levels ih => exact .arr fun j hj => List.mem_singleton.mp hj ▸ ih

private theorem whole_nest (levels : Nat) : (nest levels).Whole := by
  induction levels with
  | zero => exact .null
  | succ levels ih => exact .arr fun j hj => List.mem_singleton.mp hj ▸ ih

/-- A request for a probe that sends as many levels as can be read. -/
private def deep : Json := probing (nest 125)

private theorem asks_deep (h : n.maxBody = 4096) : n.Asks (posted deep) deep := by
  have hargs : (Json.arr [nest 125]).Readable 126 :=
    .arr fun j hj => List.mem_singleton.mp hj ▸ readable_nest 125
  have hreadable : deep.Readable Json.maxDepth := by
    refine .obj (by decide) ?_
    simp only [List.forall_mem_cons, List.not_mem_nil, false_imp_iff, implies_true, and_true]
    exact ⟨hargs, .str, .str, .int (by decide), .str, .str⟩
  exact asks_posted h (Json.ofBytes_render hreadable) (by decide +kernel)

private theorem whole_deep : deep.Whole := by
  refine .obj ?_
  simp only [List.forall_mem_cons, List.not_mem_nil, false_imp_iff, implies_true, and_true]
  exact ⟨whole_nest 126, .str, .str, .int, .str, .str⟩

/-- What a probe was sent in as many levels as can be read is answered again after old rows were
dropped. -/
theorem answered_again_of_deep :
    keeper.Answers (posted deep) deep instant ⟨"r", "a", "j", false, probed (nest 125)⟩ ∧
      ((keeper.serve (posted deep) instant).2.later [.eviction 10 5]).Answers (posted deep) deep
        instant ⟨"r", "a", "j", true, probed (nest 125)⟩ := by
  have hspares : ∀ x ∈ [Happening.eviction 10 5], x.Spares instant.wallSecs := by
    intro x hx
    rw [List.mem_singleton.mp hx]
    exact (by decide : Ledger.cutoff 10 5 ≤ 0)
  have hlater : keeper.Keeps "a" (Ledger.claimedRow 0)
      ((keeper.serve (posted deep) instant).2.later [.eviction 10 5]) :=
    ((lasting_keeps keeper _ _).serve (.refl keeper) (posted deep) instant).later hspares
  have hclaim : keeper.claimOf deep instant = .ok ⟨"j", "a", 60⟩ := claimOf_probing (nest 125) rfl
  obtain ⟨result, hexecutes, hanswers, hlast⟩ :=
    answered_again (asks_deep rfl) rfl whole_deep hclaim rfl (by decide : Number.InRange 0)
  obtain rfl := eq_probed_of_executes rfl hexecutes
  exact ⟨hanswers, (hlast (counted_probed _)).2 _ hspares (posted deep) deep instant _
    (asks_deep hlater.maxBody) (claimOf_probing (nest 125) hlater.runner) rfl⟩

/-! ### Beyond machine words -/

/-- An integer that is read as a double. -/
def wide : Json := .int 93750239111682309890

/-- The double that the integer is read as. -/
def widened : Json := .num (.float 4905638455071756039)

/-- The double that the text of that double is read as. -/
def widenedAgain : Json := .num (.float 4905638455071756040)

set_option maxRecDepth 8192 in
theorem ofBytes_probing_wide : Json.ofBytes (probing wide).render = .ok (probing widened) := by
  with_unfolding_all rfl

private theorem ofBytes_probed_widened :
    Json.ofBytes (probed widened).render = .ok (probed widenedAgain) := by
  with_unfolding_all rfl

/-- The body of a request whose numbers are integers, however large. -/
structure Integers (r : Http.Request) (written : Json) : Prop where
  integral : written.Integral
  body : r.body = written.render

theorem integers_posted_wide : Integers (posted (probing wide)) (probing wide) := by
  refine ⟨.obj ?_, rfl⟩
  simp only [List.forall_mem_cons, List.not_mem_nil, false_imp_iff, implies_true, and_true]
  exact ⟨.arr (by simp [wide, Json.Integral.int]), .str, .str, .int, .str, .str⟩

theorem asks_wide (h : n.maxBody = 4096) :
    n.Asks (posted (probing wide)) (probing widened) :=
  asks_posted h ofBytes_probing_wide (by decide +kernel)

/-- **An integer that has no machine word is not answered again**: the ledger finds a result with
another number in it. -/
theorem not_forall_answered_again :
    ¬ ∀ (n : Node) (r : Http.Request) (written request : Json) (o : Occasion) (claim : Claim),
      Integers r written → n.Asks r request → isSealed request = false →
        n.claimOf request o = .ok claim → n.workspace.row claim.attemptId = none →
        Number.InRange o.wallMillis →
          ∃ result, n.Executes request o result ∧
            (n.serve r o).2.workspace.ledger.get claim.attemptId =
              .ok (some ⟨claim.attemptId, .completed, some result, o.wallSecs⟩) := by
  intro hall
  have hasks : keeper.Asks (posted (probing wide)) (probing widened) := asks_wide rfl
  obtain ⟨result, hexecutes, hget⟩ := hall keeper (posted (probing wide)) (probing wide)
    (probing widened) instant ⟨"j", "a", 60⟩ integers_posted_wide hasks rfl
    (claimOf_probing widened rfl) rfl (by decide)
  obtain rfl := eq_probed_of_executes rfl hexecutes
  obtain ⟨w, hrun, hrow⟩ := exists_runJob_probing (n := keeper) widened rfl rfl
  have hserve : (keeper.serve (posted (probing wide)) instant).2.workspace = w := by
    rw [hasks.serve, run_plain rfl, hrun]
    rfl
  have hread : Json.ofBytes (.ofText (probed widened).compact) = .ok (probed widenedAgain) := by
    rw [Json.ofText_compact, ofBytes_probed_widened]
  rw [hserve, Workspace.get_eq, hrow] at hget
  simp only [Ledger.readRow_completedRow_eq, hread] at hget
  -- The number that was recorded is not the number that is found.
  simp [Except.map, Except.mapError, probed, widened, widenedAgain] at hget

end Node

end MeshNode
