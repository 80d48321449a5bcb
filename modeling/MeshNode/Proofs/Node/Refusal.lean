import MeshNode.Proofs.Body
import MeshNode.Proofs.Job.Alone
import MeshNode.Proofs.Node.Requests

/-!
# Refused requests change nothing

Whatever a node has against a request it finds before it changes anything: the body is too long or
no JSON, it is sealed and does not open, it is no job, or its job is not authorized (`admission`).
All of these are answered with a status from 400 to 499. What can go wrong once a job is admitted is
an error of the ledger, which is answered with 500. So a node that answers a request with such a
status is undisturbed (`undisturbed_of_refusal`): a session may have been used, and that is all.
-/

namespace MeshNode

/-! ### Runs -/

namespace RunCall

/-- The call has been authorized, and if it has failed since, the ledger has failed it. -/
def Stage.Admitted : Stage → Prop
  | .begun => False
  | .done (.error e) => ∃ e', e = .store e'
  | _ => True

theorem Turn.admitted {r : JobRunner} {c : RunCall} {row row' : String → Option LedgerRow}
    {stage stage' : Stage} (h : Turn r c row row' stage stage') (hstage : stage.Admitted) :
    stage'.Admitted := by
  cases h with
  | refuse => exact hstage.elim
  | authorize | win | lose | execute | complete => trivial
  | lookUp =>
    unfold lookedUp
    split
    · trivial
    · split
      · trivial
      · exact ⟨_, rfl⟩

end RunCall

namespace JobRunner

variable {r : JobRunner} {c : RunCall} {w : Workspace}

/-- Only the ledger can fail an authorized call. -/
theorem error_of_run {claim : Claim} {e : MeshError} (hauth : c.authorization r = .ok claim)
    (h : (r.run c w).1 = .error e) : ∃ e', e = .store e' := by
  have hadvance : c.advance r RunCall.maxSteps .begun w =
      c.advance r 3 (.authorized claim) w :=
    RunCall.advance_of_step (RunCall.step_begun_of_authorization hauth w) 3
  have hadmitted : (c.advance r 3 (.authorized claim) w).1.Admitted :=
    RunCall.advance_induction
      (fun _ _ _ _ hstage hstep => (RunCall.turn_of_step hstep).admitted hstage) 3 trivial
  rcases advance_eq_done_or h with hdone | hunfinished
  · rw [← hadvance, hdone] at hadmitted
    exact hadmitted
  · exact ⟨_, Except.error.inj hunfinished⟩

end JobRunner

/-! ### Admission -/

/-- Only what goes wrong within the program is not blamed on the request. -/
theorem ApiError.refuses_status {e : ApiError} (h : ∀ text, e ≠ .internal text) :
    Http.Refuses e.status := by
  cases e with
  | internal text => exact absurd rfl (h text)
  | auth error => cases error <;> simp [Http.Refuses, status]
  | badRequest | sealedAuth | notFound => simp [Http.Refuses, status]

namespace Node

variable {n : Node} {o : Occasion}

/-- The job of a request is authorized, or there is no such job. -/
def claimOf (n : Node) (request : Json) (o : Occasion) : Except ApiError Claim :=
  match JobSpec.ofRequest request with
  | .error e => .error (.ofError (.request e))
  | .ok spec => ((o.call spec).authorization n.runner).mapError fun e => .ofError (.auth e)

/-- The job in a body is authorized, or the body is refused. -/
def admission (n : Node) (body : Json) (o : Occasion) : Except ApiError Claim :=
  match n.requestOf body with
  | .error e => .error e
  | .ok request => n.claimOf request o

/-- A refused job changes nothing. -/
theorem runJob_of_refused {request : Json} {e : ApiError} (h : n.claimOf request o = .error e) :
    n.runJob request o = (.error e, n) := by
  unfold claimOf at h
  split at h
  · rename_i hspec
    rw [runJob_of_malformed hspec, Except.error.inj h]
  · rename_i spec hspec
    rw [runJob_of_ofRequest hspec]
    cases hauth : (o.call spec).authorization n.runner with
    | error e' =>
      rw [hauth] at h
      rw [JobRunner.run_of_unauthorized hauth, ← Except.error.inj h]
      rfl
    | ok claim =>
      rw [hauth] at h
      cases h

/-- What is admitted is authorized. -/
theorem exists_spec_of_claimOf {request : Json} {claim : Claim}
    (h : n.claimOf request o = .ok claim) :
    ∃ spec, JobSpec.ofRequest request = .ok spec ∧
      (o.call spec).authorization n.runner = .ok claim := by
  unfold claimOf at h
  split at h
  · cases h
  · rename_i spec hspec
    cases hauth : (o.call spec).authorization n.runner with
    | error e =>
      rw [hauth] at h
      cases h
    | ok claim' =>
      rw [hauth] at h
      exact ⟨spec, hspec, hauth.trans (congrArg _ (Except.ok.inj h))⟩

theorem exists_requestOf_of_admission {body : Json} {claim : Claim}
    (h : n.admission body o = .ok claim) :
    ∃ request, n.requestOf body = .ok request ∧ n.claimOf request o = .ok claim := by
  unfold admission at h
  split at h
  · cases h
  · rename_i request hrequest
    exact ⟨request, hrequest, h⟩

/-- An admitted job can only fail within. -/
theorem status_of_runJob {request : Json} {claim : Claim} {e : ApiError}
    (h : n.claimOf request o = .ok claim) (herror : (n.runJob request o).1 = .error e) :
    e.status = 500 := by
  obtain ⟨spec, hspec, hauth⟩ := exists_spec_of_claimOf h
  rw [runJob_of_ofRequest hspec] at herror
  cases hanswer : (n.runner.run (o.call spec) n.workspace).1 with
  | error e' =>
    obtain ⟨e', rfl⟩ := JobRunner.error_of_run hauth hanswer
    rw [hanswer] at herror
    rw [← Except.error.inj herror]
    rfl
  | ok answer =>
    rw [hanswer] at herror
    cases herror

/-! ### What is blamed on a request -/

/-- Opening an envelope fails because of what it holds. -/
theorem ofSession_of_open? {key : SessionKey} {e : Envelope} {limit : Nat} {error : SessionError}
    (h : e.open? key limit = .error error) (text : String) :
    ApiError.ofSession error ≠ .internal text := by
  unfold Envelope.open? at h
  -- Every check has an error of its own, and none is an error of the keys.
  repeat' split at h
  all_goals cases h
  all_goals exact ApiError.noConfusion

theorem ofSession_of_openAs {α : Type} {c : Channel} {d : Json.Decoder α} {e : Envelope}
    {error : SessionError} (h : c.openAs d e = .error error) (text : String) :
    ApiError.ofSession error ≠ .internal text := by
  unfold Channel.openAs at h
  split at h
  · rename_i hopen
    rw [Except.error.inj h] at hopen
    exact ofSession_of_open? hopen text
  · split at h
    · cases h
    · rw [← Except.error.inj h]
      exact ApiError.noConfusion

theorem openedRequest_ne_internal {r : SealedRun} {e : ApiError} (h : n.openedRequest r = .error e)
    (text : String) : e ≠ .internal text := by
  unfold openedRequest at h
  split at h
  · rw [← Except.error.inj h]
    exact ApiError.noConfusion
  · rename_i s _
    cases hopen : s.channel.openAs .value r.envelope with
    | error error =>
      rw [hopen] at h
      rw [← Except.error.inj h]
      exact ofSession_of_openAs hopen text
    | ok request =>
      rw [hopen] at h
      cases h

theorem requestOf_ne_internal {body : Json} {e : ApiError} (h : n.requestOf body = .error e)
    (text : String) : e ≠ .internal text := by
  unfold requestOf at h
  split_ifs at h
  split at h
  · rw [← Except.error.inj h]
    exact ApiError.noConfusion
  · exact openedRequest_ne_internal h text

theorem claimOf_ne_internal {request : Json} {e : ApiError} (h : n.claimOf request o = .error e)
    (text : String) : e ≠ .internal text := by
  unfold claimOf at h
  split at h
  · rw [← Except.error.inj h]
    exact ApiError.noConfusion
  · rename_i spec _
    cases hauth : (o.call spec).authorization n.runner with
    | error error =>
      rw [hauth] at h
      rw [← Except.error.inj h]
      exact ApiError.noConfusion
    | ok claim =>
      rw [hauth] at h
      cases h

/-- A body that is not admitted is blamed on the request. -/
theorem refuses_of_admission {body : Json} {e : ApiError} (h : n.admission body o = .error e) :
    Http.Refuses e.status := by
  unfold admission at h
  split at h
  · rename_i hrequest
    rw [Except.error.inj h] at hrequest
    exact ApiError.refuses_status (requestOf_ne_internal hrequest)
  · exact ApiError.refuses_status (claimOf_ne_internal h)

/-! ### What is left of a refused request -/

/-- A node after a request of which nothing is left but that a session was used. -/
structure Undisturbed (n n' : Node) : Prop where
  workspace : n'.workspace = n.workspace
  channels : ∀ id, (n'.sessions.sessions.get? id).map (·.channel) =
    (n.sessions.sessions.get? id).map (·.channel)
  others : n' = { n with sessions := n'.sessions }

theorem Undisturbed.refl (n : Node) : Undisturbed n n := ⟨rfl, fun _ => rfl, rfl⟩

theorem Undisturbed.runner_eq {n' : Node} (h : Undisturbed n n') : n'.runner = n.runner := by
  rw [h.others]

/-- Looking a session up disturbs nothing. -/
theorem undisturbed_touched (n : Node) (id : String) (now : Nat) :
    Undisturbed n (n.touched id now) := by
  refine ⟨rfl, fun k => ?_, rfl⟩
  unfold touched SessionTable.get
  split
  · rfl
  · rename_i s hs
    rw [Keyed.get?_insert]
    split_ifs with hk
    · rw [hk, hs]
      rfl
    · rfl

/-- A body without a request is answered with the reason. -/
theorem run_of_requestOf_error {body : Json} {e : ApiError} (h : n.requestOf body = .error e) :
    (n.run body o).1 = .error e ∧ Undisturbed n (n.run body o).2 := by
  unfold requestOf at h
  unfold run
  split_ifs at h ⊢
  cases hr : SealedRun.decoder.convert body with
  | error text =>
    rw [hr] at h
    exact ⟨h, .refl n⟩
  | ok r =>
    rw [hr] at h
    simp only [runSealed_of_unopened h]
    exact ⟨rfl, undisturbed_touched _ _ _⟩

/-- A request runs on the node as it is or after a session was used, however it came, and is
answered in the form in which it came. -/
theorem run_of_requestOf_ok {body request : Json} (h : n.requestOf body = .ok request) :
    ∃ (n' : Node) (shown : RunResponse → Json), Undisturbed n n' ∧
      (∀ a, n.Shows body o a (shown a)) ∧
      n.run body o = ((n'.runJob request o).1.map shown, (n'.runJob request o).2) := by
  unfold requestOf at h
  unfold run
  split_ifs at h ⊢ with hsealed
  · cases hr : SealedRun.decoder.convert body with
    | error text =>
      rw [hr] at h
      cases h
    | ok r =>
      rw [hr] at h
      obtain ⟨s, hs, hopen⟩ := openedRequest_eq_ok h
      refine ⟨n.touched r.sessionId o.nanos,
        fun a => (answerIn s.channel r.sessionId o a).toJson.sorted, undisturbed_touched _ _ _,
        fun a => .wrapped hsealed hr hs, ?_⟩
      simp only [runSealed_of_opened hs hopen]
      rcases runJob _ _ _ with ⟨_ | _, _⟩ <;> rfl
  · obtain rfl := Except.ok.inj h
    exact ⟨n, fun a => a.toJson.sorted, .refl n,
      fun a => .plain (Bool.eq_false_iff.mpr hsealed), rfl⟩

/-- Which jobs are authorized does not depend on sessions. -/
theorem Undisturbed.claimOf_eq {n' : Node} (h : Undisturbed n n') (request : Json) :
    n'.claimOf request o = n.claimOf request o := by
  rw [h.others]
  rfl

/-- A body that is not admitted is answered with the reason, and disturbs nothing. -/
theorem run_of_refused {body : Json} {e : ApiError} (h : n.admission body o = .error e) :
    (n.run body o).1 = .error e ∧ Undisturbed n (n.run body o).2 := by
  unfold admission at h
  split at h
  · rename_i hrequest
    rw [Except.error.inj h] at hrequest
    exact run_of_requestOf_error hrequest
  · rename_i request hrequest
    obtain ⟨n', shown, hn', -, hrun⟩ := run_of_requestOf_ok (o := o) hrequest
    rw [← hn'.claimOf_eq] at h
    rw [hrun, runJob_of_refused h]
    exact ⟨rfl, hn'⟩

/-- Once a body is admitted, nothing is blamed on it any more. -/
theorem status_of_run {body : Json} {claim : Claim} {e : ApiError}
    (h : n.admission body o = .ok claim) (herror : (n.run body o).1 = .error e) :
    e.status = 500 := by
  obtain ⟨request, hrequest, hclaim⟩ := exists_requestOf_of_admission h
  obtain ⟨n', shown, hn', -, hrun⟩ := run_of_requestOf_ok (o := o) hrequest
  rw [← hn'.claimOf_eq] at hclaim
  rw [hrun] at herror
  cases hjob : (n'.runJob request o).1 with
  | error e' =>
    rw [hjob] at herror
    rw [← Except.error.inj herror]
    exact status_of_runJob hclaim hjob
  | ok answer =>
    rw [hjob] at herror
    cases herror

/-! ### Requests -/

/-- A request for a job is refused. -/
inductive Refused (n : Node) (r : Http.Request) (o : Occasion) : Prop where
  | tooLong (h : r.AnnouncesTooMuch n.maxBody)
  | unreadable {refusal : Http.Response} (h : r.readBody (some n.maxBody) .value = .error refusal)
  | denied {body : Json} {e : ApiError} (hread : r.readBody (some n.maxBody) .value = .ok body)
      (h : n.admission body o = .error e)

variable {r : Http.Request}

/-- A refused request for a job is blamed, and disturbs nothing. -/
theorem Refused.serve (h : n.Refused r o) (hpost : r.method = "POST")
    (htarget : Http.segments r.target = ["run"]) :
    Http.Refuses (n.serve r o).1.status ∧ Undisturbed n (n.serve r o).2 := by
  by_cases hlength : r.AnnouncesTooMuch n.maxBody
  · simp only [Node.serve, if_pos hlength]
    exact ⟨by decide, .refl n⟩
  · cases h with
    | tooLong hlong => exact absurd hlong hlength
    | @unreadable refusal hread =>
      simp only [Node.serve, if_neg hlength, htarget, Api.whenPosted, if_pos hpost, Api.onBody,
        hread]
      exact ⟨Http.Request.refuses_of_readBody hread, .refl n⟩
    | @denied body e hread hdenied =>
      obtain ⟨hanswer, hundisturbed⟩ := run_of_refused hdenied
      rw [Asks.serve ⟨hpost, htarget, hlength, hread⟩]
      rcases hrun : n.run body o with ⟨answer, n'⟩
      rw [hrun] at hanswer hundisturbed
      rw [show answer = .error e from hanswer]
      exact ⟨refuses_of_admission hdenied, hundisturbed⟩

/-- A request for a job that is blamed was refused. -/
theorem refused_of_refuses (hpost : r.method = "POST") (htarget : Http.segments r.target = ["run"])
    (h : Http.Refuses (n.serve r o).1.status) : n.Refused r o := by
  by_cases hlength : r.AnnouncesTooMuch n.maxBody
  · exact .tooLong hlength
  · cases hread : r.readBody (some n.maxBody) .value with
    | error refusal => exact .unreadable hread
    | ok body =>
      cases hadmission : n.admission body o with
      | error e => exact .denied hread hadmission
      | ok claim =>
        rw [Asks.serve ⟨hpost, htarget, hlength, hread⟩] at h
        rcases hrun : n.run body o with ⟨e | j, n'⟩
        · -- What fails later is answered with 500.
          have hstatus : e.status = 500 := status_of_run hadmission (by rw [hrun])
          rw [hrun, Api.reply] at h
          exact absurd h (by simp [Http.Refuses, Http.Response.ofJson, hstatus])
        · rw [hrun, Api.reply] at h
          exact absurd h (by simp [Http.Refuses, Http.Response.ofJson])

/-- What only reads leaves the node as it is. -/
theorem snd_whenRead (r : Http.Request) (n : Node) (j : Json) :
    (Api.whenRead r n (.ofJson 200 j, n)).2 = n :=
  Api.whenRead_keeps (P := (· = n)) rfl rfl

/-- An offer that is blamed opens no session. -/
theorem shakeHands_of_refuses {offer : Offer}
    (h : Http.Refuses (Api.reply ((n.shakeHands offer o).1.map Answer.toJson,
      (n.shakeHands offer o).2)).1.status) : (n.shakeHands offer o).2 = n := by
  unfold shakeHands at h ⊢
  split
  · rfl
  · rename_i hrespond
    simp only [hrespond, Except.map, Api.reply] at h
    exact absurd h (by simp [Http.Refuses, Http.Response.ofJson])

/-- A request for anything but a job changes nothing if it is blamed. -/
theorem serve_eq_of_refuses (htarget : Http.segments r.target ≠ ["run"])
    (h : Http.Refuses (n.serve r o).1.status) : (n.serve r o).2 = n := by
  unfold serve at h ⊢
  split_ifs at h ⊢
  · rfl
  · split
    · exact snd_whenRead _ _ _
    · exact snd_whenRead _ _ _
    · exact snd_whenRead _ _ _
    · rename_i hhands
      simp only [hhands, Api.whenPosted, Api.onBody] at h ⊢
      split_ifs at h ⊢
      · split
        · rfl
        · rename_i offer hread
          simp only [hread] at h
          have hshaken := shakeHands_of_refuses h
          rcases hanswer : n.shakeHands offer o with ⟨_ | _, n'⟩
          · rw [hanswer] at hshaken
            exact hshaken
          · rw [hanswer] at hshaken
            exact hshaken
      · rfl
    · exact absurd ‹_› htarget
    · rfl

/-- **Refused requests change nothing**: a node that answers a request with a status that blames it
is undisturbed, and as it was if no job was asked for. If one was, the request was refused before
its job was admitted. -/
theorem undisturbed_of_refusal (n : Node) (r : Http.Request) (o : Occasion)
    (h : Http.Refuses (n.serve r o).1.status) :
    Undisturbed n (n.serve r o).2 ∧
      (Http.segments r.target ≠ ["run"] → (n.serve r o).2 = n) ∧
      (r.method = "POST" → Http.segments r.target = ["run"] → n.Refused r o) := by
  refine ⟨?_, fun htarget => serve_eq_of_refuses htarget h,
    fun hpost htarget => refused_of_refuses hpost htarget h⟩
  by_cases htarget : Http.segments r.target = ["run"]
  · by_cases hpost : r.method = "POST"
    · exact ((refused_of_refuses hpost htarget h).serve hpost htarget).2
    · simp only [serve, htarget, Api.whenPosted, if_neg hpost]
      split_ifs <;> exact .refl n
  · rw [serve_eq_of_refuses htarget h]
    exact .refl n

/-- A node with a session and an attempt. -/
private def busy : Node where
  keys := ⟨"node", [], []⟩
  info := ⟨"", [], ""⟩
  runner := ⟨[107], ⟨[]⟩, .default⟩
  workspace := ⟨⟨⟨[("a", Ledger.claimedRow 0)]⟩, none⟩, .empty⟩
  sessions := ⟨.default, [("s", ⟨⟨⟨[]⟩, "s", .responder, 0⟩, 0⟩)]⟩
  maxBody := 4096
  started := 0

/-- A request for a job of which the deadline has passed. -/
private def late : Json :=
  .obj [("attempt_id", .str "b"), ("claim_token", .str "00"), ("deadline_ts", .int 60),
    ("job_id", .str "j"), ("kind", .str "probe")]

private def lateRequest : Http.Request :=
  ⟨"POST", "/run", some "application/json", none, late.render⟩

private def afterwards : Occasion := ⟨61000, 0, "r", []⟩

private theorem readBody_lateRequest :
    lateRequest.readBody (some busy.maxBody) .value = .ok late := by
  have hlate : late.Readable Json.maxDepth := by
    refine .obj (by decide) ?_
    simp only [List.forall_mem_cons, List.not_mem_nil, false_imp_iff, implies_true, and_true]
    exact ⟨.str, .str, .int (by decide), .str, .str⟩
  exact Http.Request.readBody_render (by decide : Http.isJsonType "application/json" = true) rfl
    (by decide +kernel) (Json.Decoder.reads_value hlate)

/-- A request after its deadline leaves the attempt and the session that the node had. -/
theorem undisturbed_of_late_request :
    Http.Refuses (busy.serve lateRequest afterwards).1.status ∧
      Undisturbed busy (busy.serve lateRequest afterwards).2 ∧
      busy.Refused lateRequest afterwards := by
  have hadmission : busy.admission late afterwards = .error (.auth (.expired 60 61)) := rfl
  have htarget : Http.segments lateRequest.target = ["run"] :=
    (by decide : Http.segments "/run" = ["run"])
  have hrefuses : Http.Refuses (busy.serve lateRequest afterwards).1.status :=
    ((Refused.denied readBody_lateRequest hadmission).serve rfl htarget).1
  obtain ⟨hundisturbed, -, hrefused⟩ :=
    undisturbed_of_refusal busy lateRequest afterwards hrefuses
  exact ⟨hrefuses, hundisturbed, hrefused rfl htarget⟩

end Node

end MeshNode
