import MeshNode.Node.Api
import MeshNode.Proofs.Body
import MeshNode.Proofs.Job.Traffic

/-!
# Requests for jobs

What a node does with a request for a job, as equations. A body holds a request, which is the body
itself or what is sealed in it (`requestOf`). A request that is sealed runs as if it had come plain,
after its session was used (`runSealed_of_opened`); then its answer is sealed too.

All that requests of any kind change of a node are its sessions, and its workspace by the calls to
its runner. What neither of these takes from a node therefore lasts (`Lasting.serve`).
-/

namespace MeshNode

/-- The call for a job that is requested on an occasion. -/
def Occasion.call (o : Occasion) (spec : JobSpec) : RunCall :=
  ⟨o.requestId, spec, o.wallSecs, o.wallMillis⟩

namespace Node

variable {n : Node} {o : Occasion}

/-! ### Jobs -/

theorem runJob_of_malformed {request : Json} {e : RequestError}
    (h : JobSpec.ofRequest request = .error e) :
    n.runJob request o = (.error (.ofError (.request e)), n) := by
  simp only [runJob, h]

theorem runJob_of_ofRequest {request : Json} {spec : JobSpec}
    (h : JobSpec.ofRequest request = .ok spec) :
    n.runJob request o = ((n.runner.run (o.call spec) n.workspace).1.mapError .ofError,
      { n with workspace := (n.runner.run (o.call spec) n.workspace).2 }) := by
  simp only [runJob, h]
  rfl

theorem run_plain {request : Json} (h : isSealed request = false) :
    n.run request o =
      ((n.runJob request o).1.map fun a => a.toJson.sorted, (n.runJob request o).2) := by
  rw [run, h, if_neg (by decide)]

/-! ### Sealed requests -/

/-- The node after a session was used. -/
def touched (n : Node) (id : String) (now : Nat) : Node :=
  { n with sessions := (n.sessions.get id now).2 }

/-- An answer in an envelope of a session. -/
def answerIn (c : Channel) (id : String) (o : Occasion) (answer : RunResponse) : SealedRun :=
  ⟨id, c.sealed o.nonce o.wallMillis answer.toJson.render
    (some (.obj [("request_id", .str answer.requestId), ("session_id", .str id)]))⟩

/-- The request in an envelope, if the node has the session and the envelope opens. -/
def openedRequest (n : Node) (r : SealedRun) : Except ApiError Json :=
  match n.sessions.sessions.get? r.sessionId with
  | none => .error (.ofSession (.unknownSession r.sessionId))
  | some s => (s.channel.openAs .value r.envelope).mapError .ofSession

theorem openedRequest_eq_ok {r : SealedRun} {request : Json}
    (h : n.openedRequest r = .ok request) :
    ∃ s, n.sessions.sessions.get? r.sessionId = some s ∧
      s.channel.openAs .value r.envelope = .ok request := by
  unfold openedRequest at h
  split at h
  · cases h
  · rename_i s hs
    cases hopen : s.channel.openAs .value r.envelope with
    | error error =>
      rw [hopen] at h
      cases h
    | ok request' =>
      rw [hopen] at h
      exact ⟨s, hs, hopen.trans (congrArg _ (Except.ok.inj h))⟩

theorem runSealed_of_unopened {r : SealedRun} {e : ApiError} (h : n.openedRequest r = .error e) :
    n.runSealed r o = (.error e, n.touched r.sessionId o.nanos) := by
  unfold openedRequest at h
  unfold runSealed touched SessionTable.get
  cases hs : n.sessions.sessions.get? r.sessionId with
  | none =>
    simp only [hs] at h ⊢
    rw [Except.error.inj h]
  | some s =>
    simp only [hs] at h ⊢
    cases hopen : s.channel.openAs .value r.envelope with
    | error error =>
      rw [hopen] at h
      simp only [← Except.error.inj h]
    | ok request =>
      rw [hopen] at h
      cases h

/-- What is sealed runs as if it had come plain, after the session was used. -/
theorem runSealed_of_opened {r : SealedRun} {s : Session} {request : Json}
    (hs : n.sessions.sessions.get? r.sessionId = some s)
    (hopen : s.channel.openAs .value r.envelope = .ok request) :
    n.runSealed r o =
      (((n.touched r.sessionId o.nanos).runJob request o).1.map (answerIn s.channel r.sessionId o),
        ((n.touched r.sessionId o.nanos).runJob request o).2) := by
  simp only [runSealed, SessionTable.get, hs, hopen, touched]
  rcases runJob _ _ _ with ⟨_ | _, _⟩ <;> rfl

/-! ### Bodies -/

/-- The request of a body, which is the body itself or what is sealed in it. -/
def requestOf (n : Node) (body : Json) : Except ApiError Json :=
  if isSealed body then
    match SealedRun.decoder.convert body with
    | .error text => .error (.badRequest text)
    | .ok r => n.openedRequest r
  else .ok body

/-- The form in which an answer is shown to whoever has sent a body: as it is, or in an envelope of
the session in which the body was sealed. -/
inductive Shows (n : Node) (body : Json) (o : Occasion) (answer : RunResponse) : Json → Prop where
  | plain (h : isSealed body = false) : Shows n body o answer answer.toJson.sorted
  | wrapped {r : SealedRun} {s : Session} (h : isSealed body = true)
      (hr : SealedRun.decoder.convert body = .ok r)
      (hs : n.sessions.sessions.get? r.sessionId = some s) :
      Shows n body o answer (answerIn s.channel r.sessionId o answer).toJson.sorted

/-- A request asks for a job, and this is what its body holds. -/
structure Asks (n : Node) (r : Http.Request) (body : Json) : Prop where
  method : r.method = "POST"
  target : Http.segments r.target = ["run"]
  length : ¬ r.AnnouncesTooMuch n.maxBody
  body : r.readBody (some n.maxBody) .value = .ok body

/-- A request that brings the text of a value asks for the job that the value holds. -/
theorem asks_of_ofBytes {r : Http.Request} {body : Json} (hmethod : r.method = "POST")
    (htarget : r.target = "/run") (htype : r.contentType = some "application/json")
    (hannounced : r.contentLength = none) (hread : Json.ofBytes r.body = .ok body)
    (hlimit : r.body.length ≤ min Http.Request.maxBody n.maxBody) : n.Asks r body where
  method := hmethod
  target := htarget ▸ (by decide : Http.segments "/run" = ["run"])
  length := by
    rw [Http.Request.AnnouncesTooMuch, hannounced]
    exact Nat.not_lt_zero _
  body := by
    refine Http.Request.readBody_of_ofBytes ?_ ?_ hread
    · rw [htype]
      exact (by decide : Http.isJsonType "application/json" = true)
    · simpa only [Http.Request.bodyLimit, hannounced, Option.getD_none, Nat.min_self] using hlimit

theorem Asks.serve {r : Http.Request} {body : Json} (h : n.Asks r body) :
    n.serve r o = Api.reply (n.run body o) := by
  simp only [Node.serve, if_neg h.length, h.target, Api.whenPosted, if_pos h.method, Api.onBody,
    h.body]

/-! ### What lasts -/

/-- A property of nodes that is kept when the sessions change and when a call runs. -/
structure Lasting (P : Node → Prop) : Prop where
  sessions : ∀ {n : Node} (sessions : SessionTable), P n → P { n with sessions }
  workspace : ∀ {n : Node} (c : RunCall), P n →
    P { n with workspace := (n.runner.run c n.workspace).2 }

namespace Lasting

variable {P : Node → Prop} (h : Lasting P) (hn : P n)
include h hn

theorem shakeHands (offer : Offer) (o : Occasion) : P (n.shakeHands offer o).2 := by
  unfold Node.shakeHands
  split
  · exact hn
  · exact h.sessions _ hn

theorem runJob (request : Json) (o : Occasion) : P (n.runJob request o).2 := by
  cases hspec : JobSpec.ofRequest request with
  | error e =>
    rw [runJob_of_malformed hspec]
    exact hn
  | ok spec =>
    rw [runJob_of_ofRequest hspec]
    exact h.workspace _ hn

theorem runSealed (r : SealedRun) (o : Occasion) : P (n.runSealed r o).2 := by
  have htouched : P (n.touched r.sessionId o.nanos) := h.sessions _ hn
  cases hopened : n.openedRequest r with
  | error e =>
    rw [runSealed_of_unopened hopened]
    exact htouched
  | ok request =>
    obtain ⟨s, hs, hopen⟩ := openedRequest_eq_ok hopened
    rw [runSealed_of_opened hs hopen]
    exact h.runJob htouched request o

theorem run (body : Json) (o : Occasion) : P (n.run body o).2 := by
  unfold Node.run
  split
  · split
    · exact hn
    · exact h.runSealed hn _ o
  · exact h.runJob hn body o

/-- **What lasts is kept by every request.** -/
theorem serve (r : Http.Request) (o : Occasion) : P (n.serve r o).2 := by
  unfold Node.serve
  split_ifs
  · exact hn
  · split
    · exact Api.whenRead_keeps hn hn
    · exact Api.whenRead_keeps hn hn
    · exact Api.whenRead_keeps hn hn
    · exact Api.whenPosted_keeps hn <| Api.onBody_keeps hn fun offer => h.shakeHands hn offer o
    · exact Api.whenPosted_keeps hn <| Api.onBody_keeps hn fun body => h.run hn body o
    · exact hn

end Lasting

end Node

end MeshNode
