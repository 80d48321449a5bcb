import MeshNode.Orchestrator.Api
import MeshNode.Proofs.Body
import MeshNode.Proofs.Trust.Service

/-!
# What requests do to an orchestrator

A request either changes nothing or makes one call to the trust service, which it names in its body
or its path. Its answer has the status 500 if and only if a save of that call failed
(`answered_serve`): every other refusal has a status of its own.
-/

namespace MeshNode

namespace Orchestrator

variable {s : Orchestrator} {r : Http.Request} {now : Int}

/-- What a request can ask of the trust service. -/
inductive Asks (r : Http.Request) (now : Int) : TrustCall → Prop where
  | heartbeat {h : Heartbeat} (hread : r.readBody none Heartbeat.decoder = .ok h) :
      Asks r now (.ingest h.hostId h.attestation now)
  | verdict (host : String) {health : Health}
      (hread : r.readBody none verdictDecoder = .ok health) : Asks r now (.setHealth host health)

/-- An answer to a request: nothing has changed, or a call that the request asks for was made, and
the status is 500 exactly if a save of it failed. -/
def Answered (s : Orchestrator) (r : Http.Request) (now : Int) (x : Http.Response × Orchestrator) :
    Prop :=
  x.2 = s ∧ x.1.status ≠ 500 ∨
    ∃ c, Asks r now c ∧ x.2 = (s.call c).2 ∧ (x.1.status = 500 ↔ ∃ e, (s.call c).1 = .error e)

theorem answered_refusal {refusal : Http.Response} (h : refusal.status ≠ 500) :
    Answered s r now (refusal, s) := Or.inl ⟨rfl, h⟩

theorem snd_reply (x : Except ApiError Json × Orchestrator) : (Api.reply x).2 = x.2 := by
  rcases x with ⟨_ | _, _⟩ <;> rfl

theorem answered_heartbeat (hlocked : s.trust.locked = []) {h : Heartbeat}
    (hread : r.readBody none Heartbeat.decoder = .ok h) :
    Answered s r now (Api.reply
      (let (answer, s) := s.heartbeat h now
      (answer.map HeartbeatAnswer.toJson, s))) := by
  unfold heartbeat
  split_ifs
  · exact Or.inl ⟨rfl, (by decide : 400 ≠ 500)⟩
  · refine Or.inr ⟨_, .heartbeat hread, ?_⟩
    rcases hcall : s.call (.ingest h.hostId h.attestation now) with
      ⟨_ | ⟨evaluation, record⟩ | record, s'⟩
    · exact ⟨rfl, iff_of_true rfl ⟨_, rfl⟩⟩
    · exact ⟨rfl, iff_of_false (by decide : 200 ≠ 500) fun ⟨_, he⟩ => nomatch he⟩
    · -- A report is never answered with a health alone.
      have hanswer := TrustCall.answer_of_run hlocked (congrArg (·.1) hcall)
      cases hanswer

theorem status_known_ne {host : String} {record : Option TrustRecord} :
    (Api.reply ((known host record).map TrustRecord.toJson, s)).1.status ≠ 500 := by
  cases record with
  | none => exact (by decide : 404 ≠ 500)
  | some record => exact (by decide : 200 ≠ 500)

theorem answered_setHealth (host : String) {health : Health}
    (hread : r.readBody none verdictDecoder = .ok health) :
    Answered s r now (Api.reply
      (let (answer, s) := s.setHealth host health
      (answer.map TrustRecord.toJson, s))) := by
  refine Or.inr ⟨_, .verdict host hread, ?_⟩
  unfold setHealth
  rcases s.call (.setHealth host health) with ⟨_ | answer, s'⟩
  · exact ⟨rfl, iff_of_true rfl ⟨_, rfl⟩⟩
  · exact ⟨snd_reply _, iff_of_false status_known_ne fun ⟨_, he⟩ => nomatch he⟩

theorem answered_whenRead {x : Http.Response × Orchestrator} (hx : Answered s r now x) :
    Answered s r now (Api.whenRead r s x) := by
  unfold Api.whenRead
  split_ifs
  · exact hx
  · exact hx
  · exact answered_refusal (by decide)

theorem answered_whenPosted {x : Http.Response × Orchestrator} (hx : Answered s r now x) :
    Answered s r now (Api.whenPosted r s x) := by
  unfold Api.whenPosted
  split_ifs
  · exact hx
  · exact answered_refusal (by decide)

theorem answered_onHost {segment : String} {x : String → Http.Response × Orchestrator}
    (hx : ∀ host, Answered s r now (x host)) : Answered s r now (s.onHost segment x) := by
  unfold onHost
  split
  · exact hx _
  · exact answered_refusal (by decide)

theorem answered_onBody {α : Type} {limit : Option Nat} {d : Json.Decoder α}
    {x : α → Except ApiError Json × Orchestrator}
    (hx : ∀ a, r.readBody limit d = .ok a → Answered s r now (Api.reply (x a))) :
    Answered s r now (Api.onBody r limit d s x) := by
  unfold Api.onBody
  split
  · rename_i hread
    -- A refusal of the body blames the request.
    have hstatus := Http.Request.refuses_of_readBody hread
    exact answered_refusal (Nat.ne_of_lt hstatus.2)
  · rename_i a hread
    exact hx a hread

/-- **A request is answered** without a change, or after a call to the trust service. -/
theorem answered_serve (hlocked : s.trust.locked = []) (r : Http.Request) (now : Int) :
    Answered s r now (s.serve r now) := by
  unfold serve
  split
  · exact answered_whenPosted (answered_onBody fun h hread => answered_heartbeat hlocked hread)
  · exact answered_whenRead (answered_onHost fun host => Or.inl ⟨snd_reply _, status_known_ne⟩)
  · exact answered_whenPosted (answered_onHost fun host =>
      answered_onBody fun health hread => answered_setHealth host hread)
  · exact answered_refusal (by decide)

end Orchestrator

end MeshNode
