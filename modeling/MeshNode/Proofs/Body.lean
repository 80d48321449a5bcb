import MeshNode.Api.Reply
import MeshNode.Proofs.Json.Answers
import MeshNode.Proofs.Json.Records

/-!
# Bodies of requests and answers

A body that cannot be read is refused with a status that blames the request. What is read from a
body has whatever property the reader gives it, and a value that was written into a body is read
from it. The body of an answer is the compact form of its value, or its text. What the program keeps
whatever it is asked, it keeps when requests reach it over HTTP (`Api.onBody_keeps`).
-/

namespace MeshNode.Http

/-- The bytes of what an answer holds. -/
def Response.bytes (r : Response) : Bytes :=
  match r.content with
  | .json j => j.render
  | .text s => .ofText s

/-- A success, with something in it that is read as the value. -/
def Response.Holds {α : Type} (r : Response) (d : Json.Decoder α) (a : α) : Prop :=
  r.status = 200 ∧ d.ofBytes r.bytes = .ok a

theorem Response.holds_ofJson {α : Type} {d : Json.Decoder α} {j : Json} {a : α}
    (h : Json.Reads (d.read Json.maxDepth) j a) : (ofJson 200 j).Holds d a :=
  ⟨rfl, Json.Decoder.ofBytes_render h⟩

/-- A status that blames the request. -/
def Refuses (status : Nat) : Prop := 400 ≤ status ∧ status < 500

instance (status : Nat) : Decidable (Refuses status) := inferInstanceAs (Decidable (_ ∧ _))

namespace Request

variable {α : Type} {r : Request} {limit : Option Nat} {d : Json.Decoder α} {a : α}

/-- A body that cannot be read is refused. -/
theorem refuses_of_readBody {refusal : Response} (h : r.readBody limit d = .error refusal) :
    Refuses refusal.status := by
  unfold readBody at h
  split_ifs at h
  · rw [← Except.error.inj h]
    decide
  · rw [← Except.error.inj h]
    decide
  · cases hstart : d.ofStart r.body with
    | error e =>
      rw [hstart] at h
      rw [← Except.error.inj h, Response.unreadable]
      split_ifs <;> simp [Refuses, Response.ofText]
    | ok a =>
      rw [hstart] at h
      cases h

/-- What the reader gives is read from the start of a body. -/
theorem exists_read_of_readBody (h : r.readBody limit d = .ok a) :
    ∃ rest, d.read Json.maxDepth r.body = .ok (a, rest) := by
  unfold readBody Json.Decoder.ofStart at h
  split_ifs at h
  cases hread : d.read Json.maxDepth r.body with
  | error e =>
    rw [hread] at h
    cases h
  | ok x =>
    rw [hread] at h
    exact ⟨x.2, congrArg Except.ok (Prod.ext (Except.ok.inj h) rfl)⟩

/-- A body within the limit that is said to be JSON is read as what its text is read as. -/
theorem readBody_of_ofBytes (htype : r.contentType.any isJsonType = true)
    (hlimit : r.body.length ≤ r.bodyLimit limit) (hread : d.ofBytes r.body = .ok a) :
    r.readBody limit d = .ok a := by
  simp only [readBody, htype, Bool.not_true, Bool.false_eq_true, if_false,
    if_neg (Nat.not_lt.mpr hlimit), Json.Decoder.ofStart_of_ofBytes hread]
  rfl

/-- A body within the limit that is said to be JSON is read as what was written into it. -/
theorem readBody_render {j : Json} (htype : r.contentType.any isJsonType = true)
    (hbody : r.body = j.render) (hlimit : r.body.length ≤ r.bodyLimit limit)
    (hread : Json.Reads (d.read Json.maxDepth) j a) : r.readBody limit d = .ok a :=
  readBody_of_ofBytes htype hlimit (hbody ▸ Json.Decoder.ofBytes_render hread)

end Request

end MeshNode.Http

namespace MeshNode.Api

variable {α σ : Type} {P : σ → Prop} {r : Http.Request} {s : σ}

theorem whenRead_keeps {x : Http.Response × σ} (hs : P s) (hx : P x.2) :
    P (whenRead r s x).2 := by
  unfold whenRead
  split_ifs
  exacts [hx, hx, hs]

theorem whenPosted_keeps {x : Http.Response × σ} (hs : P s) (hx : P x.2) :
    P (whenPosted r s x).2 := by
  unfold whenPosted
  split_ifs
  exacts [hx, hs]

/-- A body that cannot be read does not reach the program. -/
theorem onBody_keeps {limit : Option Nat} {d : Json.Decoder α}
    {program : α → Except ApiError Json × σ} (hs : P s) (hprogram : ∀ a, P (program a).2) :
    P (onBody r limit d s program).2 := by
  unfold onBody
  split
  · exact hs
  · rename_i a _
    have ha := hprogram a
    generalize program a = x at ha
    rcases x with ⟨_ | _, s'⟩ <;> exact ha

end MeshNode.Api
