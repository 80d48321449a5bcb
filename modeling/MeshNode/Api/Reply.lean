import MeshNode.Api.Error
import MeshNode.Http.Message

/-!
# Replies of the HTTP interfaces

How a request in JSON reaches the program, and how what the program has to say becomes an answer.
`σ` is the state of the program.
-/

namespace MeshNode.Api

variable {α σ : Type}

/-- The answer to a request that has reached the program. -/
def reply (r : Except ApiError Json × σ) : Http.Response × σ :=
  match r with
  | (.ok j, s) => (.ofJson 200 j, s)
  | (.error e, s) => (.ofJson e.status e.body, s)

/-- Serves a request for something that can only be read. -/
def whenRead (r : Http.Request) (s : σ) (serve : Http.Response × σ) : Http.Response × σ :=
  if r.method = "GET" then serve
  else if r.method = "HEAD" then (serve.1.withoutContent, serve.2)
  else (.wrongMethod, s)

/-- Serves a request that brings something. -/
def whenPosted (r : Http.Request) (s : σ) (serve : Http.Response × σ) : Http.Response × σ :=
  if r.method = "POST" then serve else (.wrongMethod, s)

/-- Hands what the body of a request holds to the program. -/
def onBody (r : Http.Request) (limit : Option Nat) (d : Json.Decoder α) (s : σ)
    (serve : α → Except ApiError Json × σ) : Http.Response × σ :=
  match r.readBody limit d with
  | .error refusal => (refusal, s)
  | .ok a => reply (serve a)

end MeshNode.Api
