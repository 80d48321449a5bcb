import MeshNode.Http.MediaType
import MeshNode.Http.Target
import MeshNode.Json.Decoder

/-!
# Requests and answers

What the HTTP interfaces need of a request and give as an answer, and how a request is refused
before any part of the program has seen it: because of its path, its method, its length, its media
type or its JSON. Such a refusal is plain text; everything else is answered in JSON.
-/

namespace MeshNode.Http

/-- A request. -/
structure Request where
  method : String
  target : String
  contentType : Option String
  /-- The length that the request announces. -/
  contentLength : Option Nat
  body : Bytes

/-- What an answer holds. -/
inductive Content where
  | json (value : Json)
  | text (s : String)

/-- An answer. -/
structure Response where
  status : Nat
  content : Content

namespace Response

/-- An answer in JSON. -/
def ofJson (status : Nat) (value : Json) : Response := ⟨status, .json value⟩

/-- An answer in plain text. -/
def ofText (status : Nat) (s : String) : Response := ⟨status, .text s⟩

/-- There is nothing at the path. -/
def notFound : Response := ofText 404 ""

/-- What is at the path does not answer to the method. -/
def wrongMethod : Response := ofText 405 ""

/-- The request announces a body that is too long. -/
def announcedTooLong : Response := ofText 413 "length limit exceeded"

/-- The body turned out to be too long. -/
def tooLong : Response :=
  ofText 413 "Failed to buffer the request body: length limit exceeded"

/-- The body is not said to be JSON. -/
def wrongMediaType : Response :=
  ofText 415 "Expected request with `Content-Type: application/json`"

/-- The body is not JSON, or not of the form that was expected. -/
def unreadable (e : Json.ReadError) : Response :=
  if e.fault.isMismatch then
    ofText 422
      ("Failed to deserialize the JSON body into the target type: " ++ e.messageWithPath)
  else ofText 400 ("Failed to parse the request body as JSON: " ++ e.messageWithPath)

/-- A segment of the path does not stand for a text. -/
def badSegment (name : String) : Response :=
  ofText 400 s!"Invalid URL: Invalid UTF-8 in `{name}`"

/-- The answer without what it holds. -/
def withoutContent (r : Response) : Response := { r with content := .text "" }

end Response

namespace Request

/-- The longest body that is ever read, in bytes. -/
def maxBody : Nat := 2 * 1024 * 1024

/-- The longest body that is read where a limit is set. An announced length is a limit too. -/
def bodyLimit (r : Request) (limit : Option Nat) : Nat :=
  match limit with
  | some n => min maxBody (min n (r.contentLength.getD n))
  | none => maxBody

/-- The request announces a body above the limit. -/
def AnnouncesTooMuch (r : Request) (limit : Nat) : Prop := limit < r.contentLength.getD 0

instance (r : Request) (limit : Nat) : Decidable (r.AnnouncesTooMuch limit) :=
  inferInstanceAs (Decidable (_ < _))

/-- What the body of a request holds. -/
def readBody {α : Type} (r : Request) (limit : Option Nat) (d : Json.Decoder α) :
    Except Response α :=
  if !(r.contentType.any isJsonType) then .error .wrongMediaType
  else if r.bodyLimit limit < r.body.length then .error .tooLong
  else (d.ofStart r.body).mapError .unreadable

end Request

end MeshNode.Http
