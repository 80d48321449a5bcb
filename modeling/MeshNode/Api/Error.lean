import MeshNode.Error

/-!
# Errors of the HTTP interfaces

A request that cannot be served is answered with a status and a JSON body that holds a code and a
text. The text of an internal error is not shown to the caller.
-/

namespace MeshNode

/-- Why a request was not served. -/
inductive ApiError where
  | badRequest (text : String)
  | auth (error : AuthError)
  | sealedAuth
  | notFound (text : String)
  | internal (text : String)
  deriving DecidableEq, Repr

namespace ApiError

/-- The status of the answer. -/
def status : ApiError → Nat
  | badRequest _ => 400
  | auth (.missingField _) => 400
  | auth .invalidToken => 401
  | auth (.expired ..) => 403
  | sealedAuth => 401
  | notFound _ => 404
  | internal _ => 500

/-- The code in the answer. -/
def code : ApiError → String
  | badRequest _ => "BAD_REQUEST"
  | auth error => error.code
  | sealedAuth => "AUTHENTICATION_FAILED"
  | notFound _ => "NOT_FOUND"
  | internal _ => "INTERNAL_ERROR"

/-- The text of an error. -/
def message : ApiError → String
  | badRequest text => "bad request: " ++ text
  | auth error => error.message
  | sealedAuth => "envelope authentication failed"
  | notFound text => "not found: " ++ text
  | internal text => "internal error: " ++ text

/-- The text that the caller sees. -/
def shownMessage : ApiError → String
  | internal _ => "internal error"
  | e => e.message

/-- The body of the answer. -/
def body (e : ApiError) : Json :=
  .obj [("error", .str e.shownMessage), ("error_code", .str e.code), ("ok", .bool false)]

/-- An error of a session as seen by the caller. -/
def ofSession : SessionError → ApiError
  | .authenticationFailed => sealedAuth
  | .malformed text => badRequest text
  | .unknownSession id => notFound ("session " ++ id)
  | .crypto error => internal error.message

/-- Any error as seen by the caller. -/
def ofError : MeshError → ApiError
  | .auth error => auth error
  | .session error => ofSession error
  | .request error => badRequest error.message
  | e => internal e.message

end ApiError

end MeshNode
