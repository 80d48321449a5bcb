import MeshNode.Envelope
import MeshNode.Jail
import MeshNode.Job.Spec
import MeshNode.Settings.Error
import MeshNode.StoreError

/-!
# Errors

Every part has errors of its own; `MeshError` holds whatever can go wrong in any of them. The text
of an error is that of its part.
-/

namespace MeshNode

/-- Any error. -/
inductive MeshError where
  | crypto (error : CryptoError)
  | session (error : SessionError)
  | auth (error : AuthError)
  | sandbox (error : SandboxError)
  | store (error : StoreError)
  | request (error : RequestError)
  | settings (error : SettingsError)
  | file (error : FileError)
  deriving DecidableEq, Repr

/-- The text of an error. -/
def MeshError.message : MeshError → String
  | crypto error => error.message
  | session error => error.message
  | auth error => error.message
  | sandbox error => error.message
  | store error => error.message
  | request error => error.message
  | settings error => error.message
  | file error => "I/O error: " ++ error.message

end MeshNode
