import MeshNode.Crypto.Sha256

/-!
# Keyed hashing

HMAC with SHA-256, and the derivation of a key from a shared secret by HKDF with the same hash, no
salt and a label.
-/

namespace MeshNode

/-- The key as one block: hashed if it is longer, and filled up with zeros. -/
def Hmac.block (key : Bytes) : Bytes :=
  let k := if 64 < key.length then Sha256.hash key else key
  k ++ List.replicate (64 - k.length) 0

/-- The HMAC-SHA256 of a message under a key. -/
def Hmac.sha256 (key message : Bytes) : Bytes :=
  let k := Hmac.block key
  Sha256.hash (k.map (· ^^^ 0x5c) ++ Sha256.hash (k.map (· ^^^ 0x36) ++ message))

@[simp] theorem Hmac.length_sha256 (key message : Bytes) :
    (Hmac.sha256 key message).length = 32 := by
  simp [Hmac.sha256]

/-- The 32-byte key that HKDF-SHA256 without salt derives from a secret and a label. -/
def Hkdf.derive (secret label : Bytes) : Bytes :=
  Hmac.sha256 (Hmac.sha256 (List.replicate 32 0) secret) (label ++ [1])

@[simp] theorem Hkdf.length_derive (secret label : Bytes) :
    (Hkdf.derive secret label).length = 32 := by
  simp [Hkdf.derive]

end MeshNode
