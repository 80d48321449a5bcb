import MeshNode.Bytes

/-!
# Poly1305

The one-time authenticator: the message, cut into blocks of sixteen bytes with a one put above each,
gives the coefficients of a polynomial that is evaluated modulo `2 ^ 130 - 5` at a point taken from
the key; the other half of the key is added to the result.
-/

namespace MeshNode.Poly1305

/-- The modulus. -/
def modulus : Nat := Nat.pow 2 130 - 5

/-- The bits of the point that may be set. -/
def clampMask : Nat := 0x0ffffffc0ffffffc0ffffffc0fffffff

/-- The coefficient of a block. -/
def coefficient (block : Bytes) : Nat := Bytes.toNatLE block + Nat.pow 256 block.length

/-- The tag of a message under a 32-byte key. -/
def tag (key message : Bytes) : Bytes :=
  let point := Bytes.toNatLE (key.take 16) &&& clampMask
  let sum := (message.blocks 15).foldl (fun acc b => (acc + coefficient b) * point % modulus) 0
  Bytes.ofNatLE 16 (sum + Bytes.toNatLE (key.drop 16))

@[simp] theorem length_tag (key message : Bytes) : (tag key message).length = 16 := by
  simp [tag]

end MeshNode.Poly1305
