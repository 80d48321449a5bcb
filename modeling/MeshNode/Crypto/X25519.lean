import MeshNode.Crypto.Field

/-!
# X25519

Diffie–Hellman on curve 25519 in Montgomery form. A secret is 32 bytes of which some bits are
fixed; a public value is the first coordinate of a point, of which the top bit is ignored. The
scalar multiple is computed by a ladder that keeps two consecutive multiples in projective
coordinates.
-/

namespace MeshNode.X25519

open Field25519

/-- Two consecutive multiples of a point, as numerators and denominators of their coordinates. -/
structure Rungs where
  x2 : Nat
  z2 : Nat
  x3 : Nat
  z3 : Nat

/-- Doubles the first point and adds the two. -/
def Rungs.step (u : Nat) (r : Rungs) : Rungs :=
  let a := add r.x2 r.z2
  let aa := mul a a
  let b := sub r.x2 r.z2
  let bb := mul b b
  let e := sub aa bb
  let da := mul (sub r.x3 r.z3) a
  let cb := mul (add r.x3 r.z3) b
  let s := add da cb
  let d := sub da cb
  ⟨mul aa bb, mul e (add aa (mul 121665 e)), mul s s, mul u (mul d d)⟩

/-- The two points in the other order. -/
def Rungs.swap (r : Rungs) : Rungs := ⟨r.x3, r.z3, r.x2, r.z2⟩

/-- One rung of the ladder for one bit of the scalar. -/
def Rungs.climb (u : Nat) (r : Rungs) (bit : Bool) : Rungs :=
  if bit then (r.swap.step u).swap else r.step u

/-- The scalar of a secret: the lowest three bits and the top bit cleared, the next one set. -/
def scalar (secret : Bytes) : Nat :=
  let n := Bytes.toNatLE secret % Nat.pow 2 254
  n - n % 8 + Nat.pow 2 254

/-- The multiple of a public value by a secret. -/
def multiply (secret point : Bytes) : Bytes :=
  let u := Bytes.toNatLE point % Nat.pow 2 255 % p
  let r := (bits 255 (scalar secret)).foldl (Rungs.climb u) ⟨1, 0, u, 1⟩
  Bytes.ofNatLE 32 (mul r.x2 (inv r.z2))

/-- The base point. -/
def base : Bytes := Bytes.ofNatLE 32 9

/-- The public value of a secret. -/
def publicKey (secret : Bytes) : Bytes := multiply secret base

@[simp] theorem length_multiply (secret point : Bytes) : (multiply secret point).length = 32 := by
  simp [multiply]

@[simp] theorem length_publicKey (secret : Bytes) : (publicKey secret).length = 32 := by
  simp [publicKey]

end MeshNode.X25519
