import MeshNode.Bytes

/-!
# The field of curve 25519

Arithmetic modulo the prime `2 ^ 255 - 19` on natural numbers, which are kept reduced.
-/

namespace MeshNode.Field25519

/-- The prime modulus. -/
def p : Nat := Nat.pow 2 255 - 19

/-- The sum. -/
def add (a b : Nat) : Nat := (a + b) % p

/-- The difference, for a reduced subtrahend. -/
def sub (a b : Nat) : Nat := (a + (p - b)) % p

/-- The product. -/
def mul (a b : Nat) : Nat := a * b % p

/-- The bits of a number below `2 ^ width`, most significant first. -/
def bits (width n : Nat) : List Bool := ((List.range width).map n.testBit).reverse

/-- The power by an exponent below `2 ^ 255`. -/
def pow (a e : Nat) : Nat :=
  (bits 255 e).foldl (fun acc bit => if bit then mul (mul acc acc) a else mul acc acc) 1

/-- The inverse; zero for zero. -/
def inv (a : Nat) : Nat := pow a (p - 2)

end MeshNode.Field25519
