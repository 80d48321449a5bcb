import MeshNode.Crypto.Field
import MeshNode.Crypto.Sha512

/-!
# Ed25519

Signatures on the twisted Edwards curve `-x² + y² = 1 + d x² y²`. A point is kept in extended
coordinates `(X : Y : Z : T)` with `x = X / Z`, `y = Y / Z` and `x y = T / Z`; its encoding is `y`
with the parity of `x` in the top bit. A signature is made from a 32-byte seed without any
randomness.
-/

namespace MeshNode.Ed25519

open Field25519

/-- A point in extended coordinates. -/
structure Point where
  x : Nat
  y : Nat
  z : Nat
  t : Nat
  deriving DecidableEq, Repr

/-- The curve constant `-121665 / 121666`. -/
def curveD : Nat := 0x52036cee2b6ffe738cc740797779e89800700a4d4141d8ab75eb4dca135978a3

/-- The order of the base point. -/
def order : Nat := Nat.pow 2 252 + 27742317777372353535851937790883648493

/-- The neutral point. -/
def Point.zero : Point := ⟨0, 1, 1, 0⟩

/-- The sum of two points. -/
def Point.add (p q : Point) : Point :=
  let a := mul (Field25519.sub p.y p.x) (Field25519.sub q.y q.x)
  let b := mul (Field25519.add p.y p.x) (Field25519.add q.y q.x)
  let c := mul (mul p.t (2 * curveD)) q.t
  let d := mul p.z (2 * q.z)
  let e := Field25519.sub b a
  let f := Field25519.sub d c
  let g := Field25519.add d c
  let h := Field25519.add b a
  ⟨mul e f, mul g h, mul f g, mul e h⟩

/-- The point taken `n` times, for `n` below `2 ^ 256`. -/
def Point.times (n : Nat) (p : Point) : Point :=
  (bits 256 n).foldl (fun acc bit => if bit then (acc.add acc).add p else acc.add acc) .zero

/-- The point with the first coordinate negated. -/
def Point.neg (p : Point) : Point := ⟨Field25519.sub 0 p.x, p.y, p.z, Field25519.sub 0 p.t⟩

/-- The encoding of a point. -/
def Point.encode (p : Point) : Bytes :=
  let inverse := inv p.z
  let x := mul p.x inverse
  let y := mul p.y inverse
  Bytes.ofNatLE 32 (y + x % 2 * Nat.pow 2 255)

/-- The point with the given affine coordinates. -/
def Point.ofAffine (x y : Nat) : Point := ⟨x, y, 1, mul x y⟩

/-- A square root of `-1`. -/
def rootOfMinusOne : Nat := pow 2 ((p - 1) / 4)

/-- The point with a given encoding, if there is one. -/
def Point.decode? (b : Bytes) : Option Point :=
  let n := Bytes.toNatLE b
  let y := n % Nat.pow 2 255 % p
  let odd := n / Nat.pow 2 255 % 2
  let yy := mul y y
  let u := Field25519.sub yy 1
  let v := Field25519.add (mul curveD yy) 1
  let square := mul u (inv v)
  let root := pow square ((p + 3) / 8)
  let x? :=
    if mul root root = square then some root
    else if mul root root = Field25519.sub 0 square then some (mul root rootOfMinusOne)
    else none
  x?.map fun x => Point.ofAffine (if x % 2 = odd then x else Field25519.sub 0 x) y

/-- The base point. -/
def base : Point :=
  .ofAffine 0x216936d3cd6e53fec0a4e231fdd6dc5c692cc7609525a7b2c9562d608f25d51a
    0x6666666666666666666666666666666666666666666666666666666666666658

/-- A hash as a number. -/
def hashNumber (message : Bytes) : Nat := Bytes.toNatLE (Sha512.hash message)

/-- The secret scalar of a seed. -/
def secretScalar (seed : Bytes) : Nat :=
  let n := Bytes.toNatLE ((Sha512.hash seed).take 32) % Nat.pow 2 254
  n - n % 8 + Nat.pow 2 254

/-- The public key of a seed. -/
def publicKey (seed : Bytes) : Bytes := (base.times (secretScalar seed)).encode

/-- The signature of a message. -/
def sign (seed message : Bytes) : Bytes :=
  let a := secretScalar seed
  let key := publicKey seed
  let r := hashNumber ((Sha512.hash seed).drop 32 ++ message) % order
  let commitment := (base.times r).encode
  let challenge := hashNumber (commitment ++ key ++ message) % order
  commitment ++ Bytes.ofNatLE 32 ((r + challenge * a) % order)

/-- Whether a signature of a message is valid under a public key. -/
def verify (key message signature : Bytes) : Bool :=
  let commitment := signature.take 32
  let s := Bytes.toNatLE (signature.drop 32)
  match Point.decode? key with
  | none => false
  | some a =>
    let challenge := hashNumber (commitment ++ key ++ message) % order
    signature.length = 64 && s < order &&
      ((base.times s).add (a.neg.times challenge)).encode = commitment

@[simp] theorem Point.length_encode (p : Point) : p.encode.length = 32 := by
  simp [Point.encode]

@[simp] theorem length_publicKey (seed : Bytes) : (publicKey seed).length = 32 := by
  simp [publicKey]

@[simp] theorem length_sign (seed message : Bytes) : (sign seed message).length = 64 := by
  simp [sign]

end MeshNode.Ed25519
