import MeshNode.Bytes

/-!
# SHA-256

The hash function SHA-256: the message is padded to whole blocks of 64 bytes, and the blocks are
folded into a state of eight 32-bit words, which are the digest, big-endian.
-/

namespace MeshNode.Sha256

/-- The state between two blocks. -/
structure State where
  a : UInt32
  b : UInt32
  c : UInt32
  d : UInt32
  e : UInt32
  f : UInt32
  g : UInt32
  h : UInt32
  deriving DecidableEq, Repr

/-- Where hashing starts: the fractions of the square roots of the first eight primes. -/
def start : State :=
  ⟨0x6a09e667, 0xbb67ae85, 0x3c6ef372, 0xa54ff53a,
    0x510e527f, 0x9b05688c, 0x1f83d9ab, 0x5be0cd19⟩

/-- One constant per round: the fractions of the cube roots of the first 64 primes. -/
def constants : List UInt32 := [
    0x428a2f98, 0x71374491, 0xb5c0fbcf, 0xe9b5dba5, 0x3956c25b, 0x59f111f1, 0x923f82a4, 0xab1c5ed5,
    0xd807aa98, 0x12835b01, 0x243185be, 0x550c7dc3, 0x72be5d74, 0x80deb1fe, 0x9bdc06a7, 0xc19bf174,
    0xe49b69c1, 0xefbe4786, 0x0fc19dc6, 0x240ca1cc, 0x2de92c6f, 0x4a7484aa, 0x5cb0a9dc, 0x76f988da,
    0x983e5152, 0xa831c66d, 0xb00327c8, 0xbf597fc7, 0xc6e00bf3, 0xd5a79147, 0x06ca6351, 0x14292967,
    0x27b70a85, 0x2e1b2138, 0x4d2c6dfc, 0x53380d13, 0x650a7354, 0x766a0abb, 0x81c2c92e, 0x92722c85,
    0xa2bfe8a1, 0xa81a664b, 0xc24b8b70, 0xc76c51a3, 0xd192e819, 0xd6990624, 0xf40e3585, 0x106aa070,
    0x19a4c116, 0x1e376c08, 0x2748774c, 0x34b0bcb5, 0x391c0cb3, 0x4ed8aa4a, 0x5b9cca4f, 0x682e6ff3,
    0x748f82ee, 0x78a5636f, 0x84c87814, 0x8cc70208, 0x90befffa, 0xa4506ceb, 0xbef9a3f7, 0xc67178f2]

/-- Rotates a word to the right by fewer than 32 places. -/
def rotate (x n : UInt32) : UInt32 := x >>> n ||| x <<< (32 - n)

/-- Takes from each place the bit of `f` where `e` has a one, and of `g` elsewhere. -/
def choose (e f g : UInt32) : UInt32 := (e &&& f) ^^^ (~~~e &&& g)

/-- Takes at each place the bit that two of the three words have. -/
def majority (a b c : UInt32) : UInt32 := (a &&& b) ^^^ (a &&& c) ^^^ (b &&& c)

/-- One round, for one word of the schedule and one constant. -/
def round (s : State) (w k : UInt32) : State :=
  let t1 := s.h + (rotate s.e 6 ^^^ rotate s.e 11 ^^^ rotate s.e 25) + choose s.e s.f s.g + k + w
  let t2 := (rotate s.a 2 ^^^ rotate s.a 13 ^^^ rotate s.a 22) + majority s.a s.b s.c
  ⟨t1 + t2, s.a, s.b, s.c, s.d + t1, s.e, s.f, s.g⟩

/-- Adds words to the schedule, which is kept newest first. -/
def extend : Nat → List UInt32 → List UInt32
  | 0, ws => ws
  | n + 1, ws =>
    let x := ws.getD 14 0
    let y := ws.getD 1 0
    let low := rotate x 7 ^^^ rotate x 18 ^^^ x >>> 3
    let high := rotate y 17 ^^^ rotate y 19 ^^^ y >>> 10
    extend n ((high + ws.getD 6 0 + low + ws.getD 15 0) :: ws)

/-- The schedule of a block: its sixteen words and 48 more. -/
def schedule (block : Bytes) : List UInt32 :=
  (extend 48 ((block.blocks 3).map fun w => (Bytes.toNatBE w).toUInt32).reverse).reverse

/-- Folds one block into the state. -/
def compress (s : State) (block : Bytes) : State :=
  let t := (List.zip (schedule block) constants).foldl (fun t wk => round t wk.1 wk.2) s
  ⟨s.a + t.a, s.b + t.b, s.c + t.c, s.d + t.d, s.e + t.e, s.f + t.f, s.g + t.g, s.h + t.h⟩

/-- The message followed by a one bit, zeros to the end of a block less 8 bytes, and its length in
bits. -/
def padded (message : Bytes) : Bytes :=
  message ++ 0x80 :: List.replicate ((119 - message.length % 64) % 64) 0 ++
    Bytes.ofNatBE 8 (8 * message.length)

/-- The words of a state, big-endian. -/
def State.bytes (s : State) : Bytes :=
  [s.a, s.b, s.c, s.d, s.e, s.f, s.g, s.h].flatMap fun w => Bytes.ofNatBE 4 w.toNat

/-- The digest of a message. -/
def hash (message : Bytes) : Bytes :=
  (((padded message).blocks 63).foldl compress start).bytes

@[simp] theorem length_hash (message : Bytes) : (hash message).length = 32 := by
  simp [hash, State.bytes]

end MeshNode.Sha256
