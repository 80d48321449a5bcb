import MeshNode.Bytes

/-!
# ChaCha20

The stream cipher ChaCha20: a block of key stream is twenty rounds over sixteen words made of
constants, a 256-bit key, a block counter and a 96-bit nonce. `subkey` is the variant that maps a
key and sixteen bytes of nonce to another key, from which the cipher with the 192-bit nonce is
built.
-/

namespace MeshNode.ChaCha20

/-- Sixteen words in four rows. -/
structure Words where
  a0 : UInt32
  a1 : UInt32
  a2 : UInt32
  a3 : UInt32
  b0 : UInt32
  b1 : UInt32
  b2 : UInt32
  b3 : UInt32
  c0 : UInt32
  c1 : UInt32
  c2 : UInt32
  c3 : UInt32
  d0 : UInt32
  d1 : UInt32
  d2 : UInt32
  d3 : UInt32
  deriving DecidableEq, Repr

/-- Rotates a word to the left. -/
def rotate (x n : UInt32) : UInt32 := x <<< n ||| x >>> (32 - n)

/-- The quarter round on one word of each row. -/
def quarter (a b c d : UInt32) : UInt32 × UInt32 × UInt32 × UInt32 :=
  let a := a + b
  let d := rotate (d ^^^ a) 16
  let c := c + d
  let b := rotate (b ^^^ c) 12
  let a := a + b
  let d := rotate (d ^^^ a) 8
  let c := c + d
  let b := rotate (b ^^^ c) 7
  (a, b, c, d)

/-- A round over the columns and one over the diagonals. -/
def doubleRound (w : Words) : Words :=
  let (a0, b0, c0, d0) := quarter w.a0 w.b0 w.c0 w.d0
  let (a1, b1, c1, d1) := quarter w.a1 w.b1 w.c1 w.d1
  let (a2, b2, c2, d2) := quarter w.a2 w.b2 w.c2 w.d2
  let (a3, b3, c3, d3) := quarter w.a3 w.b3 w.c3 w.d3
  let (a0, b1, c2, d3) := quarter a0 b1 c2 d3
  let (a1, b2, c3, d0) := quarter a1 b2 c3 d0
  let (a2, b3, c0, d1) := quarter a2 b3 c0 d1
  let (a3, b0, c1, d2) := quarter a3 b0 c1 d2
  ⟨a0, a1, a2, a3, b0, b1, b2, b3, c0, c1, c2, c3, d0, d1, d2, d3⟩

/-- Ten double rounds. -/
def rounds (w : Words) : Words := (List.range 10).foldl (fun w _ => doubleRound w) w

/-- Word `i` of little-endian bytes. -/
def wordAt (b : Bytes) (i : Nat) : UInt32 := (Bytes.toNatLE ((b.drop (4 * i)).take 4)).toUInt32

/-- The words of a key and sixteen further bytes. -/
def setup (key last : Bytes) : Words :=
  ⟨0x61707865, 0x3320646e, 0x79622d32, 0x6b206574,
    wordAt key 0, wordAt key 1, wordAt key 2, wordAt key 3,
    wordAt key 4, wordAt key 5, wordAt key 6, wordAt key 7,
    wordAt last 0, wordAt last 1, wordAt last 2, wordAt last 3⟩

/-- Words as little-endian bytes. -/
def wordBytes (ws : List UInt32) : Bytes := ws.flatMap fun w => Bytes.ofNatLE 4 w.toNat

/-- Block number `counter` of the key stream. -/
def block (key nonce : Bytes) (counter : Nat) : Bytes :=
  let w := setup key (Bytes.ofNatLE 4 counter ++ nonce)
  let r := rounds w
  wordBytes [w.a0 + r.a0, w.a1 + r.a1, w.a2 + r.a2, w.a3 + r.a3,
    w.b0 + r.b0, w.b1 + r.b1, w.b2 + r.b2, w.b3 + r.b3,
    w.c0 + r.c0, w.c1 + r.c1, w.c2 + r.c2, w.c3 + r.c3,
    w.d0 + r.d0, w.d1 + r.d1, w.d2 + r.d2, w.d3 + r.d3]

@[simp] theorem length_block (key nonce : Bytes) (counter : Nat) :
    (block key nonce counter).length = 64 := by
  simp [block, wordBytes]

/-- Combines the bytes with the key stream from block `counter` on. -/
def apply (key nonce : Bytes) (counter : Nat) (b : Bytes) : Bytes :=
  match b with
  | [] => []
  | x :: rest =>
    Bytes.xor ((x :: rest).take 64) (block key nonce counter) ++
      apply key nonce (counter + 1) ((x :: rest).drop 64)
termination_by b.length
decreasing_by
  simp only [List.length_drop, List.length_cons]
  omega

@[simp] theorem length_apply (key nonce : Bytes) (counter : Nat) (b : Bytes) :
    (apply key nonce counter b).length = b.length := by
  fun_induction apply key nonce counter b with
  | case1 => rfl
  | case2 counter x rest ih =>
    rw [List.length_append, ih]
    simp only [Bytes.length_xor, length_block, List.length_take, List.length_drop]
    omega

private theorem xor_xor (a b : Bytes) (h : a.length ≤ b.length) :
    Bytes.xor (Bytes.xor a b) b = a := by
  induction a generalizing b with
  | nil => rfl
  | cons x a ih =>
    cases b with
    | nil => simp at h
    | cons y b =>
      have hrest := ih b (by simpa using h)
      simp only [Bytes.xor, List.zipWith_cons_cons] at hrest ⊢
      rw [hrest, UInt8.xor_assoc, UInt8.xor_self, UInt8.xor_zero]

/-- The first 64 bytes are combined with one block, and the others with those after it. -/
theorem apply_eq (key nonce : Bytes) (counter : Nat) (b : Bytes) :
    apply key nonce counter b =
      Bytes.xor (b.take 64) (block key nonce counter) ++
        apply key nonce (counter + 1) (b.drop 64) := by
  cases b with
  | nil => simp [apply, Bytes.xor]
  | cons x rest => rw [apply]

/-- Combining twice gives back the bytes. -/
@[simp] theorem apply_apply (key nonce : Bytes) (counter : Nat) (b : Bytes) :
    apply key nonce counter (apply key nonce counter b) = b := by
  fun_induction apply key nonce counter b with
  | case1 => simp [apply]
  | case2 counter x rest ih =>
    generalize x :: rest = b at ih ⊢
    have hfront : (Bytes.xor (b.take 64) (block key nonce counter)).length = min 64 b.length := by
      simp only [Bytes.length_xor, List.length_take, length_block]
      omega
    have hback : (apply key nonce (counter + 1) (b.drop 64)).length = b.length - 64 := by simp
    generalize apply key nonce (counter + 1) (b.drop 64) = rest at ih hback ⊢
    rw [apply_eq]
    by_cases hshort : b.length ≤ 64
    · have hnone : rest = [] := List.eq_nil_of_length_eq_zero (by omega)
      have hall : b.take 64 = b := List.take_of_length_le hshort
      rw [hall] at hfront ⊢
      rw [hnone, List.append_nil, List.take_of_length_le (by omega),
        List.drop_of_length_le (by omega), xor_xor _ _ (by simp only [length_block]; omega)]
      simp [apply]
    · have hwhole : (Bytes.xor (b.take 64) (block key nonce counter)).length = 64 := by omega
      have hfits : (b.take 64).length ≤ (block key nonce counter).length := by
        simp only [List.length_take, length_block]
        omega
      rw [List.take_left' hwhole, List.drop_left' hwhole, ih, xor_xor _ _ hfits,
        List.take_append_drop]

/-- The key that a key and sixteen bytes of nonce are mapped to. -/
def subkey (key nonce : Bytes) : Bytes :=
  let r := rounds (setup key nonce)
  wordBytes [r.a0, r.a1, r.a2, r.a3, r.d0, r.d1, r.d2, r.d3]

end MeshNode.ChaCha20
