/-!
# Bytes

Everything that is hashed, sealed, stored in a file or sent over the wire is a list of bytes. A
text becomes bytes by its UTF-8 encoding, and `Bytes.text?` is the partial inverse: it answers
exactly when the bytes are the encoding of some text, so no two texts share their bytes.

Numbers are laid out little-endian (`ofNatLE`, `toNatLE`) or big-endian (`ofNatBE`, `toNatBE`); the
layouts take the width in bytes and drop what does not fit.
-/

namespace MeshNode

/-- A finite sequence of bytes. -/
abbrev Bytes := List UInt8

namespace Bytes

/-! ### Text -/

/-- The UTF-8 encoding of a text. -/
def ofText (s : String) : Bytes := s.toByteArray.data.toList

/-- The text whose UTF-8 encoding the bytes are, if there is one. -/
def text? (b : Bytes) : Option String := String.fromUTF8? ⟨b.toArray⟩

@[simp] theorem text?_ofText (s : String) : text? (ofText s) = some s := by
  have h : s.toByteArray.IsValidUTF8 := s.isValidUTF8
  simp [text?, ofText, String.fromUTF8?, h, String.fromUTF8]

theorem ofText_injective {s t : String} (h : ofText s = ofText t) : s = t := by
  have := congrArg text? h
  simpa using this

@[simp] theorem ofText_empty : ofText "" = [] := rfl

@[simp] theorem ofText_append (s t : String) : ofText (s ++ t) = ofText s ++ ofText t := by
  simp [ofText]

@[simp] theorem length_ofText (s : String) : (ofText s).length = s.utf8ByteSize := by
  simp [ofText, ← String.size_toByteArray]

/-! ### Numbers -/

/-- The number with the given little-endian digits in base 256. -/
def toNatLE : Bytes → Nat
  | [] => 0
  | b :: rest => b.toNat + 256 * toNatLE rest

/-- The low `width` base-256 digits of `n`, least significant first. -/
def ofNatLE : (width n : Nat) → Bytes
  | 0, _ => []
  | width + 1, n => UInt8.ofNat (n % 256) :: ofNatLE width (n / 256)

/-- The number with the given big-endian digits in base 256. -/
def toNatBE (b : Bytes) : Nat := b.foldl (fun n d => 256 * n + d.toNat) 0

/-- The low `width` base-256 digits of `n`, most significant first. -/
def ofNatBE (width n : Nat) : Bytes := (ofNatLE width n).reverse

@[simp] theorem length_ofNatLE (width n : Nat) : (ofNatLE width n).length = width := by
  induction width generalizing n with
  | zero => rfl
  | succ width ih => simp [ofNatLE, ih]

@[simp] theorem length_ofNatBE (width n : Nat) : (ofNatBE width n).length = width := by
  simp [ofNatBE]

/-! ### Blocks -/

/-- Cuts the bytes into blocks of `size + 1`; the last block holds what is left over. -/
def blocks (size : Nat) (b : Bytes) : List Bytes :=
  match b with
  | [] => []
  | x :: rest => (x :: rest.take size) :: blocks size (rest.drop size)
termination_by b.length
decreasing_by
  simp only [List.length_drop, List.length_cons]
  omega

/-- Combines two byte strings position by position, as far as the shorter one reaches. -/
def xor (a b : Bytes) : Bytes := List.zipWith (· ^^^ ·) a b

@[simp] theorem length_xor (a b : Bytes) : (xor a b).length = min a.length b.length := by
  simp [xor]

end Bytes

end MeshNode
