import MeshNode.Bytes

/-!
# Hexadecimal

Digests, keys and claim tokens are shown as two hexadecimal digits per byte, high half first.
Writing uses the lower-case digits; reading takes either case, and refuses a text of odd length or
with any other character. So the accepted spellings of a byte string are its written form and what
becomes it when letters are lowered.
-/

namespace MeshNode.Bytes

/-- The lower-case digit of a number below sixteen. -/
def hexDigit (n : Nat) : Char :=
  if n < 10 then Char.ofNat (48 + n) else Char.ofNat (87 + n)

/-- The number that a hexadecimal digit of either case stands for. -/
def hexValue? (c : Char) : Option Nat :=
  if '0' ≤ c ∧ c ≤ '9' then some (c.toNat - 48)
  else if 'a' ≤ c ∧ c ≤ 'f' then some (c.toNat - 87)
  else if 'A' ≤ c ∧ c ≤ 'F' then some (c.toNat - 55)
  else none

/-- The digits of a byte string. -/
def hexDigits : Bytes → List Char
  | [] => []
  | b :: rest => hexDigit (b.toNat / 16) :: hexDigit (b.toNat % 16) :: hexDigits rest

/-- Reads digits two by two. -/
def ofHexDigits? : List Char → Option Bytes
  | [] => some []
  | [_] => none
  | h :: l :: rest => do
    let high ← hexValue? h
    let low ← hexValue? l
    let tail ← ofHexDigits? rest
    return UInt8.ofNat (16 * high + low) :: tail

/-- The hexadecimal text of a byte string. -/
def toHex (b : Bytes) : String := String.ofList b.hexDigits

/-- The byte string that a hexadecimal text of either case stands for. -/
def ofHex? (s : String) : Option Bytes := ofHexDigits? s.toList

theorem hexValue?_hexDigit {n : Nat} (h : n < 16) : hexValue? (hexDigit n) = some n := by
  have hall : ∀ m : Fin 16, hexValue? (hexDigit m) = some m.val := by decide
  exact hall ⟨n, h⟩

@[simp] theorem ofHexDigits?_hexDigits (b : Bytes) : ofHexDigits? b.hexDigits = some b := by
  induction b with
  | nil => rfl
  | cons x rest ih =>
    have hlt : x.toNat < 256 := x.toNat_lt
    have hhigh : hexValue? (hexDigit (x.toNat / 16)) = some (x.toNat / 16) :=
      hexValue?_hexDigit (by omega)
    have hlow : hexValue? (hexDigit (x.toNat % 16)) = some (x.toNat % 16) :=
      hexValue?_hexDigit (by omega)
    have hjoin : UInt8.ofNat (16 * (x.toNat / 16) + x.toNat % 16) = x := by
      rw [show 16 * (x.toNat / 16) + x.toNat % 16 = x.toNat by omega, UInt8.ofNat_toNat]
    simp only [hexDigits, ofHexDigits?, hhigh, hlow, ih, bind, Option.bind, pure, hjoin]

@[simp] theorem ofHex?_toHex (b : Bytes) : ofHex? b.toHex = some b := by
  simp [ofHex?, toHex]

theorem toHex_injective {a b : Bytes} (h : a.toHex = b.toHex) : a = b := by
  have hread := congrArg ofHex? h
  simpa using hread

end MeshNode.Bytes
