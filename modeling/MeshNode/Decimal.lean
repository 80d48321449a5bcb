import MeshNode.Bytes

/-!
# Decimal digits

The decimal text of a natural number and of an integer, as bytes, and the number that a run of
digits stands for. A written number has no leading zero, except for zero itself.
-/

namespace MeshNode.Decimal

/-- Whether a byte is a decimal digit. -/
def isDigit (b : UInt8) : Bool := 48 ≤ b && b ≤ 57

/-- The number that a digit stands for. -/
def digitValue (b : UInt8) : Nat := b.toNat - 48

/-- The digit of a number below ten. -/
def digit (n : Nat) : UInt8 := UInt8.ofNat (48 + n)

/-- The digits of a number, most significant first. -/
def digits (n : Nat) : Bytes :=
  if n < 10 then [digit n] else digits (n / 10) ++ [digit (n % 10)]
termination_by n
decreasing_by omega

/-- The number that a run of digits stands for. -/
def value (ds : Bytes) : Nat := ds.foldl (fun n d => 10 * n + digitValue d) 0

/-- The text of an integer: a minus sign before the digits of a negative one. -/
def ofInt : Int → Bytes
  | .ofNat n => digits n
  | .negSucc n => 45 :: digits (n + 1)

theorem digitValue_digit {n : Nat} (h : n < 10) : digitValue (digit n) = n := by
  have hall : ∀ m : Fin 10, digitValue (digit m) = m.val := by decide
  exact hall ⟨n, h⟩

theorem isDigit_digit {n : Nat} (h : n < 10) : isDigit (digit n) = true := by
  have hall : ∀ m : Fin 10, isDigit (digit m) = true := by decide
  exact hall ⟨n, h⟩

@[simp] theorem value_digits (n : Nat) : value (digits n) = n := by
  rw [digits]
  split
  · simp [value, digitValue_digit ‹_›]
  · have ih := value_digits (n / 10)
    simp only [value, List.foldl_append, List.foldl_cons, List.foldl_nil] at ih ⊢
    rw [ih, digitValue_digit (by omega)]
    omega
termination_by n
decreasing_by omega

theorem isDigit_of_mem_digits {n : Nat} {d : UInt8} (h : d ∈ digits n) : isDigit d = true := by
  rw [digits] at h
  split at h
  · simp only [List.mem_singleton] at h
    exact h ▸ isDigit_digit ‹_›
  · simp only [List.mem_append, List.mem_singleton] at h
    rcases h with h | rfl
    · exact isDigit_of_mem_digits h
    · exact isDigit_digit (by omega)
termination_by n
decreasing_by omega

theorem digits_ne_nil (n : Nat) : digits n ≠ [] := by
  rw [digits]; split <;> simp

end MeshNode.Decimal
