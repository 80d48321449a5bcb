import MeshNode.Decimal

/-!
# What decimal texts determine

A number can be read off its digits, and an integer off its decimal text: the minus sign is no
digit, so a negative number is never written like another one. Decimal texts hold digits and the
minus sign alone, which is why a separator can be put before one.
-/

namespace MeshNode.Decimal

/-- Different numbers have different digits. -/
theorem digits_injective {m n : Nat} (h : digits m = digits n) : m = n := by
  have hvalue := congrArg value h
  rwa [value_digits, value_digits] at hvalue

/-- No digits hold a byte that is not a digit. -/
theorem notMem_digits {b : UInt8} (hb : isDigit b = false) (n : Nat) : b ∉ digits n := by
  intro hmem
  rw [isDigit_of_mem_digits hmem] at hb
  exact Bool.noConfusion hb

/-- Different integers have different texts. -/
theorem ofInt_injective {m n : Int} (h : ofInt m = ofInt n) : m = n := by
  have hsign (k : Nat) (l : Bytes) : digits k ≠ 45 :: l := fun heq =>
    notMem_digits (b := 45) (by decide) k (heq ▸ List.mem_cons_self)
  cases m with
  | ofNat m =>
    cases n with
    | ofNat n => exact congrArg Int.ofNat (digits_injective h)
    | negSucc n => exact absurd h (hsign m _)
  | negSucc m =>
    cases n with
    | ofNat n => exact absurd h.symm (hsign n _)
    | negSucc n =>
      have hsucc : m + 1 = n + 1 := digits_injective (List.cons.inj h).2
      exact congrArg Int.negSucc (Nat.succ.inj hsucc)

/-- A decimal text holds neither a byte that is no digit nor, but for the minus sign, any other. -/
theorem notMem_ofInt {b : UInt8} (hb : isDigit b = false) (hsign : b ≠ 45) (n : Int) :
    b ∉ ofInt n := by
  cases n with
  | ofNat n => exact notMem_digits hb n
  | negSucc n =>
    rw [ofInt, List.mem_cons, not_or]
    exact ⟨hsign, notMem_digits hb (n + 1)⟩

end MeshNode.Decimal
