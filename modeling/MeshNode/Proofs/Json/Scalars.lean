import Mathlib.Data.List.TakeDrop
import Mathlib.Tactic.SplitIfs
import MeshNode.Json.Printer
import MeshNode.Json.Scalar
import MeshNode.Proofs.Decimal

/-!
# Scalars are read as they were written

The readers of numbers and strings answer with what the printer wrote and leave what comes after
it, whatever that is. A string ends at its quote. A number ends where nothing follows that goes on
with it, which is so for everything that can stand after a value (`Delimited`).
-/

namespace MeshNode

namespace Json

/-! ### Where a value ends -/

/-- No number goes on at the front of the bytes. -/
def Delimited (rest : Bytes) : Prop :=
  ∀ b ∈ rest.head?, Decimal.isDigit b = false ∧ b ≠ 46 ∧ b ≠ 101 ∧ b ≠ 69

theorem delimited_nil : Delimited [] := fun _ hb => absurd hb (Option.not_mem_none _)

theorem delimited_cons {b : UInt8} {rest : Bytes} (hdigit : Decimal.isDigit b = false)
    (hb : b ≠ 46 ∧ b ≠ 101 ∧ b ≠ 69) : Delimited (b :: rest) := by
  rintro c hc
  obtain rfl : b = c := Option.some.inj hc
  exact ⟨hdigit, hb⟩

theorem delimited_comma (rest : Bytes) : Delimited (44 :: rest) :=
  delimited_cons (by decide) (by decide)

theorem delimited_bracket (rest : Bytes) : Delimited (93 :: rest) :=
  delimited_cons (by decide) (by decide)

theorem delimited_brace (rest : Bytes) : Delimited (125 :: rest) :=
  delimited_cons (by decide) (by decide)

/-- A value can start with the byte. -/
def Starts (b : UInt8) : Prop :=
  b = 110 ∨ b = 116 ∨ b = 102 ∨ b = 45 ∨ Decimal.isDigit b = true ∨ b = 34 ∨ b = 91 ∨ b = 123

/-- What a value starts with is no blank. -/
theorem Starts.skipBlanks {b : UInt8} (h : Starts b) (rest : Bytes) :
    skipBlanks (b :: rest) = b :: rest := by
  have hblank : ¬ (b = 32 ∨ b = 10 ∨ b = 9 ∨ b = 13) := by
    rintro (rfl | rfl | rfl | rfl) <;> revert h <;> simp [Starts, Decimal.isDigit]
  rw [Json.skipBlanks, if_neg hblank]

/-- Once blanks are skipped there are none left in front. -/
theorem skipBlanks_skipBlanks (s : Bytes) : skipBlanks (skipBlanks s) = skipBlanks s := by
  induction s with
  | nil => rfl
  | cons b rest ih =>
    by_cases hb : b = 32 ∨ b = 10 ∨ b = 9 ∨ b = 13
    · simp only [skipBlanks, if_pos hb, ih]
    · simp only [skipBlanks, if_neg hb]

/-- What a value starts with separates and closes nothing. -/
theorem Starts.ne {b : UInt8} (h : Starts b) : b ≠ 44 ∧ b ≠ 93 ∧ b ≠ 125 := by
  refine ⟨?_, ?_, ?_⟩ <;> rintro rfl <;> revert h <;> simp [Starts, Decimal.isDigit]

/-! ### Numbers -/

/-- The digits are split off up to where the number ends. -/
theorem spanDigits_append {ds rest : Bytes} (hds : ∀ d ∈ ds, Decimal.isDigit d = true)
    (hrest : Delimited rest) : spanDigits (ds ++ rest) = (ds, rest) := by
  rw [spanDigits, List.span_eq_takeWhile_dropWhile, List.takeWhile_append_of_pos hds,
    List.dropWhile_append_of_pos hds]
  cases rest with
  | nil => simp
  | cons b rest => simp [(hrest b rfl).1]

/-- Digits are appended as long as the number fits a word. -/
theorem appendDigits_of_le {ds : Bytes} {n : Nat}
    (h : ds.foldl (fun n d => 10 * n + Decimal.digitValue d) n ≤ maxWord) :
    appendDigits n ds = (ds.foldl (fun n d => 10 * n + Decimal.digitValue d) n, []) := by
  induction ds generalizing n with
  | nil => rfl
  | cons d ds ih =>
    have hgrows (ds : Bytes) (m : Nat) :
        m ≤ ds.foldl (fun n d => 10 * n + Decimal.digitValue d) m := by
      induction ds generalizing m with
      | nil => exact Nat.le_refl m
      | cons d ds ih =>
        have hm : m ≤ 10 * m + Decimal.digitValue d := by omega
        exact Nat.le_trans hm (ih _)
    have hnext : 10 * n + Decimal.digitValue d ≤ maxWord := Nat.le_trans (hgrows ds _) h
    rw [appendDigits, if_pos hnext, ih h]
    rfl

/-- A number without a fraction or an exponent is an integer. -/
theorem readAfterDigits_of_delimited (positive : Bool) (n : Nat) {rest : Bytes}
    (hrest : Delimited rest) :
    readAfterDigits positive n [] rest = .ok (finishInteger positive n, rest) := by
  cases rest with
  | nil => rfl
  | cons b rest =>
    obtain ⟨-, hpoint, he, hE⟩ := hrest b rfl
    unfold readAfterDigits
    split
    · exact absurd (List.cons.inj ‹_›).1 hpoint
    · split
      · exact absurd (List.cons.inj ‹_›).1 he
      · exact absurd (List.cons.inj ‹_›).1 hE
      · rfl
      · exact absurd rfl ‹_›

/-- A number other than zero does not start with a zero. -/
theorem exists_digits_eq_cons {n : Nat} (hn : n ≠ 0) :
    ∃ d ds, Decimal.digits n = d :: ds ∧ d ≠ 48 := by
  rw [Decimal.digits]
  split
  · have hall : ∀ m : Fin 10, m.val ≠ 0 → Decimal.digit m.val ≠ 48 := by decide
    exact ⟨_, _, rfl, hall ⟨n, ‹_›⟩ hn⟩
  · obtain ⟨d, ds, heq, hd⟩ := exists_digits_eq_cons (n := n / 10) (by omega)
    exact ⟨d, ds ++ [Decimal.digit (n % 10)], by rw [heq]; rfl, hd⟩
termination_by n
decreasing_by omega

/-- The digits of a number that fits a word are read as that number. -/
theorem readNumber_digits (positive : Bool) {n : Nat} (hn : n ≤ maxWord) {rest : Bytes}
    (hrest : Delimited rest) :
    readNumber positive (Decimal.digits n ++ rest) = .ok (finishInteger positive n, rest) := by
  by_cases hzero : n = 0
  · subst hzero
    have hdigits : Decimal.digits 0 = [48] := by rw [Decimal.digits]; rfl
    rw [hdigits, ← readAfterDigits_of_delimited positive 0 hrest]
    cases rest with
    | nil => rfl
    | cons b rest => simp [readNumber, (hrest b rfl).1]
  · obtain ⟨d, ds, heq, hd⟩ := exists_digits_eq_cons hzero
    have hall : ∀ c ∈ d :: ds, Decimal.isDigit c = true := fun c hc =>
      Decimal.isDigit_of_mem_digits (heq ▸ hc)
    have hvalue :
        ds.foldl (fun n d => 10 * n + Decimal.digitValue d) (Decimal.digitValue d) = n := by
      rw [← Decimal.value_digits n, heq, Decimal.value, List.foldl_cons, Nat.mul_zero, Nat.zero_add]
    have happend := appendDigits_of_le (hvalue ▸ hn : _ ≤ maxWord)
    rw [hvalue] at happend
    have hspan := spanDigits_append (fun c hc => hall c (List.mem_cons_of_mem d hc)) hrest
    rw [heq, List.cons_append]
    simp only [readNumber, if_neg hd, if_pos (hall d List.mem_cons_self), hspan, happend]
    exact readAfterDigits_of_delimited positive n hrest

/-- The digits of a number start with a digit. -/
theorem exists_digits_eq (n : Nat) :
    ∃ d ds, Decimal.digits n = d :: ds ∧ Decimal.isDigit d = true := by
  obtain ⟨d, ds, heq⟩ := List.exists_cons_of_ne_nil (Decimal.digits_ne_nil n)
  exact ⟨d, ds, heq, Decimal.isDigit_of_mem_digits (heq ▸ List.mem_cons_self)⟩

/-- An integer of 64 bits is read as it was written, by its first digit or after its sign. -/
theorem readNumber_ofInt {n : Int} (hrange : Number.InRange n) {rest : Bytes}
    (hrest : Delimited rest) :
    (∃ d t, Decimal.ofInt n ++ rest = d :: t ∧ Decimal.isDigit d = true ∧
      readNumber true (d :: t) = .ok (.int n, rest)) ∨
    ∃ t, Decimal.ofInt n ++ rest = 45 :: t ∧ readNumber false t = .ok (.int n, rest) := by
  cases n with
  | ofNat n =>
    have hn : n ≤ maxWord := by
      have := hrange.2
      simp only [maxWord, Int.ofNat_eq_natCast] at this ⊢
      omega
    have hread := readNumber_digits true hn hrest
    obtain ⟨d, ds, heq, hd⟩ := exists_digits_eq n
    rw [heq, List.cons_append] at hread
    exact Or.inl ⟨d, ds ++ rest, by rw [Decimal.ofInt, heq, List.cons_append], hd, hread⟩
  | negSucc n =>
    have hn : n + 1 ≤ 0x8000000000000000 := by
      have := hrange.1
      simp only [Int.negSucc_eq] at this
      omega
    have hread := readNumber_digits false (n := n + 1) (by unfold maxWord; omega) hrest
    have hfinish : finishInteger false (n + 1) = .int (.negSucc n) := by
      rw [finishInteger, if_neg Bool.false_ne_true, if_neg (Nat.succ_ne_zero n), if_pos hn]
      rfl
    exact Or.inr ⟨_, by rw [Decimal.ofInt, List.cons_append], hread.trans (by rw [hfinish])⟩

/-- The bits of minus zero. An integer is minus zero only in a text, where it is read as this
double. -/
def minusZero : UInt64 := 0x8000000000000000

/-- Minus zero is read as it was written. -/
theorem readNumber_minusZero {rest : Bytes} (hrest : Delimited rest) :
    ∃ t, renderNumber (.float minusZero) ++ rest = 45 :: t ∧
      readNumber false t = .ok (.float minusZero, rest) := by
  have hrender : renderNumber (.float minusZero) = [45, 48, 46, 48] := rfl
  have hfinish (s : Bytes) : finishFloat false 0 (-1) s = .ok (.float minusZero, s) := by
    have hscale : scale? 0 (-1) = some 0.0 := rfl
    have hsign : signed false 0.0 = .float minusZero := rfl
    simp only [finishFloat, hscale, hsign]
  have hzero : ∀ d ∈ ([48] : Bytes), Decimal.isDigit d = true :=
    List.forall_mem_singleton.mpr rfl
  have hspan : spanDigits ([48] ++ rest) = ([48], rest) := spanDigits_append hzero hrest
  refine ⟨48 :: 46 :: 48 :: rest, by rw [hrender]; rfl, ?_⟩
  have hfraction : readFraction false 0 0 (48 :: rest) = .ok (.float minusZero, rest) := by
    rw [List.singleton_append] at hspan
    simp only [readFraction, hspan]
    unfold readOptionalExponent
    split
    · exact absurd rfl (hrest _ rfl).2.2.1
    · exact absurd rfl (hrest _ rfl).2.2.2
    · exact hfinish rest
  exact hfraction

/-! ### Strings -/

/-- An escape is read as the byte that was escaped, and every other byte as it stands. -/
theorem readStringBytes_escapeByte (rounds : Nat) (reversed : Bytes) (b : UInt8) (rest : Bytes) :
    readStringBytes (rounds + 1) reversed (escapeByte b ++ rest) =
      readStringBytes rounds (b :: reversed) rest := by
  unfold escapeByte
  cases hletter : escapeLetter? b with
  | some letter =>
    have hescape : readEscape (letter :: rest) = .ok ([b], rest) := by
      unfold escapeLetter? at hletter
      split_ifs at hletter <;> subst_vars <;> cases hletter <;> rfl
    simp [readStringBytes, hescape]
  | none =>
    by_cases hcontrol : b < 32
    · have hquad : ∀ n : Fin 32,
          hexQuad? 48 48 (escapeDigit (n.val / 16)) (escapeDigit (n.val % 16)) = some n.val ∧
            String.utf8EncodeChar (Char.ofNat n.val) = [UInt8.ofNat n.val] := by decide
      obtain ⟨hhex, hbyte⟩ := hquad ⟨b.toNat, hcontrol⟩
      rw [UInt8.ofNat_toNat] at hbyte
      have hlow : ¬ (0xDC00 ≤ b.toNat ∧ b.toNat ≤ 0xDFFF) := by
        have := b.toNat_lt; omega
      have hhigh : ¬ (0xD800 ≤ b.toNat ∧ b.toNat ≤ 0xDBFF) := by
        have := b.toNat_lt; omega
      have hescape : readEscape (117 :: 48 :: 48 :: escapeDigit (b.toNat / 16) ::
          escapeDigit (b.toNat % 16) :: rest) = .ok ([b], rest) := by
        simp only [readEscape, readHexQuad, hhex, if_neg hlow, if_neg hhigh, hbyte]
      simp [readStringBytes, hcontrol, hescape]
    · have hquote : b ≠ 34 := by rintro rfl; exact absurd hletter (by decide)
      have hslash : b ≠ 92 := by rintro rfl; exact absurd hletter (by decide)
      simp [readStringBytes, hcontrol, hquote, hslash]

/-- The bytes of a string are read back, in as many rounds as it has bytes, and one more. -/
theorem readStringBytes_flatMap {bytes : Bytes} {rounds : Nat} (hrounds : bytes.length < rounds)
    (reversed rest : Bytes) :
    readStringBytes rounds reversed (bytes.flatMap escapeByte ++ 34 :: rest) =
      .ok (reversed.reverse ++ bytes, rest) := by
  induction bytes generalizing rounds reversed with
  | nil =>
    obtain ⟨rounds, rfl⟩ := Nat.exists_eq_succ_of_ne_zero (Nat.ne_of_gt hrounds)
    simp [readStringBytes]
  | cons b bytes ih =>
    obtain ⟨rounds, rfl⟩ := Nat.exists_eq_succ_of_ne_zero (Nat.ne_of_gt (Nat.zero_lt_of_lt hrounds))
    rw [List.flatMap_cons, List.append_assoc, Nat.succ_eq_add_one, readStringBytes_escapeByte,
      ih (Nat.lt_of_succ_lt_succ hrounds)]
    simp

theorem length_le_flatMap_escapeByte (bytes : Bytes) :
    bytes.length ≤ (bytes.flatMap escapeByte).length := by
  induction bytes with
  | nil => exact Nat.le_refl 0
  | cons b bytes ih =>
    have hone : 1 ≤ (escapeByte b).length := by
      unfold escapeByte
      split
      · simp
      · split <;> simp
    rw [List.flatMap_cons, List.length_append, List.length_cons]
    omega

/-- A string is read back after its opening quote. -/
theorem readString_escaped (s : String) (rest : Bytes) :
    readString ((Bytes.ofText s).flatMap escapeByte ++ 34 :: rest) = .ok (s, rest) := by
  have hrounds : (Bytes.ofText s).length <
      ((Bytes.ofText s).flatMap escapeByte ++ 34 :: rest).length + 1 := by
    have hle := length_le_flatMap_escapeByte (Bytes.ofText s)
    rw [List.length_append]
    omega
  simp only [readString, readStringBytes_flatMap hrounds, List.reverse_nil, List.nil_append,
    Bytes.text?_ofText]

/-- A written text starts with its quote. -/
theorem renderText_append (s : String) (rest : Bytes) :
    renderText s ++ rest = 34 :: ((Bytes.ofText s).flatMap escapeByte ++ 34 :: rest) := by
  simp [renderText]

end Json

end MeshNode
