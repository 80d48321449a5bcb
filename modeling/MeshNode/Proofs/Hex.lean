import Mathlib.Data.String.Basic
import Mathlib.Tactic.SplitIfs
import MeshNode.Bytes.Hex

/-!
# Hexadecimal spellings

Either case of a digit stands for the same number, so a text and the text with its letters lowered
are read as the same bytes. And what is read is spelled by these bytes once its letters are lowered:
two characters that both have a value are the digits of one byte. So a byte string is read from its
written form and from what becomes it when letters are lowered, and from nothing else
(`ofHex?_eq_some_iff`).
-/

namespace MeshNode.Bytes

/-! ### Digits -/

/-- What holds of all characters of ASCII can be checked one by one. -/
theorem forall_ascii {P : Char → Prop} (h : ∀ n : Fin 128, P (Char.ofNat n)) {c : Char}
    (hc : c.toNat < 128) : P c := by
  have hchar := h ⟨c.toNat, hc⟩
  rwa [Char.ofNat_toNat] at hchar

/-- Only characters of ASCII are digits. -/
theorem lt_of_hexValue? {c : Char} {n : Nat} (h : hexValue? c = some n) : c.toNat < 128 := by
  have hle {a b : Char} (ha : a ≤ b) : a.toNat ≤ b.toNat := ha
  unfold hexValue? at h
  split_ifs at h with hdigit hlower hupper
  · exact (hle hdigit.2).trans_lt (by decide)
  · exact (hle hlower.2).trans_lt (by decide)
  · exact (hle hupper.2).trans_lt (by decide)

/-- The digit of the number that a character stands for is the character in lower case. -/
theorem toLower_of_hexValue? {c : Char} {n : Nat} (h : hexValue? c = some n) :
    n < 16 ∧ c.toLower = hexDigit n := by
  have hall : ∀ n ∈ hexValue? c, n < 16 ∧ c.toLower = hexDigit n :=
    forall_ascii (P := fun c => ∀ n ∈ hexValue? c, n < 16 ∧ c.toLower = hexDigit n)
      (by decide) (lt_of_hexValue? h)
  exact hall n h

/-- Lowering a letter changes no value. -/
theorem hexValue?_toLower (c : Char) : hexValue? c.toLower = hexValue? c := by
  by_cases hupper : c.val ≥ 'A'.val ∧ c.val ≤ 'Z'.val
  · have hle : c.toNat ≤ 'Z'.toNat := hupper.2
    exact forall_ascii (P := fun c => hexValue? c.toLower = hexValue? c) (by decide)
      (hle.trans_lt (by decide))
  · have hsame : c.toLower = c := dif_neg hupper
    rw [hsame]

/-! ### Texts -/

theorem ofHexDigits?_map_toLower (cs : List Char) :
    ofHexDigits? (cs.map Char.toLower) = ofHexDigits? cs := by
  fun_induction ofHexDigits? cs with
  | case1 => rfl
  | case2 => rfl
  | case3 h l rest ih =>
    simp only [List.map_cons, ofHexDigits?, hexValue?_toLower, ih]

/-- Digits that are read are those of the bytes that they stand for, with their letters lowered. -/
theorem map_toLower_of_ofHexDigits? {cs : List Char} {b : Bytes} (h : ofHexDigits? cs = some b) :
    cs.map Char.toLower = b.hexDigits := by
  fun_induction ofHexDigits? cs generalizing b with
  | case1 =>
    obtain rfl := Option.some.inj h
    rfl
  | case2 => cases h
  | case3 high low rest ih =>
    cases hhigh : hexValue? high with
    | none => simp [hhigh, bind, Option.bind] at h
    | some m =>
    cases hlow : hexValue? low with
    | none => simp [hhigh, hlow, bind, Option.bind] at h
    | some n =>
    cases hrest : ofHexDigits? rest with
    | none => simp [hhigh, hlow, hrest, bind, Option.bind] at h
    | some tail =>
      simp only [hhigh, hlow, hrest, bind, Option.bind, pure] at h
      obtain rfl := Option.some.inj h
      obtain ⟨hm, hhigh⟩ := toLower_of_hexValue? hhigh
      obtain ⟨hn, hlow⟩ := toLower_of_hexValue? hlow
      have hbyte : (UInt8.ofNat (16 * m + n)).toNat = 16 * m + n :=
        UInt8.toNat_ofNat_of_lt' (by show _ < 256; omega)
      have hfirst : (16 * m + n) / 16 = m := by omega
      have hsecond : (16 * m + n) % 16 = n := by omega
      rw [List.map_cons, List.map_cons, hhigh, hlow, ih hrest, hexDigits, hbyte, hfirst, hsecond]

/-- **A byte string is read from its written form and from what becomes it when letters are
lowered.** -/
theorem ofHex?_eq_some_iff {s : String} {b : Bytes} : ofHex? s = some b ↔ s.toLower = b.toHex := by
  have hlower : s.toLower.toList = s.toList.map Char.toLower := String.toList_map
  rw [← String.toList_inj, toHex, String.toList_ofList, hlower]
  constructor
  · exact map_toLower_of_ofHexDigits?
  · intro h
    rw [ofHex?, ← ofHexDigits?_map_toLower, h, ofHexDigits?_hexDigits]

end MeshNode.Bytes
