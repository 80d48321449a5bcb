import Mathlib.Data.String.Basic
import Mathlib.Tactic.SplitIfs
import MeshNode.Bytes

/-!
# Texts and their bytes

The bytes of a text are those of its characters, one after the other. A character of ASCII is one
byte, below 128, and every byte of any other character is 128 or more. So the bytes below 128 in a
text are its ASCII characters, and a byte string of nothing but those is the text with a character
for each byte.

The encodings of characters are ordered as the characters are, and none begins another. So texts
and their bytes have the same order.
-/

namespace MeshNode.Bytes

/-- The bytes of a text are those of its characters. -/
theorem ofText_ofList (cs : List Char) :
    ofText (String.ofList cs) = cs.flatMap String.utf8EncodeChar := by
  simp [ofText, List.utf8Encode]

theorem ofText_eq_flatMap (s : String) : ofText s = s.toList.flatMap String.utf8EncodeChar := by
  rw [← ofText_ofList, String.ofList_toList]

/-- A character of ASCII is one byte. -/
theorem utf8EncodeChar_of_lt {c : Char} (hc : c.toNat < 128) :
    String.utf8EncodeChar c = [UInt8.ofNat c.toNat] :=
  if_pos (Nat.le_of_lt_succ hc)

/-- No byte of another character is one of ASCII. -/
theorem le_of_mem_utf8EncodeChar {c : Char} (hc : 128 ≤ c.toNat) {b : UInt8}
    (hb : b ∈ String.utf8EncodeChar c) : 128 ≤ b := by
  have hv : ¬ c.val.toNat ≤ 0x7f := Nat.not_le.mpr hc
  simp only [String.utf8EncodeChar, if_neg hv] at hb
  rw [UInt8.le_iff_toNat_le]
  split at hb
  · simp only [List.mem_cons, List.not_mem_nil, or_false] at hb
    rcases hb with rfl | rfl <;> simp only [UInt8.toNat_ofNat'] <;> simp <;> omega
  · split at hb
    · simp only [List.mem_cons, List.not_mem_nil, or_false] at hb
      rcases hb with rfl | rfl | rfl <;> simp only [UInt8.toNat_ofNat'] <;> simp <;> omega
    · simp only [List.mem_cons, List.not_mem_nil, or_false] at hb
      rcases hb with rfl | rfl | rfl | rfl <;> simp only [UInt8.toNat_ofNat'] <;> simp <;> omega

/-- The character of a byte of ASCII is that byte. -/
theorem utf8EncodeChar_ofNat {b : UInt8} (hb : b < 128) :
    String.utf8EncodeChar (Char.ofNat b.toNat) = [b] := by
  have hall : ∀ n : Fin 128, String.utf8EncodeChar (Char.ofNat n.val) = [UInt8.ofNat n.val] := by
    decide
  have hbyte := hall ⟨b.toNat, hb⟩
  rwa [UInt8.ofNat_toNat] at hbyte

/-- The text with a character for each byte has these bytes, if they are all of ASCII. -/
theorem ofText_map_ofNat {bs : Bytes} (hbs : ∀ b ∈ bs, b < 128) :
    ofText (String.ofList (bs.map fun b => Char.ofNat b.toNat)) = bs := by
  rw [ofText_ofList, List.flatMap_map]
  induction bs with
  | nil => rfl
  | cons b bs ih =>
    rw [List.flatMap_cons, utf8EncodeChar_ofNat (hbs b List.mem_cons_self),
      ih fun c hc => hbs c (List.mem_cons_of_mem b hc)]
    rfl

/-! ### Bytes that are a text -/

/-- The bytes are those of some text. -/
def IsText (b : Bytes) : Prop := ∃ s, ofText s = b

theorem isText_ofText (s : String) : IsText (ofText s) := ⟨s, rfl⟩

theorem IsText.append {a b : Bytes} (ha : IsText a) (hb : IsText b) : IsText (a ++ b) := by
  obtain ⟨s, rfl⟩ := ha
  obtain ⟨t, rfl⟩ := hb
  exact ⟨s ++ t, ofText_append s t⟩

theorem isText_of_lt {bs : Bytes} (hbs : ∀ b ∈ bs, b < 128) : IsText bs :=
  ⟨_, ofText_map_ofNat hbs⟩

theorem isText_of_all {bs : Bytes} (h : bs.all (· < 128) = true) : IsText bs :=
  isText_of_lt fun b hb => of_decide_eq_true (List.all_eq_true.mp h b hb)

theorem IsText.cons {b : UInt8} {bs : Bytes} (hb : b < 128) (hbs : IsText bs) :
    IsText (b :: bs) := by
  have hone : IsText [b] := isText_of_lt fun c hc => List.mem_singleton.mp hc ▸ hb
  exact hone.append hbs

/-- The text of such bytes has these bytes. -/
theorem IsText.ofText_getD {b : Bytes} (h : IsText b) : ofText ((text? b).getD "") = b := by
  obtain ⟨s, rfl⟩ := h
  rw [text?_ofText, Option.getD_some]

/-! ### Order -/

private theorem ofNat_lt_ofNat_iff {m n : Nat} :
    UInt8.ofNat m < UInt8.ofNat n ↔ m % 256 < n % 256 := by
  rw [UInt8.lt_iff_toNat_lt, UInt8.toNat_ofNat', UInt8.toNat_ofNat']

private theorem ofNat_eq_ofNat_iff {m n : Nat} :
    UInt8.ofNat m = UInt8.ofNat n ↔ m % 256 = n % 256 := by
  rw [← UInt8.toNat_inj, UInt8.toNat_ofNat', UInt8.toNat_ofNat']

/-- The bytes of a smaller character come first, whatever follows. -/
theorem utf8EncodeChar_append_lt {c d : Char} (h : c < d) (x y : Bytes) :
    String.utf8EncodeChar c ++ x < String.utf8EncodeChar d ++ y := by
  have hlt : c.val.toNat < d.val.toNat := h
  have hmax : d.val.toNat < 0x110000 := by
    rcases d.valid with hd | ⟨-, hd⟩
    · exact hd.trans (by decide)
    · exact hd
  -- The digits of a character are taken off one after the other.
  have hthird (n : Nat) : n / 4096 = n / 64 / 64 := by rw [Nat.div_div_eq_div_mul]
  have hfourth (n : Nat) : n / 262144 = n / 64 / 64 / 64 := by
    rw [Nat.div_div_eq_div_mul, Nat.div_div_eq_div_mul]
  simp only [String.utf8EncodeChar, hthird, hfourth]
  generalize c.val.toNat = m at *
  generalize d.val.toNat = n at *
  split_ifs <;> simp only [List.cons_append, List.nil_append, List.cons_lt_cons_iff,
    ofNat_lt_ofNat_iff, ofNat_eq_ofNat_iff] <;> omega

/-- **Texts in increasing order have their bytes in increasing order.** -/
theorem ofText_lt_ofText {s t : String} (h : s < t) : ofText s < ofText t := by
  rw [String.lt_iff_toList_lt] at h
  rw [ofText_eq_flatMap, ofText_eq_flatMap]
  generalize s.toList = cs at h
  generalize t.toList = ds at h
  induction cs generalizing ds with
  | nil =>
    rcases ds with _ | ⟨d, ds⟩
    · exact absurd h (List.not_lt_nil _)
    · rw [List.flatMap_nil, List.flatMap_cons]
      rcases hbytes : String.utf8EncodeChar d with _ | ⟨b, bs⟩
      · exact absurd hbytes String.utf8EncodeChar_ne_nil
      · exact List.nil_lt_cons _ _
  | cons c cs ih =>
    rcases ds with _ | ⟨d, ds⟩
    · exact absurd h (List.not_lt_nil _)
    · rw [List.flatMap_cons, List.flatMap_cons]
      rcases List.cons_lt_cons_iff.mp h with hlt | ⟨rfl, hlt⟩
      · exact utf8EncodeChar_append_lt hlt _ _
      · exact List.append_left_lt (ih ds hlt)

end MeshNode.Bytes
