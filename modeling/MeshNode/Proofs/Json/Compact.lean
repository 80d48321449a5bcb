import MeshNode.Proofs.Json.Values
import MeshNode.Proofs.Text

/-!
# The compact form is a text

Everything but the bytes of names and texts is written in ASCII, and of those bytes only ASCII is
escaped. So the compact form of any value is the encoding of a text, and `compact` has the bytes of
`render`.
-/

namespace MeshNode

namespace Json

/-! ### ASCII -/

theorem lt_of_mem_digits {n : Nat} {b : UInt8} (hb : b ∈ Decimal.digits n) : b < 128 := by
  have hdigit := Decimal.isDigit_of_mem_digits hb
  simp only [Decimal.isDigit, Bool.and_eq_true, decide_eq_true_eq] at hdigit
  exact UInt8.lt_of_le_of_lt hdigit.2 (by decide)

theorem lt_of_mem_ofInt {n : Int} {b : UInt8} (hb : b ∈ Decimal.ofInt n) : b < 128 := by
  cases n with
  | ofNat n => exact lt_of_mem_digits hb
  | negSucc n =>
    rcases List.mem_cons.mp hb with rfl | hb
    · decide
    · exact lt_of_mem_digits hb

theorem lt_of_mem_layoutDecimal {n : Nat} {e : Int} {b : UInt8}
    (hb : b ∈ layoutDecimal (Decimal.digits n) e) : b < 128 := by
  have hdigits {b : UInt8} : b ∈ Decimal.digits n → b < 128 := lt_of_mem_digits
  generalize Decimal.digits n = ds at hb hdigits
  simp only [layoutDecimal] at hb
  split at hb
  · simp only [List.mem_append, List.mem_replicate, List.mem_cons, List.not_mem_nil, or_false] at hb
    rcases hb with (hb | ⟨-, rfl⟩) | rfl | rfl
    · exact hdigits hb
    all_goals decide
  · split at hb
    · rcases List.mem_append.mp hb with hb | hb
      · exact hdigits (List.mem_of_mem_take hb)
      · rcases List.mem_cons.mp hb with rfl | hb
        · decide
        · exact hdigits (List.mem_of_mem_drop hb)
    · split at hb
      · simp only [List.cons_append, List.mem_append, List.mem_replicate, List.mem_cons] at hb
        rcases hb with rfl | rfl | ⟨-, rfl⟩ | hb
        · decide
        · decide
        · decide
        · exact hdigits hb
      · rcases List.mem_append.mp hb with hb | hb
        · split at hb
          · simp only [List.mem_cons] at hb
            rcases hb with rfl | rfl | rfl | hb
            · exact hdigits (by simp)
            · decide
            · exact hdigits (by simp)
            · exact hdigits (by simp [hb])
          · exact hdigits hb
        · rcases List.mem_cons.mp hb with rfl | hb
          · decide
          · split at hb
            · rcases List.mem_cons.mp hb with rfl | hb
              · decide
              · exact lt_of_mem_ofInt hb
            · exact lt_of_mem_ofInt hb

/-- Numbers are written in ASCII. -/
theorem lt_of_mem_renderNumber {n : Number} {b : UInt8} (hb : b ∈ renderNumber n) : b < 128 := by
  cases n with
  | int n => exact lt_of_mem_ofInt hb
  | float bits =>
    have hsign {m : Bytes} (hm : ∀ b ∈ m, b < 128)
        (hb : b ∈ if bits < 0x8000000000000000 then m else 45 :: m) : b < 128 := by
      split at hb
      · exact hm b hb
      · rcases List.mem_cons.mp hb with rfl | hb
        · decide
        · exact hm b hb
    simp only [renderNumber, renderFloat] at hb
    cases hv : Decimal.Dyadic.ofBits? bits with
    | none =>
      have hall : ([48, 46, 48] : Bytes).all (· < 128) = true := by decide
      simp only [hv] at hb
      exact hsign (fun b hb => of_decide_eq_true (List.all_eq_true.mp hall b hb)) hb
    | some v =>
      simp only [hv] at hb
      exact hsign (fun b hb => lt_of_mem_layoutDecimal hb) hb

/-- An escape is written in ASCII. -/
theorem lt_of_mem_escapeByte {b c : UInt8} (hb : b < 128) (hc : c ∈ escapeByte b) : c < 128 := by
  have hall : ∀ n : Fin 128, (escapeByte (UInt8.ofNat n.val)).all (· < 128) = true := by decide
  have hbyte := hall ⟨b.toNat, hb⟩
  rw [UInt8.ofNat_toNat] at hbyte
  exact of_decide_eq_true (List.all_eq_true.mp hbyte c hc)

/-- Only ASCII is escaped. -/
theorem escapeByte_of_le {b : UInt8} (hb : 128 ≤ b) : escapeByte b = [b] := by
  have hne (c : UInt8) (hc : c < 128) : b ≠ c := by
    rintro rfl
    exact absurd hc (UInt8.not_lt.mpr hb)
  have hcontrol : ¬ b < 32 := fun h => absurd (UInt8.lt_trans h (by decide)) (UInt8.not_lt.mpr hb)
  simp [escapeByte, escapeLetter?, hne, hcontrol]

/-! ### Texts -/

/-- The escaped bytes of a text are a text. -/
theorem isText_flatMap_escapeByte (s : String) :
    Bytes.IsText ((Bytes.ofText s).flatMap escapeByte) := by
  rw [Bytes.ofText_eq_flatMap, List.flatMap_assoc]
  induction s.toList with
  | nil => exact Bytes.isText_ofText ""
  | cons c cs ih =>
    rw [List.flatMap_cons]
    refine Bytes.IsText.append ?_ ih
    by_cases hc : c.toNat < 128
    · rw [Bytes.utf8EncodeChar_of_lt hc, List.flatMap_singleton]
      have hlt : UInt8.ofNat c.toNat < 128 := by
        rw [UInt8.lt_iff_toNat_lt, UInt8.toNat_ofNat']
        exact Nat.lt_of_le_of_lt (Nat.mod_le _ _) hc
      exact Bytes.isText_of_lt fun x => lt_of_mem_escapeByte hlt
    · have hplain : (String.utf8EncodeChar c).flatMap escapeByte = String.utf8EncodeChar c := by
        rw [List.flatMap_congr fun x hx =>
          escapeByte_of_le (Bytes.le_of_mem_utf8EncodeChar (Nat.le_of_not_lt hc) hx)]
        simp
      have hchar := Bytes.ofText_ofList [c]
      rw [List.flatMap_singleton] at hchar
      exact ⟨_, hchar.trans hplain.symm⟩

theorem isText_renderText (s : String) : Bytes.IsText (renderText s) := by
  rw [renderText]
  exact Bytes.IsText.append (Bytes.IsText.cons (by decide) (isText_flatMap_escapeByte s))
    (Bytes.isText_of_all (by decide))

/-- What is written after a comma each is a text, if each is one. -/
theorem isText_flatMap_comma {β : Type} {f : β → Bytes} {l : List β}
    (h : ∀ x ∈ l, Bytes.IsText (f x)) : Bytes.IsText (l.flatMap fun x => 44 :: f x) := by
  induction l with
  | nil => exact Bytes.isText_ofText ""
  | cons x l ih =>
    rw [List.flatMap_cons]
    exact Bytes.IsText.append (Bytes.IsText.cons (by decide) (h x List.mem_cons_self))
      (ih fun y hy => h y (List.mem_cons_of_mem x hy))

/-- **The compact form of a value is a text.** -/
theorem isText_render : (j : Json) → Bytes.IsText j.render
  | null => by rw [render]; exact Bytes.isText_of_all (by decide)
  | bool b => by rw [render]; cases b <;> exact Bytes.isText_of_all (by decide)
  | num n => by rw [render]; exact Bytes.isText_of_lt fun _ => lt_of_mem_renderNumber
  | str s => by rw [render]; exact isText_renderText s
  | arr items => by
    have hall : ∀ j ∈ items, Bytes.IsText j.render := fun j _ => isText_render j
    have hitems : Bytes.IsText (renderItems items) := by
      cases items with
      | nil => exact Bytes.isText_ofText ""
      | cons j items =>
        rw [renderItems_cons]
        exact (hall j List.mem_cons_self).append
          (isText_flatMap_comma fun i hi => hall i (List.mem_cons_of_mem j hi))
    rw [render]
    exact (hitems.cons (by decide)).append (Bytes.isText_of_all (by decide))
  | obj fields => by
    have hall : ∀ f ∈ fields, Bytes.IsText (renderMember f) := fun f hf => by
      have hsize : sizeOf f.2 < 1 + sizeOf fields := by
        have hmem := List.sizeOf_lt_of_mem hf
        have hpair : sizeOf f = 1 + sizeOf f.1 + sizeOf f.2 := rfl
        omega
      exact (isText_renderText f.1).append ((isText_render f.2).cons (by decide))
    have hfields : Bytes.IsText (renderFields fields) := by
      cases fields with
      | nil => exact Bytes.isText_ofText ""
      | cons f fields =>
        rw [renderFields_cons]
        exact (hall f List.mem_cons_self).append
          (isText_flatMap_comma fun g hg => hall g (List.mem_cons_of_mem f hg))
    rw [render]
    exact (hfields.cons (by decide)).append (Bytes.isText_of_all (by decide))

/-- The text of the compact form has the bytes of the compact form. -/
@[simp] theorem ofText_compact (j : Json) : Bytes.ofText j.compact = j.render :=
  j.isText_render.ofText_getD

/-- The compact form of a value is read as that value. -/
theorem ofBytes_compact {j : Json} (h : Readable maxDepth j) :
    ofBytes (.ofText j.compact) = .ok j := by
  rw [ofText_compact, ofBytes_render h]

end Json

end MeshNode
