import MeshNode.Proofs.Json.Answers

/-!
# The compact form determines the value

Two values without doubles have the same compact form only if they are the same value, whatever
their texts and names hold and however deep they are (`Integral.render_inj`). This asks nothing of
what a reader accepts: the fields need not be in order, nor the integers have 64 bits.

What is proved by induction is more: where two forms are followed by something that goes on with no
number, as in every array and object, they end at the same place (`Told`). A text ends at its
quote, a number at its last digit, and the elements of an array or the members of an object at the
closing bracket, because no element starts with a comma or a bracket that closes.
-/

namespace MeshNode.Json

variable {β : Type} {rest rest' : Bytes}

/-- The written forms of two things are told apart, and from what follows them. -/
def Told (write : β → Bytes) (x y : β) : Prop :=
  ∀ rest rest', Delimited rest → Delimited rest' → write x ++ rest = write y ++ rest' →
    x = y ∧ rest = rest'

/-! ### Scalars -/

/-- A text ends at its quote. -/
theorem renderText_append_inj {s t : String} (h : renderText s ++ rest = renderText t ++ rest') :
    s = t ∧ rest = rest' := by
  rw [renderText_append, renderText_append] at h
  have hread := congrArg readString (List.cons.inj h).2
  rw [readString_escaped, readString_escaped] at hread
  exact Prod.mk.inj (Except.ok.inj hread)

/-- A number ends at its last digit. -/
theorem told_digits (m n : Nat) : Told Decimal.digits m n := by
  intro rest rest' hrest hrest' h
  have hspan := congrArg spanDigits h
  rw [spanDigits_append (fun _ => Decimal.isDigit_of_mem_digits) hrest,
    spanDigits_append (fun _ => Decimal.isDigit_of_mem_digits) hrest'] at hspan
  obtain ⟨hdigits, hrests⟩ := Prod.mk.inj hspan
  exact ⟨Decimal.digits_injective hdigits, hrests⟩

theorem told_ofInt (m n : Int) : Told Decimal.ofInt m n := by
  intro rest rest' hrest hrest' h
  -- Only negative numbers start with a minus sign.
  have hsign (k : Nat) (s t : Bytes) : Decimal.digits k ++ s ≠ 45 :: t := by
    obtain ⟨d, ds, heq, hd⟩ := exists_digits_eq k
    rw [heq, List.cons_append]
    rintro ⟨⟩
    exact absurd hd (by decide)
  cases m with
  | ofNat m =>
    cases n with
    | ofNat n => exact (told_digits m n _ _ hrest hrest' h).imp_left (congrArg Int.ofNat)
    | negSucc n => exact absurd h (hsign m _ _)
  | negSucc m =>
    cases n with
    | ofNat n => exact absurd h.symm (hsign n _ _)
    | negSucc n =>
      obtain ⟨hsucc, hrests⟩ := told_digits (m + 1) (n + 1) _ _ hrest hrest' (List.cons.inj h).2
      exact ⟨congrArg Int.negSucc (Nat.succ.inj hsucc), hrests⟩

/-! ### Lists -/

/-- The byte closes an array or an object. -/
def Closes (b : UInt8) : Prop := b = 93 ∨ b = 125

theorem Closes.ne_comma {close : UInt8} (h : Closes close) : close ≠ 44 := by
  rcases h with rfl | rfl <;> decide

theorem Closes.delimited {close : UInt8} (h : Closes close) (rest : Bytes) :
    Delimited (close :: rest) := by
  rcases h with rfl | rfl
  · exact delimited_bracket rest
  · exact delimited_brace rest

variable {write : β → Bytes} {close : UInt8}

/-- What follows an element goes on with no number. -/
theorem Closes.delimited_flatMap (h : Closes close) (xs : List β) (rest : Bytes) :
    Delimited ((xs.flatMap fun x => 44 :: write x) ++ close :: rest) := by
  cases xs with
  | nil => exact h.delimited rest
  | cons x xs => exact delimited_comma _

/-- Elements after a comma each are told apart, and from what follows the closing bracket. -/
theorem flatMap_comma_inj (hclose : Closes close) {xs ys : List β}
    (htold : ∀ x ∈ xs, ∀ y ∈ ys, Told write x y)
    (h : (xs.flatMap fun x => 44 :: write x) ++ close :: rest =
      (ys.flatMap fun y => 44 :: write y) ++ close :: rest') : xs = ys ∧ rest = rest' := by
  induction xs generalizing ys with
  | nil =>
    cases ys with
    | nil => exact ⟨rfl, (List.cons.inj h).2⟩
    | cons y ys => exact absurd (List.cons.inj h).1 hclose.ne_comma
  | cons x xs ih =>
    cases ys with
    | nil => exact absurd (List.cons.inj h).1.symm hclose.ne_comma
    | cons y ys =>
      simp only [List.flatMap_cons, List.cons_append, List.append_assoc, List.cons.injEq,
        true_and] at h
      obtain ⟨rfl, hfurther⟩ := htold x List.mem_cons_self y List.mem_cons_self _ _
        (hclose.delimited_flatMap xs rest) (hclose.delimited_flatMap ys rest') h
      obtain ⟨rfl, hrests⟩ := ih (fun x' hx y' hy =>
        htold x' (List.mem_cons_of_mem x hx) y' (List.mem_cons_of_mem x hy)) hfurther
      exact ⟨rfl, hrests⟩

/-- The elements between two brackets are told apart. The first one has no comma before it. -/
theorem elements_inj (hclose : Closes close) {writeAll : List β → Bytes}
    (hnil : writeAll [] = [])
    (hcons : ∀ x xs, writeAll (x :: xs) = write x ++ xs.flatMap fun x => 44 :: write x)
    (hstart : ∀ x, ∃ b t, write x = b :: t ∧ b ≠ close) {xs ys : List β}
    (htold : ∀ x ∈ xs, ∀ y ∈ ys, Told write x y)
    (h : writeAll xs ++ close :: rest = writeAll ys ++ close :: rest') :
    xs = ys ∧ rest = rest' := by
  have hempty (x : β) (xs : List β) (s t : Bytes) : writeAll (x :: xs) ++ s ≠ close :: t := by
    obtain ⟨b, form, heq, hb⟩ := hstart x
    rw [hcons, heq]
    exact fun hhead => hb (List.cons.inj hhead).1
  cases xs with
  | nil =>
    cases ys with
    | nil =>
      rw [hnil] at h
      exact ⟨rfl, (List.cons.inj h).2⟩
    | cons y ys =>
      rw [hnil] at h
      exact absurd h.symm (hempty y ys _ _)
  | cons x xs =>
    cases ys with
    | nil =>
      rw [hnil] at h
      exact absurd h (hempty x xs _ _)
    | cons y ys =>
      -- A comma before either first element makes it one of the further ones.
      refine flatMap_comma_inj hclose htold ?_
      simpa [hcons] using h

/-! ### Values -/

/-- Which kind of value a byte starts, counted in the order of the declaration. -/
def kindOf (b : UInt8) : Nat :=
  if b = 110 then 0
  else if b = 116 ∨ b = 102 then 1
  else if b = 34 then 3
  else if b = 91 then 4
  else if b = 123 then 5
  else 2

/-- The first byte of a value tells its kind. -/
theorem exists_render_eq (j : Json) : ∃ b t, j.render = b :: t ∧ kindOf b = j.ctorIdx := by
  cases j with
  | null => exact ⟨110, _, by rw [render]; rfl, rfl⟩
  | bool b => cases b <;> exact ⟨_, _, by rw [render]; rfl, rfl⟩
  | num n =>
    obtain ⟨b, t, heq, hb⟩ := exists_renderNumber_eq n
    refine ⟨b, t, by rw [render, heq], ?_⟩
    have hne (c : UInt8) (hc : c ≠ 45 ∧ Decimal.isDigit c = false) : b ≠ c := by
      rintro rfl
      rcases hb with hb | hb
      · exact hc.1 hb
      · exact absurd hb (by rw [hc.2]; decide)
    simp [kindOf, hne, Json.ctorIdx, Decimal.isDigit]
  | str s => exact ⟨34, _, by rw [render, renderText]; rfl, rfl⟩
  | arr items => exact ⟨91, _, by rw [render]; rfl, rfl⟩
  | obj fields => exact ⟨123, _, by rw [render]; rfl, rfl⟩

/-- Values of different kinds are told apart. -/
theorem told_of_ctorIdx_ne {j j' : Json} (hne : j.ctorIdx ≠ j'.ctorIdx) : Told render j j' := by
  intro rest rest' _ _ h
  obtain ⟨b, t, heq, hb⟩ := exists_render_eq j
  obtain ⟨b', t', heq', hb'⟩ := exists_render_eq j'
  rw [heq, heq'] at h
  exact absurd (hb.symm.trans ((congrArg kindOf (List.cons.inj h).1).trans hb')) hne

theorem told_null : Told render .null .null :=
  fun _ _ _ _ h => ⟨rfl, List.append_cancel_left h⟩

theorem told_bool (b c : Bool) : Told render (.bool b) (.bool c) := by
  intro rest rest' _ _ h
  rw [render, render] at h
  cases b <;> cases c
  case false.false | true.true => exact ⟨rfl, List.append_cancel_left h⟩
  -- The first letters differ.
  case false.true | true.false => exact absurd (List.cons.inj h).1 (by decide)

theorem told_int (m n : Int) : Told render (.int m) (.int n) := by
  intro rest rest' hrest hrest' h
  rw [render, render] at h
  exact (told_ofInt m n rest rest' hrest hrest' h).imp_left (congrArg Json.int)

theorem told_str (s t : String) : Told render (.str s) (.str t) := by
  intro rest rest' _ _ h
  rw [render, render] at h
  exact (renderText_append_inj h).imp_left (congrArg Json.str)

/-- The elements of an array. -/
theorem told_arr {items items' : List Json}
    (htold : ∀ j ∈ items, ∀ j' ∈ items', Told render j j') :
    Told render (.arr items) (.arr items') := by
  intro rest rest' _ _ h
  have hstart (j : Json) : ∃ b t, render j = b :: t ∧ b ≠ 93 := by
    obtain ⟨b, t, heq, hb⟩ := exists_write_eq .compact 0 j
    exact ⟨b, t, by rw [← write_compact 0, heq], hb.ne.2.1⟩
  simp only [render, List.cons_append, List.append_assoc, List.cons.injEq, true_and,
    List.nil_append] at h
  exact (elements_inj (.inl rfl) rfl renderItems_cons hstart htold h).imp_left (congrArg Json.arr)

/-- The name and the value of a member. -/
theorem told_renderMember {f g : String × Json} (htold : Told render f.2 g.2) :
    Told renderMember f g := by
  intro rest rest' hrest hrest' h
  simp only [renderMember, List.append_assoc, List.cons_append] at h
  obtain ⟨hname, hvalue⟩ := renderText_append_inj h
  obtain ⟨hvalue, hrests⟩ := htold _ _ hrest hrest' (List.cons.inj hvalue).2
  exact ⟨Prod.ext hname hvalue, hrests⟩

/-- The members of an object. -/
theorem told_obj {fields fields' : List (String × Json)}
    (htold : ∀ f ∈ fields, ∀ f' ∈ fields', Told render f.2 f'.2) :
    Told render (.obj fields) (.obj fields') := by
  intro rest rest' _ _ h
  have hstart (f : String × Json) : ∃ b t, renderMember f = b :: t ∧ b ≠ 125 :=
    ⟨34, _, rfl, by decide⟩
  simp only [render, List.cons_append, List.append_assoc, List.cons.injEq, true_and,
    List.nil_append] at h
  exact (elements_inj (.inr rfl) rfl renderFields_cons hstart
    (fun f hf f' hf' => told_renderMember (htold f hf f' hf')) h).imp_left (congrArg Json.obj)

/-- **Values without doubles are told apart**, and from what follows them. -/
theorem Integral.told {j : Json} (h : j.Integral) {j' : Json} (h' : j'.Integral) :
    Told render j j' := by
  induction h generalizing j' with
  | null =>
    cases h' with
    | null => exact told_null
    | _ => exact told_of_ctorIdx_ne nofun
  | bool =>
    cases h' with
    | bool => exact told_bool _ _
    | _ => exact told_of_ctorIdx_ne nofun
  | int =>
    cases h' with
    | int => exact told_int _ _
    | _ => exact told_of_ctorIdx_ne nofun
  | str =>
    cases h' with
    | str => exact told_str _ _
    | _ => exact told_of_ctorIdx_ne nofun
  | arr _ ih =>
    cases h' with
    | arr hitems => exact told_arr fun j hj j' hj' => ih j hj (hitems j' hj')
    | _ => exact told_of_ctorIdx_ne nofun
  | obj _ ih =>
    cases h' with
    | obj hfields => exact told_obj fun f hf f' hf' => ih f hf (hfields f' hf')
    | _ => exact told_of_ctorIdx_ne nofun

/-- **The compact form determines the value**, among values without doubles. -/
theorem Integral.render_inj {j j' : Json} (h : j.Integral) (h' : j'.Integral) :
    j.render = j'.render ↔ j = j' := by
  refine ⟨fun heq => ?_, congrArg render⟩
  exact (h.told h' [] [] delimited_nil delimited_nil (congrArg (· ++ []) heq)).1

end MeshNode.Json
