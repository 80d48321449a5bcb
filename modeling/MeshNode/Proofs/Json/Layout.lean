import MeshNode.Proofs.Json.Scalars

/-!
# Layouts

The compact and the indented form of a value differ in blanks alone: those at the start of the line
of an element, a field or a closing bracket, and those after a colon. A `Layout` says which blanks
stand there, and `write` writes a value in a layout. What is proved of values in any layout is
proved of both forms.
-/

namespace MeshNode

namespace Json

/-! ### Blanks -/

/-- Nothing but blanks. -/
def Blank (s : Bytes) : Prop := ∀ b ∈ s, b = 32 ∨ b = 10 ∨ b = 9 ∨ b = 13

theorem blank_nil : Blank [] := fun _ hb => absurd hb List.not_mem_nil

/-- Blanks at the front are dropped. -/
theorem Blank.skipBlanks_append {blanks : Bytes} (h : Blank blanks) (s : Bytes) :
    skipBlanks (blanks ++ s) = skipBlanks s := by
  induction blanks with
  | nil => rfl
  | cons b blanks ih =>
    rw [List.cons_append, skipBlanks, if_pos (h b List.mem_cons_self),
      ih fun c hc => h c (List.mem_cons_of_mem b hc)]

/-- No number goes on after blanks if none goes on without them. -/
theorem Blank.delimited_append {blanks rest : Bytes} (h : Blank blanks) (hrest : Delimited rest) :
    Delimited (blanks ++ rest) := by
  cases blanks with
  | nil => exact hrest
  | cons b blanks =>
    rcases h b List.mem_cons_self with rfl | rfl | rfl | rfl <;>
      exact delimited_cons (by decide) (by decide)

/-! ### Layouts -/

/-- Which blanks stand between the parts of a value. -/
structure Layout where
  /-- What stands at the start of a line that is at a given depth. -/
  line : Nat → Bytes
  /-- What stands after a colon. -/
  gap : Bytes
  line_blank : ∀ depth, Blank (line depth)
  gap_blank : Blank gap

namespace Layout

/-- No blanks. -/
def compact : Layout := ⟨fun _ => [], [], fun _ => blank_nil, blank_nil⟩

/-- A line for every element and field, two spaces deeper than what holds it. -/
def indented : Layout where
  line := newline
  gap := [32]
  line_blank depth b hb := by
    rcases List.mem_cons.mp hb with rfl | hb
    · exact Or.inr (Or.inl rfl)
    · exact Or.inl (List.eq_of_mem_replicate hb)
  gap_blank b hb := Or.inl (List.mem_singleton.mp hb)

end Layout

mutual

/-- A value in a layout, at a given depth. -/
def write (L : Layout) (depth : Nat) : Json → Bytes
  | null => renderNull
  | bool b => renderBool b
  | num n => renderNumber n
  | str s => renderText s
  | arr [] => [91, 93]
  | arr (j :: items) =>
    91 :: (L.line (depth + 1) ++ (write L (depth + 1) j ++ (writeItems L (depth + 1) items ++
      (L.line depth ++ [93]))))
  | obj [] => [123, 125]
  | obj ((name, j) :: fields) =>
    123 :: (L.line (depth + 1) ++ (renderText name ++ 58 :: (L.gap ++ (write L (depth + 1) j ++
      (writeFields L (depth + 1) fields ++ (L.line depth ++ [125]))))))

/-- Further values, each after a comma. -/
def writeItems (L : Layout) (depth : Nat) : List Json → Bytes
  | [] => []
  | j :: items => 44 :: (L.line depth ++ (write L depth j ++ writeItems L depth items))

/-- Further fields, each after a comma. -/
def writeFields (L : Layout) (depth : Nat) : List (String × Json) → Bytes
  | [] => []
  | (name, j) :: fields =>
    44 :: (L.line depth ++ (renderText name ++ 58 :: (L.gap ++ (write L depth j ++
      writeFields L depth fields))))

end

/-! ### The two forms -/

/-- Elements after the first one are written after a comma each. -/
theorem renderItems_cons (j : Json) (items : List Json) :
    renderItems (j :: items) = j.render ++ items.flatMap fun j => 44 :: j.render := by
  induction items generalizing j with
  | nil => simp [renderItems]
  | cons i items ih => rw [renderItems, ih, List.flatMap_cons, List.cons_append]; simp

/-- A member as it is written. -/
def renderMember (f : String × Json) : Bytes := renderText f.1 ++ 58 :: f.2.render

/-- Members after the first one are written after a comma each. -/
theorem renderFields_cons (f : String × Json) (fields : List (String × Json)) :
    renderFields (f :: fields) =
      renderMember f ++ fields.flatMap fun f => 44 :: renderMember f := by
  induction fields generalizing f with
  | nil => simp [renderFields, renderMember]
  | cons g fields ih =>
    rw [renderFields, ih, List.flatMap_cons]
    · simp [renderMember]
    · simp

/-- An object is as long as its members with a comma each, and one more byte. -/
theorem length_render_obj (f : String × Json) (fields : List (String × Json)) :
    (obj (f :: fields)).render.length =
      ((f :: fields).flatMap fun f => 44 :: renderMember f).length + 1 := by
  rw [render, renderFields_cons, List.flatMap_cons]
  simp only [List.cons_append, List.length_cons, List.length_append, List.length_nil]

/-- The order of the members does not matter to the length. -/
theorem length_render_obj_of_perm {fields fields' : List (String × Json)}
    (h : fields.Perm fields') : (obj fields).render.length = (obj fields').render.length := by
  cases fields with
  | nil => rw [h.nil_eq]
  | cons f fields =>
    cases fields' with
    | nil => exact absurd h.symm.nil_eq (List.cons_ne_nil f fields).symm
    | cons g fields' =>
      rw [length_render_obj, length_render_obj, (h.flatMap_right _).length_eq]

mutual

/-- The compact form is that of the layout without blanks. -/
theorem write_compact (depth : Nat) : (j : Json) → j.write .compact depth = j.render
  | null | bool _ | num _ | str _ => by rw [write, render]
  | arr [] => by rw [write, render, renderItems]; rfl
  | arr (j :: items) => by
    rw [write, render, renderItems_cons, write_compact (depth + 1) j,
      writeItems_compact (depth + 1) items]
    simp [Layout.compact]
  | obj [] => by rw [write, render, renderFields]; rfl
  | obj ((name, j) :: fields) => by
    rw [write, render, renderFields_cons, renderMember, write_compact (depth + 1) j,
      writeFields_compact (depth + 1) fields]
    simp [Layout.compact]

theorem writeItems_compact (depth : Nat) : (items : List Json) →
    writeItems .compact depth items = items.flatMap fun j => 44 :: j.render
  | [] => by rw [writeItems, List.flatMap_nil]
  | j :: items => by
    rw [writeItems, List.flatMap_cons, write_compact depth j, writeItems_compact depth items]
    simp [Layout.compact]

theorem writeFields_compact (depth : Nat) : (fields : List (String × Json)) →
    writeFields .compact depth fields = fields.flatMap fun f => 44 :: renderMember f
  | [] => by rw [writeFields, List.flatMap_nil]
  | (name, j) :: fields => by
    rw [writeFields, List.flatMap_cons, write_compact depth j, writeFields_compact depth fields]
    simp [Layout.compact, renderMember]

end

mutual

/-- The indented form is that of the layout with a line for every element. -/
theorem write_indented (depth : Nat) : (j : Json) → j.write .indented depth = renderIndented depth j
  | null | bool _ | num _ | str _ => by rw [write, renderIndented]
  | arr [] | obj [] => by rw [write, renderIndented]
  | arr (j :: items) => by
    rw [write, renderIndented, write_indented (depth + 1) j, writeItems_indented (depth + 1) items]
    simp [Layout.indented]
  | obj ((name, j) :: fields) => by
    rw [write, renderIndented, write_indented (depth + 1) j,
      writeFields_indented (depth + 1) fields]
    simp [Layout.indented]

theorem writeItems_indented (depth : Nat) : (items : List Json) →
    writeItems .indented depth items = renderIndentedItems depth items
  | [] => by rw [writeItems, renderIndentedItems]
  | j :: items => by
    rw [writeItems, renderIndentedItems, write_indented depth j, writeItems_indented depth items]
    simp [Layout.indented]

theorem writeFields_indented (depth : Nat) : (fields : List (String × Json)) →
    writeFields .indented depth fields = renderIndentedFields depth fields
  | [] => by rw [writeFields, renderIndentedFields]
  | (name, j) :: fields => by
    rw [writeFields, renderIndentedFields, write_indented depth j,
      writeFields_indented depth fields]
    simp [Layout.indented]

end

/-! ### The first byte of a value -/

/-- The layout of a decimal starts with a digit. -/
theorem exists_layoutDecimal_eq (n : Nat) (e : Int) :
    ∃ d t, layoutDecimal (Decimal.digits n) e = d :: t ∧ Decimal.isDigit d = true := by
  obtain ⟨d, ds, heq, hd⟩ := exists_digits_eq n
  rw [heq]
  simp only [layoutDecimal]
  split
  · exact ⟨d, _, rfl, hd⟩
  · split
    · exact ⟨d, _, rfl, hd⟩
    · split
      · exact ⟨48, _, rfl, by decide⟩
      · cases ds <;> exact ⟨d, _, rfl, hd⟩

/-- The written form of a number starts with a minus sign or a digit. -/
theorem exists_renderNumber_eq (n : Number) :
    ∃ b t, renderNumber n = b :: t ∧ (b = 45 ∨ Decimal.isDigit b = true) := by
  cases n with
  | int n =>
    cases n with
    | ofNat n =>
      obtain ⟨d, ds, heq, hd⟩ := exists_digits_eq n
      exact ⟨d, ds, heq, Or.inr hd⟩
    | negSucc n => exact ⟨45, _, rfl, Or.inl rfl⟩
  | float bits =>
    simp only [renderNumber, renderFloat]
    split
    · split
      · exact ⟨48, _, rfl, Or.inr (by decide)⟩
      · obtain ⟨d, t, heq, hd⟩ := exists_layoutDecimal_eq _ _
        exact ⟨d, t, heq, Or.inr hd⟩
    · exact ⟨45, _, rfl, Or.inl rfl⟩

/-- The written form of a value starts with a byte that a value can start with. -/
theorem exists_write_eq (L : Layout) (depth : Nat) (j : Json) :
    ∃ b t, j.write L depth = b :: t ∧ Starts b := by
  cases j with
  | null => exact ⟨110, _, by rw [write]; rfl, by simp [Starts]⟩
  | bool b => cases b <;> exact ⟨_, _, by rw [write]; rfl, by simp [Starts]⟩
  | num n =>
    obtain ⟨b, t, heq, hb⟩ := exists_renderNumber_eq n
    refine ⟨b, t, by rw [write, heq], ?_⟩
    rcases hb with rfl | hb <;> simp [Starts, *]
  | str s => exact ⟨34, _, by rw [write, renderText]; rfl, by simp [Starts]⟩
  | arr items => cases items <;> exact ⟨91, _, by rw [write], by simp [Starts]⟩
  | obj fields =>
    rcases fields with _ | ⟨⟨name, j⟩, fields⟩ <;> exact ⟨123, _, by rw [write], by simp [Starts]⟩

theorem writeFields_append (L : Layout) (depth : Nat) (before after : List (String × Json)) :
    writeFields L depth (before ++ after) =
      writeFields L depth before ++ writeFields L depth after := by
  induction before with
  | nil => rw [writeFields, List.nil_append, List.nil_append]
  | cons f before ih => simp [writeFields, ih]

/-! ### Lengths -/

/-- There are at most as many further elements as bytes. -/
theorem length_le_writeItems (L : Layout) (depth : Nat) (items : List Json) :
    items.length ≤ (writeItems L depth items).length := by
  induction items with
  | nil => exact Nat.zero_le _
  | cons j items ih =>
    simp only [writeItems, List.length_cons, List.length_append]
    omega

/-- There are at most as many further members as bytes. -/
theorem length_le_writeFields (L : Layout) (depth : Nat) (fields : List (String × Json)) :
    fields.length ≤ (writeFields L depth fields).length := by
  induction fields with
  | nil => exact Nat.zero_le _
  | cons f fields ih =>
    simp only [writeFields, List.length_cons, List.length_append]
    omega

end Json

end MeshNode
