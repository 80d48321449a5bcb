import Mathlib.Data.List.Forall2
import MeshNode.Json.Reader
import MeshNode.Proofs.Json.Layout
import MeshNode.Proofs.Keyed

/-!
# Values are read as they were written

A value is read back from its written form in any layout as that value, and nothing beyond its end
is touched, if the value is one that reading answers with: its numbers are integers of 64 bits, its
fields are in order, and it does not nest deeper than is read (`Readable`). What is proved of
elements and members is proved of any reader of them (`Reads`), so that it serves the typed readers
too.
-/

namespace MeshNode

namespace Json

/-! ### Elements and members -/

/-- A reader answers with `a` on the written form of `j`, in whatever layout and after whatever
blanks it stands, and whatever comes after it. -/
def Reads {α : Type} (r : Reader α) (j : Json) (a : α) : Prop :=
  ∀ (L : Layout) (depth : Nat) (blanks rest : Bytes), Blank blanks → Delimited rest →
    r (blanks ++ (j.write L depth ++ rest)) = .ok (a, rest)

section Steps

variable {L : Layout} {depth : Nat} {blanks : Bytes}

theorem nextElement_first (hblanks : Blank blanks) (j : Json) (rest : Bytes) :
    nextElement true (blanks ++ (j.write L depth ++ rest)) =
      .ok (true, j.write L depth ++ rest) := by
  obtain ⟨b, t, heq, hb⟩ := j.exists_write_eq L depth
  simp [nextElement, hblanks.skipBlanks_append, heq, hb.skipBlanks, hb.ne]

theorem nextElement_further (hblanks : Blank blanks) (j : Json) (rest : Bytes) :
    nextElement false (44 :: (blanks ++ (j.write L depth ++ rest))) =
      .ok (true, j.write L depth ++ rest) := by
  obtain ⟨b, t, heq, hb⟩ := j.exists_write_eq L depth
  have hcomma (s : Bytes) : skipBlanks (44 :: s) = 44 :: s := by simp [skipBlanks]
  simp [nextElement, hcomma, hblanks.skipBlanks_append, heq, hb.skipBlanks, hb.ne]

theorem nextElement_bracket (hblanks : Blank blanks) (first : Bool) (rest : Bytes) :
    nextElement first (blanks ++ 93 :: rest) = .ok (false, 93 :: rest) := by
  have hbracket : skipBlanks (93 :: rest) = 93 :: rest := by simp [skipBlanks]
  simp [nextElement, hblanks.skipBlanks_append, hbracket]

theorem nextMember_first (hblanks : Blank blanks) (name : String) (rest : Bytes) :
    nextMember true (blanks ++ (renderText name ++ rest)) = .ok (some name, rest) := by
  rw [renderText_append]
  simp [nextMember, hblanks.skipBlanks_append, skipBlanks, readString_escaped]

theorem nextMember_further (hblanks : Blank blanks) (name : String) (rest : Bytes) :
    nextMember false (44 :: (blanks ++ (renderText name ++ rest))) = .ok (some name, rest) := by
  rw [renderText_append]
  simp [nextMember, hblanks.skipBlanks_append, skipBlanks, readString_escaped]

theorem nextMember_brace (hblanks : Blank blanks) (first : Bool) (rest : Bytes) :
    nextMember first (blanks ++ 125 :: rest) = .ok (none, 125 :: rest) := by
  have hbrace : skipBlanks (125 :: rest) = 125 :: rest := by simp [skipBlanks]
  simp [nextMember, hblanks.skipBlanks_append, hbrace]

/-- The value of a member is read after the colon. -/
theorem readMemberValue_write {α : Type} {value : Reader α} {j : Json} {a : α}
    (h : Reads value j a) (name : String) {rest : Bytes} (hrest : Delimited rest) :
    readMemberValue name value (58 :: (L.gap ++ (j.write L depth ++ rest))) = .ok (a, rest) := by
  simp [readMemberValue, readColon, skipBlanks, h L depth L.gap rest L.gap_blank hrest,
    Except.mapError]

end Steps

/-- Nothing that is written after an element goes on with a number. -/
theorem delimited_writeItems (L : Layout) (depth : Nat) {blanks : Bytes} (hblanks : Blank blanks)
    (items : List Json) (rest : Bytes) :
    Delimited (writeItems L depth items ++ (blanks ++ 93 :: rest)) := by
  cases items with
  | nil =>
    rw [writeItems, List.nil_append]
    exact hblanks.delimited_append (delimited_bracket rest)
  | cons j items =>
    rw [writeItems]
    exact delimited_comma _

/-- Nothing that is written after a member goes on with a number. -/
theorem delimited_writeFields_append (L : Layout) (depth : Nat) (fields : List (String × Json))
    {rest : Bytes} (hrest : Delimited rest) : Delimited (writeFields L depth fields ++ rest) := by
  cases fields with
  | nil => exact hrest
  | cons f fields =>
    rw [writeFields]
    exact delimited_comma _

theorem delimited_writeFields (L : Layout) (depth : Nat) {blanks : Bytes} (hblanks : Blank blanks)
    (fields : List (String × Json)) (rest : Bytes) :
    Delimited (writeFields L depth fields ++ (blanks ++ 125 :: rest)) :=
  delimited_writeFields_append L depth fields (hblanks.delimited_append (delimited_brace rest))

/-- The elements after the first one are read up to the bracket. -/
theorem readElements_writeItems {α : Type} {element : Reader α} {items : List Json} {as : List α}
    (h : List.Forall₂ (Reads element) items as) {rounds : Nat} (hrounds : items.length < rounds)
    (index : Nat) (L : Layout) (depth : Nat) {blanks : Bytes} (hblanks : Blank blanks)
    (rest : Bytes) :
    readElements element rounds (index + 1) (writeItems L depth items ++ (blanks ++ 93 :: rest)) =
      .ok (as, 93 :: rest) := by
  induction h generalizing rounds index with
  | nil =>
    obtain ⟨rounds, rfl⟩ := Nat.exists_eq_succ_of_ne_zero (Nat.ne_of_gt hrounds)
    simp [writeItems, readElements, nextElement_bracket hblanks]
  | @cons j a items as hj hitems ih =>
    obtain ⟨rounds, rfl⟩ := Nat.exists_eq_succ_of_ne_zero (Nat.ne_of_gt (Nat.zero_lt_of_lt hrounds))
    -- A number ends where the comma or the bracket after it begins.
    have hvalue := hj L depth [] _ blank_nil
      (delimited_writeItems L depth hblanks items rest)
    have htail := ih (Nat.lt_of_succ_lt_succ hrounds) (index + 1)
    rw [List.nil_append] at hvalue
    rw [writeItems, List.cons_append, List.append_assoc, List.append_assoc]
    simp only [readElements, Nat.add_one_ne_zero, decide_false,
      nextElement_further (L.line_blank depth), hvalue, htail]

/-- The elements of an array are read up to its bracket. -/
theorem readElements_arr {α : Type} {element : Reader α} {items : List Json} {as : List α}
    (h : List.Forall₂ (Reads element) items as) (L : Layout) (depth : Nat) (rest : Bytes) :
    ∃ inside, (arr items).write L depth ++ rest = 91 :: inside ∧
      readElements element (inside.length + 1) 0 inside = .ok (as, 93 :: rest) := by
  cases h with
  | nil =>
    refine ⟨93 :: rest, by rw [write]; rfl, ?_⟩
    have hbracket := nextElement_bracket blank_nil true rest
    rw [List.nil_append] at hbracket
    simp [readElements, hbracket]
  | @cons j a items as hj hitems =>
    refine ⟨_, by rw [write, List.cons_append], ?_⟩
    simp only [List.append_assoc, List.cons_append, List.nil_append]
    -- There are as many rounds as bytes left, and every element takes at least one.
    generalize hlength : (L.line (depth + 1) ++ (j.write L (depth + 1) ++
      (writeItems L (depth + 1) items ++ (L.line depth ++ 93 :: rest)))).length = n
    have hrounds : items.length < n := by
      have hle := length_le_writeItems L (depth + 1) items
      rw [← hlength]
      simp only [List.length_append, List.length_cons]
      omega
    have hvalue := hj L (depth + 1) [] _ blank_nil (delimited_writeItems L
      (depth + 1) (L.line_blank depth) items rest)
    have htail := readElements_writeItems hitems hrounds 0 L (depth + 1)
      (L.line_blank depth) rest
    rw [List.nil_append] at hvalue
    simp only [readElements, decide_true, nextElement_first (L.line_blank (depth + 1)), hvalue,
      htail]

/-- The name of a member is kept and its value is read. -/
def ReadsMember {α : Type} (value : Reader α) (f : String × Json) (m : String × α) : Prop :=
  f.1 = m.1 ∧ Reads value f.2 m.2

/-- The members after the first one are read up to the brace. -/
theorem readMembers_writeFields {α : Type} {value : Reader α} {fields : List (String × Json)}
    {members : List (String × α)} (h : List.Forall₂ (ReadsMember value) fields members)
    {rounds : Nat} (hrounds : fields.length < rounds) (L : Layout) (depth : Nat) {blanks : Bytes}
    (hblanks : Blank blanks) (rest : Bytes) :
    readMembers value rounds false (writeFields L depth fields ++ (blanks ++ 125 :: rest)) =
      .ok (members, 125 :: rest) := by
  induction h generalizing rounds with
  | nil =>
    obtain ⟨rounds, rfl⟩ := Nat.exists_eq_succ_of_ne_zero (Nat.ne_of_gt hrounds)
    simp [writeFields, readMembers, nextMember_brace hblanks]
  | @cons f m fields members hf hfields ih =>
    obtain ⟨rounds, rfl⟩ := Nat.exists_eq_succ_of_ne_zero (Nat.ne_of_gt (Nat.zero_lt_of_lt hrounds))
    obtain ⟨name, j⟩ := f
    obtain ⟨_, a⟩ := m
    obtain ⟨rfl, hvalue⟩ := hf
    have hdelimited := delimited_writeFields L depth hblanks fields rest
    have htail := ih (Nat.lt_of_succ_lt_succ hrounds)
    rw [writeFields, List.cons_append, List.append_assoc, List.append_assoc, List.cons_append,
      List.append_assoc, List.append_assoc]
    simp only [readMembers, nextMember_further (L.line_blank depth),
      readMemberValue_write hvalue _ hdelimited, htail]

/-- The members of an object are read up to its brace. -/
theorem readMembers_obj {α : Type} {value : Reader α} {fields : List (String × Json)}
    {members : List (String × α)} (h : List.Forall₂ (ReadsMember value) fields members)
    (L : Layout) (depth : Nat) (rest : Bytes) :
    ∃ inside, (obj fields).write L depth ++ rest = 123 :: inside ∧
      readMembers value (inside.length + 1) true inside = .ok (members, 125 :: rest) := by
  cases h with
  | nil =>
    refine ⟨125 :: rest, by rw [write]; rfl, ?_⟩
    have hbrace := nextMember_brace blank_nil true rest
    rw [List.nil_append] at hbrace
    simp [readMembers, hbrace]
  | @cons f m fields members hf hfields =>
    obtain ⟨name, j⟩ := f
    obtain ⟨_, a⟩ := m
    obtain ⟨rfl, hvalue⟩ := hf
    refine ⟨_, by rw [write, List.cons_append], ?_⟩
    simp only [List.append_assoc, List.cons_append, List.nil_append]
    generalize hlength : (L.line (depth + 1) ++ (renderText name ++ 58 :: (L.gap ++
      (j.write L (depth + 1) ++ (writeFields L (depth + 1) fields ++
        (L.line depth ++ 125 :: rest)))))).length = n
    have hrounds : fields.length < n := by
      have hle := length_le_writeFields L (depth + 1) fields
      rw [← hlength]
      simp only [List.length_append, List.length_cons]
      omega
    have hdelimited := delimited_writeFields L (depth + 1) (L.line_blank depth) fields
      rest
    have htail := readMembers_writeFields hfields hrounds L (depth + 1) (L.line_blank depth) rest
    simp only [readMembers, nextMember_first (L.line_blank (depth + 1)),
      readMemberValue_write hvalue _ hdelimited, htail]

@[simp] theorem endArray_ok {α : Type} (a : α) (rest : Bytes) :
    endArray (.ok (a, 93 :: rest)) = .ok (a, rest) := rfl

@[simp] theorem endObject_ok {α : Type} (a : α) (rest : Bytes) :
    endObject (.ok (a, 125 :: rest)) = .ok (a, rest) := rfl

/-! ### Values -/

/-- Values that reading answers with: integers of 64 bits are the only numbers, fields are in order,
and no more than the given number of arrays and objects stand inside each other. -/
inductive Readable : (levels : Nat) → Json → Prop where
  | null {levels : Nat} : Readable levels .null
  | bool {levels : Nat} {b : Bool} : Readable levels (.bool b)
  | int {levels : Nat} {n : Int} (hrange : Number.InRange n) : Readable levels (.num (.int n))
  | str {levels : Nat} {s : String} : Readable levels (.str s)
  | arr {levels : Nat} {items : List Json} (hitems : ∀ j ∈ items, Readable levels j) :
      Readable (levels + 1) (.arr items)
  | obj {levels : Nat} {fields : List (String × Json)} (hsorted : Keyed.Sorted fields)
      (hfields : ∀ f ∈ fields, Readable levels f.2) : Readable (levels + 1) (.obj fields)

section Dispatch

variable (collect : List (String × Json) → List (String × Json)) (levels : Nat) (rest : Bytes)

/-- Blanks before a value do not matter. -/
theorem readTree_blank {blanks : Bytes} (hblanks : Blank blanks) :
    readTree collect levels (blanks ++ rest) = readTree collect levels rest := by
  rw [readTree.eq_def, readTree.eq_def collect levels rest]
  simp only [hblanks.skipBlanks_append]

theorem readTree_minus :
    readTree collect levels (45 :: rest) = mapRead .num (readNumber false rest) := by
  cases levels <;> rfl

theorem readTree_digit {d : UInt8} (hd : Decimal.isDigit d = true) :
    readTree collect levels (d :: rest) = mapRead .num (readNumber true (d :: rest)) := by
  have hne : d ≠ 110 ∧ d ≠ 116 ∧ d ≠ 102 ∧ d ≠ 45 := by
    refine ⟨?_, ?_, ?_, ?_⟩ <;> rintro rfl <;> revert hd <;> decide
  have hstarts : Starts d := by simp [Starts, hd]
  rw [readTree.eq_def]
  simp only [hstarts.skipBlanks, hne, hd, if_true, if_false]

theorem readTree_quote :
    readTree collect levels (34 :: rest) = mapRead .str (readString rest) := by
  cases levels <;> rfl

theorem readTree_bracket :
    readTree collect (levels + 1) (91 :: rest) =
      endArray (mapRead .arr
        (readElements (readTree collect levels) (rest.length + 1) 0 rest)) := rfl

theorem readTree_brace :
    readTree collect (levels + 1) (123 :: rest) =
      endObject (mapRead (fun ms => .obj (collect ms))
        (readMembers (readTree collect levels) (rest.length + 1) true rest)) := rfl

end Dispatch

/-- An integer of 64 bits is read as it was written. -/
theorem reads_int (collect : List (String × Json) → List (String × Json)) (levels : Nat) {n : Int}
    (hrange : Number.InRange n) :
    Reads (readTree collect levels) (.num (.int n)) (.num (.int n)) := by
  intro L depth blanks rest hblanks hrest
  rw [readTree_blank _ _ _ hblanks, write, renderNumber]
  rcases readNumber_ofInt hrange hrest with ⟨d, t, heq, hd, hread⟩ | ⟨t, heq, hread⟩
  · rw [heq, readTree_digit _ _ _ hd, hread]
    rfl
  · rw [heq, readTree_minus, hread]
    rfl

/-- Minus zero is read as it was written. -/
theorem reads_minusZero (collect : List (String × Json) → List (String × Json)) (levels : Nat) :
    Reads (readTree collect levels) (.num (.float minusZero)) (.num (.float minusZero)) := by
  intro L depth blanks rest hblanks hrest
  obtain ⟨t, heq, hread⟩ := readNumber_minusZero hrest
  rw [readTree_blank _ _ _ hblanks, write, heq, readTree_minus, hread]
  rfl

/-- A text is read as it was written. -/
theorem reads_str (collect : List (String × Json) → List (String × Json)) (levels : Nat)
    (s : String) : Reads (readTree collect levels) (.str s) (.str s) := by
  intro L depth blanks rest hblanks _
  rw [readTree_blank _ _ _ hblanks, write, renderText_append, readTree_quote, readString_escaped]
  rfl

/-- The elements of an array are read as they were written, if each of them is. -/
theorem reads_arr {levels : Nat} {items : List Json}
    (h : ∀ j ∈ items, Reads (readValue levels) j j) :
    Reads (readValue (levels + 1)) (.arr items) (.arr items) := by
  intro L depth blanks rest hblanks _
  have hall : List.Forall₂ (Reads (readTree Keyed.ofList levels)) items items :=
    List.forall₂_same.mpr h
  obtain ⟨inside, hwrite, hread⟩ := readElements_arr hall L depth rest
  rw [readValue, readTree_blank _ _ _ hblanks, hwrite, readTree_bracket, hread, mapRead,
    endArray_ok]

/-- The fields of an object are read as they were written, if each of them is and they are in
order: they are collected by their names, which leaves them as they are then. -/
theorem reads_obj {levels : Nat} {fields : List (String × Json)} (hsorted : Keyed.Sorted fields)
    (h : ∀ f ∈ fields, Reads (readValue levels) f.2 f.2) :
    Reads (readValue (levels + 1)) (.obj fields) (.obj fields) := by
  intro L depth blanks rest hblanks _
  have hall : List.Forall₂ (ReadsMember (readTree Keyed.ofList levels)) fields fields :=
    List.forall₂_same.mpr fun f hf => ⟨rfl, h f hf⟩
  obtain ⟨inside, hwrite, hread⟩ := readMembers_obj hall L depth rest
  rw [readValue, readTree_blank _ _ _ hblanks, hwrite, readTree_brace, hread, mapRead,
    endObject_ok, Keyed.ofList_of_sorted hsorted]

/-- Null is read as it was written. -/
theorem reads_null (levels : Nat) : Reads (readValue levels) .null .null := by
  intro L depth blanks rest hblanks _
  rw [readValue, readTree_blank _ _ _ hblanks, readTree.eq_def, write]
  rfl

/-- A truth value is read as it was written. -/
theorem reads_truth (levels : Nat) (b : Bool) : Reads (readValue levels) (.bool b) (.bool b) := by
  intro L depth blanks rest hblanks _
  rw [readValue, readTree_blank _ _ _ hblanks, readTree.eq_def, write]
  cases b <;> rfl

/-- **Values are read as they were written**, and what comes after them is left. -/
theorem Readable.reads {levels : Nat} {j : Json} (h : Readable levels j) :
    Reads (readValue levels) j j := by
  induction h with
  | null => exact reads_null _
  | bool => exact reads_truth _ _
  | int hrange => exact reads_int Keyed.ofList _ hrange
  | str => exact reads_str Keyed.ofList _ _
  | arr _ ih => exact reads_arr ih
  | obj hsorted _ ih => exact reads_obj hsorted ih

/-- A text that holds a value and nothing else is read as what the reader answers with. -/
theorem readAll_write {α : Type} {r : Reader α} {j : Json} {a : α} (h : Reads r j a) (L : Layout)
    (depth : Nat) : readAll r (j.write L depth) = .ok a := by
  have hread := h L depth [] [] blank_nil delimited_nil
  rw [List.nil_append, List.append_nil] at hread
  simp [readAll, hread, skipBlanks]

/-- A text that holds a value and nothing else is read as that value. -/
theorem ofBytes_render {j : Json} (h : Readable maxDepth j) : ofBytes j.render = .ok j := by
  rw [ofBytes, ← write_compact 0 j, readAll_write h.reads]

end Json

end MeshNode
