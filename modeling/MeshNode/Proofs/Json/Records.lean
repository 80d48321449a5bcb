import MeshNode.Json.Decoder
import MeshNode.Proofs.Json.Values

/-!
# Typed values and records are read as they were written

The typed readers answer with what a value of the expected form stands for. A record is read from
the members that its fields ask for, in the order of their declaration, where a field that may be
absent need not have one (`Fields.ReadsMembers`). So the reader of a record with many fields is
dealt with field by field.
-/

namespace MeshNode.Json

namespace Decoder

variable {α β γ ρ : Type}

theorem reads_text (levels : Nat) (s : String) : Reads (text.read levels) (.str s) s := by
  intro L depth blanks rest hblanks _
  rw [write, renderText_append]
  simp [text, hblanks.skipBlanks_append, skipBlanks, readString_escaped]

theorem reads_bool (levels : Nat) (b : Bool) : Reads (bool.read levels) (.bool b) b := by
  intro L depth blanks rest hblanks _
  rw [write]
  cases b <;> simp only [bool, hblanks.skipBlanks_append] <;> rfl

/-- An integer within the bounds is read. -/
theorem reads_integer {least greatest n : Int} (hbounds : least ≤ n ∧ n ≤ greatest)
    (hrange : Number.InRange n) (expected : String) (levels : Nat) :
    Reads ((integer least greatest expected).read levels) (.num (.int n)) n := by
  intro L depth blanks rest hblanks hrest
  have hcheck : checkInteger least greatest expected (.int n) = .ok n := if_pos hbounds
  rw [write, renderNumber]
  rcases readNumber_ofInt hrange hrest with ⟨d, t, heq, hd, hread⟩ | ⟨t, heq, hread⟩
  · have hstarts : Starts d := by simp [Starts, hd]
    have hminus : d ≠ 45 := by rintro rfl; exact absurd hd (by decide)
    simp only [integer, hblanks.skipBlanks_append, heq, hstarts.skipBlanks, if_neg hminus,
      if_pos hd, hread, hcheck]
  · have hstarts : Starts 45 := by simp [Starts]
    simp only [integer, hblanks.skipBlanks_append, heq, hstarts.skipBlanks, if_true, hread,
      hcheck]

/-- A signed integer of 64 bits is read. -/
theorem reads_int64 {n : Int} (h : -0x8000000000000000 ≤ n ∧ n ≤ 0x7fffffffffffffff)
    (levels : Nat) : Reads (int64.read levels) (.num (.int n)) n :=
  reads_integer h ⟨h.1, by omega⟩ "i64" levels

/-- Any value is read as it stands. -/
theorem reads_value {levels : Nat} {j : Json} (h : Readable levels j) :
    Reads (value.read levels) j j := h.reads

/-- Null alone starts like null. -/
theorem ne_of_write_eq {L : Layout} {depth : Nat} {j : Json} (hj : j ≠ null) {b : UInt8}
    {t : Bytes} (heq : j.write L depth = b :: t) : b ≠ 110 := by
  rintro rfl
  cases j with
  | null => exact hj rfl
  | bool b =>
    rw [write] at heq
    cases b <;> exact absurd (List.cons.inj heq).1 (by decide)
  | num n =>
    obtain ⟨d, t', hnumber, hd⟩ := exists_renderNumber_eq n
    rw [write, hnumber] at heq
    obtain ⟨rfl, -⟩ := List.cons.inj heq
    exact absurd hd (by decide)
  | str s =>
    rw [write, renderText, List.cons_append] at heq
    exact absurd (List.cons.inj heq).1 (by decide)
  | arr items =>
    cases items <;> rw [write] at heq <;> exact absurd (List.cons.inj heq).1 (by decide)
  | obj fields =>
    rcases fields with _ | ⟨⟨name, j⟩, fields⟩ <;> rw [write] at heq <;>
      exact absurd (List.cons.inj heq).1 (by decide)

/-- An optional value that is not null is read as the value is. -/
theorem reads_option_some {d : Decoder α} {levels : Nat} {j : Json} {a : α}
    (h : Reads (d.read levels) j a) (hj : j ≠ null) :
    Reads (d.option.read levels) j (some a) := by
  intro L depth blanks rest hblanks hrest
  obtain ⟨b, t, heq, hb⟩ := j.exists_write_eq L depth
  have hread := h L depth [] rest blank_nil hrest
  rw [List.nil_append, heq, List.cons_append] at hread
  rw [heq, List.cons_append]
  simp only [option, hblanks.skipBlanks_append, hb.skipBlanks, if_neg (ne_of_write_eq hj heq),
    hread, mapRead]

/-- Null is read as no value. -/
theorem reads_option_none (d : Decoder α) (levels : Nat) :
    Reads (d.option.read levels) .null none := by
  intro L depth blanks rest hblanks _
  rw [write]
  simp only [option, hblanks.skipBlanks_append]
  rfl

/-- A name out of several is read as what it stands for. -/
theorem reads_identifier {choices : List (String × α)} {name : String} {a : α}
    (h : choices.lookup name = some a) (levels : Nat) :
    Reads ((identifier choices).read levels) (.str name) a := by
  intro L depth blanks rest hblanks _
  have hquote (s : Bytes) : skipBlanks (34 :: s) = 34 :: s := by simp [skipBlanks]
  have hpick : pick choices name = .ok a := by rw [pick, h]
  rw [write, renderText_append]
  simp only [hblanks.skipBlanks_append, hquote, if_true, identifier, readString_escaped, hpick]

/-- So is a name that might be an object instead. -/
theorem reads_choice {choices : List (String × α)} {name : String} {a : α}
    (h : choices.lookup name = some a) (levels : Nat) :
    Reads ((choice choices).read levels) (.str name) a := by
  intro L depth blanks rest hblanks hrest
  have hquote (s : Bytes) : skipBlanks (34 :: s) = 34 :: s := by simp [skipBlanks]
  have hread := reads_identifier h levels L depth [] rest blank_nil hrest
  rw [List.nil_append, write, renderText_append] at hread
  rw [write, renderText_append]
  simp only [choice, hblanks.skipBlanks_append, hquote, if_true, hread]

/-- An unsigned integer of 64 bits is read. -/
theorem reads_natural {n : Nat} (h : n < UInt64.size) (expected : String) (levels : Nat) :
    Reads (((integer 0 0xffffffffffffffff expected).map Int.toNat).read levels) (.nat n) n := by
  intro L depth blanks rest hblanks hrest
  have hn : n < 0x10000000000000000 := h
  have hread : Reads ((integer 0 0xffffffffffffffff expected).read levels) (.nat n) (n : Int) :=
    reads_integer (by omega) (by unfold Number.InRange; omega) expected levels
  simp only [map, hread L depth blanks rest hblanks hrest, mapRead, Int.toNat_natCast]

theorem reads_word64 {n : Nat} (h : n < UInt64.size) (levels : Nat) :
    Reads (word64.read levels) (.nat n) n := reads_natural h "u64" levels

/-- The elements of a list are read. -/
theorem reads_list {d : Decoder α} {levels : Nat} {items : List Json} {as : List α}
    (h : List.Forall₂ (Reads (d.read levels)) items as) :
    Reads (d.list.read (levels + 1)) (.arr items) as := by
  intro L depth blanks rest hblanks _
  obtain ⟨inside, hwrite, hread⟩ := readElements_arr h L depth rest
  have hbracket (s : Bytes) : skipBlanks (91 :: s) = 91 :: s := by simp [skipBlanks]
  rw [hwrite]
  simp only [list, hblanks.skipBlanks_append, hbracket, if_true, nested, List.drop_one,
    List.tail_cons, hread, endArray_ok]

/-- The members of a map are read, if their names are in order. -/
theorem reads_dict {d : Decoder α} {levels : Nat} {fields : List (String × Json)} {m : Keyed α}
    (h : List.Forall₂ (ReadsMember (d.read levels)) fields m) (hsorted : m.Sorted) :
    Reads (d.dict.read (levels + 1)) (.obj fields) m := by
  intro L depth blanks rest hblanks _
  obtain ⟨inside, hwrite, hread⟩ := readMembers_obj h L depth rest
  have hbrace (s : Bytes) : skipBlanks (123 :: s) = 123 :: s := by simp [skipBlanks]
  rw [hwrite]
  simp only [dict, hblanks.skipBlanks_append, hbrace, if_true, nested, List.drop_one,
    List.tail_cons, hread, mapRead, endObject_ok, Keyed.ofList_of_sorted hsorted]

end Decoder

namespace Field

variable {β : Type} (name : String) (d : Decoder β)

@[simp] theorem name_required : (required name d).name = name := rfl

@[simp] theorem name_withDefault (b : β) : (withDefault name d b).name = name := rfl

@[simp] theorem name_optional : (optional name d).name = name := rfl

@[simp] theorem name_omissible : (omissible name d).name = name := rfl

end Field

namespace Fields

variable {α β γ ρ : Type}

/-! ### Members into slots -/

/-- The value of a member is read into its slot. -/
def Takes (fs : Fields ρ α) (levels : Nat) (m : String × Json) (slots slots' : ρ) : Prop :=
  ∃ read, fs.readMember levels m.1 slots = some read ∧
    ∀ (L : Layout) (depth : Nat) (rest : Bytes), Delimited rest →
      read (58 :: (L.gap ++ (m.2.write L depth ++ rest))) = .ok (slots', rest)

/-- The member of the first field fills its slot. -/
theorem takes_first {f : Field β} (fs : Fields ρ α) {levels : Nat} {j : Json} {b : β}
    (h : Reads (f.decoder.read levels) j b) (slots : ρ) :
    (cons f fs).Takes levels (f.name, j) (none, slots) (some b, slots) := by
  refine ⟨_, if_pos rfl, fun L depth rest hrest => ?_⟩
  simp only [readMemberValue_write h f.name hrest, mapRead]

/-- The member of another field goes past the slot of the first. -/
theorem Takes.later {f : Field β} {fs : Fields ρ α} {levels : Nat} {m : String × Json}
    {slots slots' : ρ} (h : fs.Takes levels m slots slots') (hname : m.1 ≠ f.name)
    (slot : Option β) : (cons f fs).Takes levels m (slot, slots) (slot, slots') := by
  obtain ⟨read, hread, hvalue⟩ := h
  refine ⟨fun s => mapRead (slot, ·) (read s), ?_, fun L depth rest hrest => ?_⟩
  · simp only [cons, if_neg hname, hread, Option.map_some]
  · simp only [hvalue L depth rest hrest, mapRead]

/-- The values of members are read into their slots one after the other. -/
inductive Fills (fs : Fields ρ α) (levels : Nat) : ρ → List (String × Json) → ρ → Prop where
  | nil {slots : ρ} : Fills fs levels slots [] slots
  | cons {m : String × Json} {members : List (String × Json)} {slots slots' slots'' : ρ}
      (hm : fs.Takes levels m slots slots') (hmembers : Fills fs levels slots' members slots'') :
      Fills fs levels slots (m :: members) slots''

/-- Members of other fields go past the slot of the first. -/
theorem Fills.later {f : Field β} {fs : Fields ρ α} {levels : Nat}
    {members : List (String × Json)} {slots slots' : ρ} (h : fs.Fills levels slots members slots')
    (hnames : ∀ m ∈ members, m.1 ≠ f.name) (slot : Option β) :
    (Fields.cons f fs).Fills levels (slot, slots) members (slot, slots') := by
  induction h with
  | nil => exact .nil
  | cons hm _ ih =>
    exact .cons (hm.later (hnames _ List.mem_cons_self) slot)
      (ih fun m hmem => hnames m (List.mem_cons_of_mem _ hmem))

theorem Fills.append {fs : Fields ρ α} {levels : Nat} {before after : List (String × Json)}
    {slots slots' slots'' : ρ} (h : fs.Fills levels slots before slots')
    (hafter : fs.Fills levels slots' after slots'') :
    fs.Fills levels slots (before ++ after) slots'' := by
  induction h with
  | nil => exact hafter
  | cons hm _ ih => exact .cons hm (ih hafter)

theorem Fills.exists_of_append {fs : Fields ρ α} {levels : Nat}
    {before after : List (String × Json)} {slots slots'' : ρ}
    (h : fs.Fills levels slots (before ++ after) slots'') :
    ∃ slots', fs.Fills levels slots before slots' ∧ fs.Fills levels slots' after slots'' := by
  induction before generalizing slots with
  | nil => exact ⟨slots, .nil, h⟩
  | cons m before ih =>
    cases h with
    | cons hm hmembers =>
      obtain ⟨slots', hbefore, hafter⟩ := ih hmembers
      exact ⟨slots', .cons hm hbefore, hafter⟩

/-- Members after the first one are read into their slots, whatever comes after them. -/
theorem readMembers_append {fs : Fields ρ α} {levels : Nat} {members : List (String × Json)}
    {slots slots' : ρ} (h : fs.Fills levels slots members slots') (rounds : Nat) (L : Layout)
    (depth : Nat) {rest : Bytes} (hrest : Delimited rest) :
    fs.readMembers levels (rounds + members.length) false slots
      (writeFields L depth members ++ rest) = fs.readMembers levels rounds false slots' rest := by
  induction h with
  | nil => simp [writeFields]
  | @cons m members slots slots' _ hm _ ih =>
    obtain ⟨name, j⟩ := m
    obtain ⟨read, hread, hvalue⟩ := hm
    have hdelimited := delimited_writeFields_append L depth members hrest
    rw [writeFields, List.cons_append, List.append_assoc, List.append_assoc, List.cons_append,
      List.append_assoc, List.append_assoc, List.length_cons, ← Nat.add_assoc]
    simp only [readMembers, nextMember_further (L.line_blank depth), hread,
      hvalue L depth _ hdelimited, ih]

/-- Members after the first one are read up to the brace. -/
theorem readMembers_writeFields {fs : Fields ρ α} {levels : Nat} {members : List (String × Json)}
    {slots slots' : ρ} {a : α} (h : fs.Fills levels slots members slots')
    (hfinish : fs.finish slots' = .ok a) {rounds : Nat} (hrounds : members.length < rounds)
    (L : Layout) (depth : Nat) {blanks : Bytes} (hblanks : Blank blanks) (rest : Bytes) :
    fs.readMembers levels rounds false slots
      (writeFields L depth members ++ (blanks ++ 125 :: rest)) = .ok (a, 125 :: rest) := by
  obtain ⟨more, rfl⟩ := Nat.exists_eq_add_of_lt hrounds
  have hbrace := hblanks.delimited_append (delimited_brace rest)
  rw [show members.length + more + 1 = more + 1 + members.length by omega,
    readMembers_append h _ L depth hbrace]
  simp [readMembers, nextMember_brace hblanks, hfinish]

/-- Members are read up to the brace. -/
theorem readMembers_obj {fs : Fields ρ α} {levels : Nat} {members : List (String × Json)}
    {slots slots' : ρ} {a : α} (h : fs.Fills levels slots members slots')
    (hfinish : fs.finish slots' = .ok a) (L : Layout) (depth : Nat) (rest : Bytes) :
    ∃ inside, (obj members).write L depth ++ rest = 123 :: inside ∧
      fs.readMembers levels (inside.length + 1) true slots inside = .ok (a, 125 :: rest) := by
  cases h with
  | nil =>
    refine ⟨125 :: rest, by rw [write]; rfl, ?_⟩
    have hbrace := nextMember_brace blank_nil true rest
    rw [List.nil_append] at hbrace
    simp [readMembers, hbrace, hfinish]
  | @cons m members _ slots' _ hm hmembers =>
    obtain ⟨name, j⟩ := m
    obtain ⟨read, hread, hvalue⟩ := hm
    refine ⟨_, by rw [write, List.cons_append], ?_⟩
    simp only [List.append_assoc, List.cons_append, List.nil_append]
    generalize hlength : (L.line (depth + 1) ++ (renderText name ++ 58 :: (L.gap ++
      (j.write L (depth + 1) ++ (writeFields L (depth + 1) members ++
        (L.line depth ++ 125 :: rest)))))).length = n
    have hrounds : members.length < n := by
      have hle := length_le_writeFields L (depth + 1) members
      rw [← hlength]
      simp only [List.length_append, List.length_cons]
      omega
    have hdelimited := delimited_writeFields L (depth + 1) (L.line_blank depth) members
      rest
    have htail := readMembers_writeFields hmembers hfinish hrounds L (depth + 1)
      (L.line_blank depth) rest
    simp only [readMembers, nextMember_first (L.line_blank (depth + 1)), hread,
      hvalue L (depth + 1) _ hdelimited, htail]

/-! ### Records -/

/-- Members from which the values of fields are read. -/
def ReadsMembers (fs : Fields ρ α) (levels : Nat) (members : List (String × Json)) (a : α) :
    Prop :=
  ∃ slots, fs.Fills levels fs.blank members slots ∧ fs.finish slots = .ok a

theorem readsMembers_nil (levels : Nat) : nil.ReadsMembers levels [] () := ⟨(), .nil, rfl⟩

/-- A field with a member anywhere among those of the other fields. -/
theorem ReadsMembers.insert {f : Field β} {fs : Fields ρ α} {levels : Nat}
    (before : List (String × Json)) {after : List (String × Json)} {a : α}
    (h : fs.ReadsMembers levels (before ++ after) a)
    (hnames : ∀ m ∈ before ++ after, m.1 ≠ f.name) {j : Json} {b : β}
    (hvalue : Reads (f.decoder.read levels) j b) :
    (cons f fs).ReadsMembers levels (before ++ (f.name, j) :: after) (b, a) := by
  obtain ⟨slots, hfills, hfinish⟩ := h
  obtain ⟨between, hfront, hback⟩ := hfills.exists_of_append
  have hbefore : (cons f fs).Fills levels (none, fs.blank) before (none, between) :=
    hfront.later (fun m hm => hnames m (List.mem_append_left _ hm)) none
  have hafter : (cons f fs).Fills levels (some b, between) after (some b, slots) :=
    hback.later (fun m hm => hnames m (List.mem_append_right _ hm)) (some b)
  refine ⟨(some b, slots), hbefore.append (.cons (takes_first fs hvalue between) hafter), ?_⟩
  simp [cons, hfinish, Except.map]

/-- A field with a member in front of those of the other fields. -/
theorem ReadsMembers.present {f : Field β} {fs : Fields ρ α} {levels : Nat}
    {members : List (String × Json)} {a : α} (h : fs.ReadsMembers levels members a)
    (hnames : ∀ m ∈ members, m.1 ≠ f.name) {j : Json} {b : β}
    (hvalue : Reads (f.decoder.read levels) j b) :
    (cons f fs).ReadsMembers levels ((f.name, j) :: members) (b, a) :=
  ReadsMembers.insert [] h hnames hvalue

/-- A field without a member, which may be absent. -/
theorem ReadsMembers.absent {f : Field β} {fs : Fields ρ α} {levels : Nat}
    {members : List (String × Json)} {a : α} (h : fs.ReadsMembers levels members a)
    (hnames : ∀ m ∈ members, m.1 ≠ f.name) {b : β} (habsent : f.absent = some b) :
    (cons f fs).ReadsMembers levels members (b, a) := by
  obtain ⟨slots, hfills, hfinish⟩ := h
  refine ⟨(none, slots), hfills.later hnames _, ?_⟩
  simp [cons, hfinish, habsent, Except.map]

end Fields

/-- **A record is read from the members of its fields.** -/
theorem Decoder.reads_record {α γ ρ : Type} {fs : Fields ρ α} {levels : Nat}
    {members : List (String × Json)} {a : α} (h : fs.ReadsMembers levels members a)
    (name : String) (build : α → γ) :
    Reads ((Decoder.record name fs build).read (levels + 1)) (.obj members) (build a) := by
  intro L depth blanks rest hblanks _
  obtain ⟨slots, hfills, hfinish⟩ := h
  obtain ⟨inside, hwrite, hread⟩ := Fields.readMembers_obj hfills hfinish L depth rest
  have hbrace (s : Bytes) : skipBlanks (123 :: s) = 123 :: s := by simp [skipBlanks]
  rw [hwrite]
  simp [record, hblanks.skipBlanks_append, hbrace, nested, hread, mapRead]

/-- How a record is read once the members in front have filled their slots. -/
theorem Decoder.read_record_append {α γ ρ : Type} {fs : Fields ρ α} {levels : Nat}
    {m : String × Json} {members : List (String × Json)} {slots : ρ}
    (h : fs.Fills levels fs.blank (m :: members) slots) (last : List (String × Json))
    (name : String) (build : α → γ) :
    (record name fs build).read (levels + 1) (obj (m :: (members ++ last))).render =
      mapRead build (endObject (fs.readMembers levels
        ((obj (m :: (members ++ last))).render.length - (members.length + 1)) false slots
        (writeFields .compact 1 last ++ [125]))) := by
  cases h with
  | cons hm hmembers =>
    obtain ⟨field, j⟩ := m
    obtain ⟨read, hread, hvalue⟩ := hm
    have hlast : Delimited (writeFields .compact 1 last ++ [125]) :=
      delimited_writeFields_append .compact 1 last (delimited_brace [])
    have hrest := delimited_writeFields_append .compact 1 members hlast
    generalize hinside : renderText field ++ 58 :: (Layout.compact.gap ++ (j.write .compact 1 ++
      (writeFields .compact 1 members ++ (writeFields .compact 1 last ++ [125])))) = inside
    have hrender : (obj ((field, j) :: (members ++ last))).render = 123 :: inside := by
      rw [← write_compact 0, write, writeFields_append, List.append_assoc, ← hinside]
      rfl
    -- Each of the members in front has taken a round.
    obtain ⟨rounds, hrounds⟩ : ∃ rounds, inside.length = rounds + members.length := by
      have hle := length_le_writeFields .compact 1 members
      refine ⟨inside.length - members.length, (Nat.sub_add_cancel ?_).symm⟩
      rw [← hinside]
      simp only [List.length_append, List.length_cons]
      omega
    have hfirst := nextMember_first blank_nil field (58 :: (Layout.compact.gap ++
      (j.write .compact 1 ++ (writeFields .compact 1 members ++
        (writeFields .compact 1 last ++ [125])))))
    rw [List.nil_append, hinside] at hfirst
    have hmore := Fields.readMembers_append hmembers rounds .compact 1 hlast
    have hleft : (123 :: inside).length - (members.length + 1) = rounds := by
      rw [List.length_cons]
      omega
    have hbrace : skipBlanks (123 :: inside) = 123 :: inside := by simp [skipBlanks]
    rw [hrender, hleft]
    simp only [record, hbrace, nested, List.drop_one, List.tail_cons, hrounds, Fields.readMembers,
      hfirst, hread, hvalue .compact 1 _ hrest, hmore]
    rfl

/-- The members in front may stand in another order if they fill the same slots, whatever comes
after them. -/
theorem Decoder.read_record_perm {α γ ρ : Type} {fs : Fields ρ α} {levels : Nat}
    {m m' : String × Json} {members members' : List (String × Json)} {slots : ρ}
    (h : fs.Fills levels fs.blank (m :: members) slots)
    (h' : fs.Fills levels fs.blank (m' :: members') slots)
    (hperm : (m :: members).Perm (m' :: members')) (last : List (String × Json)) (name : String)
    (build : α → γ) :
    (record name fs build).read (levels + 1) (obj (m :: (members ++ last))).render =
      (record name fs build).read (levels + 1) (obj (m' :: (members' ++ last))).render := by
  have hmembers : members.length = members'.length := by simpa using hperm.length_eq
  have hrender : (obj (m :: (members ++ last))).render.length =
      (obj (m' :: (members' ++ last))).render.length :=
    length_render_obj_of_perm (hperm.append_right last)
  rw [read_record_append h, read_record_append h', hmembers, hrender]

/-- A whole text is read if nothing but blanks is left of it. -/
theorem Decoder.ofBytes_eq_ok_iff {α : Type} {d : Decoder α} {text : Bytes} {a : α} :
    d.ofBytes text = .ok a ↔
      ∃ rest, d.read maxDepth text = .ok (a, rest) ∧ skipBlanks rest = [] := by
  unfold ofBytes readAll
  constructor
  · intro h
    split at h
    · cases h
    · rename_i a' rest hread
      split at h
      · rename_i hblanks
        exact ⟨rest, Except.ok.inj h ▸ hread, hblanks⟩
      · cases h
  · rintro ⟨rest, hread, hblanks⟩
    simp only [hread, hblanks]

/-- What a whole text is read as is read from its start. -/
theorem Decoder.ofStart_of_ofBytes {α : Type} {d : Decoder α} {text : Bytes} {a : α}
    (h : d.ofBytes text = .ok a) : d.ofStart text = .ok a := by
  obtain ⟨rest, hread, -⟩ := ofBytes_eq_ok_iff.mp h
  rw [ofStart, hread]

/-- A text that holds a value and nothing else is read as what the value stands for. -/
theorem Decoder.ofBytes_render {α : Type} {d : Decoder α} {j : Json} {a : α}
    (h : Reads (d.read maxDepth) j a) : d.ofBytes j.render = .ok a := by
  rw [Decoder.ofBytes, ← write_compact 0 j, readAll_write h]

/-- The indented form of a value is read as what the value stands for. -/
theorem Decoder.ofBytes_pretty {α : Type} {d : Decoder α} {j : Json} {a : α}
    (h : Reads (d.read maxDepth) j a) : d.ofBytes j.pretty = .ok a := by
  rw [Decoder.ofBytes, pretty, ← write_indented 0 j, readAll_write h]

end MeshNode.Json
