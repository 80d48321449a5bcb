import MeshNode.Proofs.Json.Answers
import MeshNode.Proofs.Json.Records

/-!
# Reading again what was read

A value that was read is written in the one form that the program itself uses, and from that form
it is read again (`Decoder.Recodes`), whatever the text it came from looked like. This is so of
every value whose numbers are integers of 64 bits (`Json.Whole`); other numbers are doubles, whose
text need not be read as the same double. The law is proved of the decoders of values first, and of
a record field by field: a field is written as a member, or left out where a missing member stands
for its value.
-/

namespace MeshNode

namespace Json

/-- The numbers in the value are integers. The integer minus zero is kept as a double. -/
inductive Whole : Json → Prop where
  | null : Whole .null
  | bool {b : Bool} : Whole (.bool b)
  | int {n : Int} : Whole (.num (.int n))
  | minusZero : Whole (.num (.float minusZero))
  | str {s : String} : Whole (.str s)
  | arr {items : List Json} (hitems : ∀ j ∈ items, Whole j) : Whole (.arr items)
  | obj {fields : List (String × Json)} (hfields : ∀ f ∈ fields, Whole f.2) : Whole (.obj fields)

/-- **A value that was read is read again**, if its numbers are integers. -/
theorem Shaped.reads {levels : Nat} {j : Json} (h : j.Shaped levels) (hwhole : j.Whole) :
    Reads (readValue levels) j j := by
  induction h with
  | null => exact reads_null _
  | bool => exact reads_truth _ _
  | num hkept =>
    cases hwhole with
    | int => exact reads_int Keyed.ofList _ hkept
    | minusZero => exact reads_minusZero Keyed.ofList _
  | str => exact reads_str Keyed.ofList _ _
  | arr _ ih =>
    cases hwhole with
    | arr hitems => exact reads_arr fun j hj => ih j hj (hitems j hj)
  | obj hsorted _ ih =>
    cases hwhole with
    | obj hfields => exact reads_obj hsorted fun f hf => ih f hf (hfields f hf)

variable {α β γ ρ : Type} {levels : Nat}

/-! ### Decoders -/

namespace Decoder

/-- Whatever is read is read again from its written form, if the numbers in that are integers. -/
def Recodes (d : Decoder α) (toJson : α → Json) (levels : Nat) : Prop :=
  d.Yields levels fun a => (toJson a).Whole → Reads (d.read levels) (toJson a) a

variable {d : Decoder α} {toJson : α → Json}

theorem recodes_of_reads (h : ∀ a, Reads (d.read levels) (toJson a) a) :
    d.Recodes toJson levels := fun _ a _ _ _ => h a

theorem recodes_text : text.Recodes .str levels := recodes_of_reads (reads_text levels)

theorem recodes_bool : bool.Recodes .bool levels := recodes_of_reads (reads_bool levels)

theorem recodes_int64 : int64.Recodes .int levels := fun s =>
  (yields_int64 levels s).mono fun _ hbounds _ => reads_int64 hbounds levels

theorem recodes_value : value.Recodes id levels := fun s =>
  (shaped_readValue levels s).mono fun _ => Shaped.reads

/-- A name out of several is written as that name. -/
theorem recodes_choice {choices : List (String × α)} {name : α → String}
    (h : ∀ a, choices.lookup (name a) = some a) :
    (choice choices).Recodes (fun a => .str (name a)) levels :=
  recodes_of_reads fun a => reads_choice (h a) levels

/-- An unsigned integer of 64 bits, however it is called. -/
theorem recodes_natural (expected : String) :
    ((integer 0 0xffffffffffffffff expected).map Int.toNat).Recodes .nat levels := by
  refine Yields.map fun s => (yields_integer _ _ expected levels s).mono fun n hbounds _ => ?_
  have hn : n.toNat < UInt64.size := by
    have hsize : UInt64.size = 0x10000000000000000 := rfl
    omega
  exact reads_natural hn expected levels

theorem recodes_word64 : word64.Recodes .nat levels := recodes_natural "u64"

theorem recodes_size : size.Recodes .nat levels := recodes_natural "usize"

/-- Nothing is read as null but what starts like null. -/
theorem ne_null_of_readValue {s : Bytes} (h : (skipBlanks s).head? ≠ some 110) :
    Answers (value.read levels s) (· ≠ .null) := by
  have hmap {β : Type} {f : β → Json} (hf : ∀ b, f b ≠ .null) (r : Except Failure (β × Bytes)) :
      Answers (mapRead f r) (· ≠ .null) := Answers.mapRead fun b _ _ => hf b
  simp only [value, readValue]
  rw [readTree.eq_def]
  simp only
  cases hs : skipBlanks s with
  | nil => exact answers_error _
  | cons b rest =>
    have hb : b ≠ 110 := by
      rintro rfl
      exact h (by rw [hs]; rfl)
    simp only [if_neg hb]
    split_ifs
    · exact answers_readAs Json.noConfusion _
    · exact answers_readAs Json.noConfusion _
    · exact hmap (fun _ => Json.noConfusion) _
    · exact hmap (fun _ => Json.noConfusion) _
    · exact hmap (fun _ => Json.noConfusion) _
    · split
      · exact answers_error _
      · exact (hmap (fun _ => Json.noConfusion) _).endArray
    · split
      · exact answers_error _
      · exact (hmap (fun _ => Json.noConfusion) _).endObject
    · exact answers_error _

/-- An optional value is written as it is or as null, if nothing else is written as null. -/
theorem Recodes.option (h : d.Recodes toJson levels)
    (hnull : ∀ s, (skipBlanks s).head? ≠ some 110 →
      Answers (d.read levels s) fun a => toJson a ≠ .null) {toJson? : Option α → Json}
    (hnone : toJson? none = .null) (hsome : ∀ a, toJson? (some a) = toJson a) :
    d.option.Recodes toJson? levels := by
  have hread (s : Bytes) (hs : (skipBlanks s).head? ≠ some 110) :
      Answers (mapRead some (d.read levels s)) fun o =>
        (toJson? o).Whole → Reads (d.option.read levels) (toJson? o) o := by
    refine Answers.mapRead fun a rest ha hwhole => ?_
    rw [hsome] at hwhole ⊢
    exact reads_option_some (h s a rest ha hwhole) (hnull s hs a rest ha)
  intro s
  simp only [Decoder.option]
  split
  · exact hread [] nofun
  · rename_i b rest hs
    split_ifs with hb
    · refine answers_readAs (fun _ => ?_) _
      rw [hnone]
      exact reads_option_none d levels
    · refine hread _ ?_
      rw [← hs, skipBlanks_skipBlanks, hs]
      exact fun heq => hb (Option.some.inj heq)

/-- An optional value that is never written as null itself. -/
theorem Recodes.option_of_ne_null (h : d.Recodes toJson levels) (hne : ∀ a, toJson a ≠ .null)
    {toJson? : Option α → Json} (hnone : toJson? none = .null)
    (hsome : ∀ a, toJson? (some a) = toJson a) : d.option.Recodes toJson? levels :=
  h.option (fun _ _ a _ _ => hne a) hnone hsome

theorem recodes_text? : text.option.Recodes Json.ofText? levels :=
  recodes_text.option_of_ne_null (fun _ => Json.noConfusion) rfl fun _ => rfl

theorem recodes_int64? : int64.option.Recodes Json.ofInt? levels :=
  recodes_int64.option_of_ne_null (fun _ => Json.noConfusion) rfl fun _ => rfl

theorem recodes_word64? : word64.option.Recodes (fun n => Json.ofInt? (n.map Int.ofNat)) levels :=
  recodes_word64.option_of_ne_null (fun _ => Json.noConfusion) rfl fun _ => rfl

theorem recodes_value? : value.option.Recodes (Option.getD · .null) levels :=
  recodes_value.option (fun _ => ne_null_of_readValue) rfl fun _ => rfl

/-- The elements of a list are written one by one. -/
theorem Recodes.list (h : d.Recodes toJson levels) :
    d.list.Recodes (fun as => .arr (as.map toJson)) (levels + 1) := by
  refine fun s => (Yields.list h s).mono fun as has hwhole => ?_
  cases hwhole with
  | arr hitems =>
    refine reads_list (List.forall₂_map_left_iff.mpr (List.forall₂_same.mpr fun a ha => ?_))
    exact has a ha (hitems _ (List.mem_map_of_mem ha))

end Decoder

/-! ### Records -/

/-- Whatever a field is read as is read again from the member it is written as; where it is written
as none, it stands for an absent member. -/
def Field.Recodes (f : Field β) (toJson? : β → Option Json) (levels : Nat) : Prop :=
  f.Yields levels fun b =>
    match toJson? b with
    | some j => j.Whole → Reads (f.decoder.read levels) j b
    | none => f.absent = some b

section Field

variable {d : Decoder β} {toJson : β → Json}

/-- A field that must be there. -/
theorem Decoder.Recodes.required (h : d.Recodes toJson levels) (name : String) :
    (Field.required name d).Recodes (fun b => some (toJson b)) levels :=
  Field.yields_required h name

/-- A field that is always written and has a value for when it is not there. -/
theorem Decoder.Recodes.withDefault (h : d.Recodes toJson levels) (name : String) {b : β}
    (hb : (toJson b).Whole → Reads (d.read levels) (toJson b) b) :
    (Field.withDefault name d b).Recodes (fun b => some (toJson b)) levels :=
  Field.yields_withDefault h name b hb

variable {toJson? : Option β → Json}

/-- An optional field that is written as null when there is nothing. -/
theorem Decoder.Recodes.optional (h : d.option.Recodes toJson? levels) (name : String)
    (hnone : toJson? none = .null) :
    (Field.optional name d).Recodes (fun o => some (toJson? o)) levels := by
  refine ⟨h, ?_, fun _ => nofun⟩
  rintro _ ⟨⟩ _
  rw [hnone]
  exact reads_option_none d levels

/-- Such a field may be missing at the end of an array too. -/
theorem Decoder.Recodes.omissible (h : d.option.Recodes toJson? levels) (name : String)
    (hnone : toJson? none = .null) :
    (Field.omissible name d).Recodes (fun o => some (toJson? o)) levels := by
  refine h.withDefault name fun _ => ?_
  rw [hnone]
  exact reads_option_none d levels

/-- An optional field that is left out when there is nothing. -/
theorem Decoder.Recodes.omitted (h : d.option.Recodes toJson? levels) (name : String) :
    (Field.omissible name d).Recodes (fun o => o.map fun b => toJson? (some b)) levels := by
  refine ⟨fun s => (h s).mono fun o ho => ?_, ?_, ?_⟩
  · cases o with
    | none => rfl
    | some b => exact ho
  · rintro _ ⟨⟩
    rfl
  · rintro _ ⟨⟩
    rfl

end Field

namespace Fields

/-- Whatever values the fields are read as, they are read again from the members they are written
as, if the numbers in these are integers and no two fields have the same name. -/
structure Recodes (fs : Fields ρ α) (names : List String) (members : α → List (String × Json))
    (levels : Nat) : Prop where
  /-- The members bear names of fields. -/
  named : ∀ a, ∀ m ∈ members a, m.1 ∈ names
  yields : names.Nodup → fs.Yields levels fun a =>
    (∀ m ∈ members a, m.2.Whole) → fs.ReadsMembers levels (members a) a

variable {fs : Fields ρ α} {names : List String} {members : α → List (String × Json)}

theorem Recodes.nil : nil.Recodes [] (fun _ => []) levels where
  named _ _ hm := absurd hm List.not_mem_nil
  yields _ := (yields_nil levels).mono fun _ _ _ => readsMembers_nil levels

/-- One more field in front. -/
theorem Recodes.cons {f : Field β} {toJson? : β → Option Json} (hf : f.Recodes toJson? levels)
    (h : fs.Recodes names members levels) :
    (Fields.cons f fs).Recodes (f.name :: names)
      (fun x => ((toJson? x.1).map (f.name, ·)).toList ++ members x.2) levels where
  named := by
    rintro ⟨b, a⟩ m hm
    rcases List.mem_append.mp hm with hm | hm
    · obtain ⟨j, -, rfl⟩ := Option.map_eq_some_iff.mp (Option.mem_toList.mp hm)
      exact List.mem_cons_self
    · exact List.mem_cons_of_mem _ (h.named a m hm)
  yields hnodup := by
    obtain ⟨hname, hothers⟩ := List.nodup_cons.mp hnodup
    refine ((h.yields hothers).cons hf).mono ?_
    rintro ⟨b, a⟩ ⟨hb, ha⟩ hwhole
    have hdiffer : ∀ m ∈ members a, m.1 ≠ f.name := fun m hm heq =>
      hname (heq ▸ h.named a m hm)
    have hmembers := ha fun m hm => hwhole m (List.mem_append_right _ hm)
    cases hj : toJson? b with
    | none =>
      simp only [hj] at hb ⊢
      exact hmembers.absent hdiffer hb
    | some j =>
      simp only [hj] at hb hwhole ⊢
      exact hmembers.present hdiffer (hb (hwhole (f.name, j) List.mem_cons_self))

end Fields

/-- **A record that was read is read again**, if its members are those of its fields. -/
theorem Decoder.recodes_record {fs : Fields ρ α} {names : List String}
    {members : α → List (String × Json)} (h : fs.Recodes names members levels)
    (hnames : names.Nodup) (name : String)
    {γ : Type} {build : α → γ} {toJson : γ → Json}
    (hbuild : ∀ a, toJson (build a) = .obj (members a)) :
    (record name fs build).Recodes toJson (levels + 1) := by
  refine yields_record (h.yields hnames) name fun a hmembers hwhole => ?_
  rw [hbuild] at hwhole ⊢
  cases hwhole with
  | obj hfields => exact reads_record (hmembers hfields) name build

end Json

end MeshNode
