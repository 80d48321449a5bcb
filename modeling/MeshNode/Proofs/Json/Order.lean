import MeshNode.Proofs.Json.Answers

/-!
# Values in order

In a value that was read the fields of every object are in order, which is how such a value is
written again, and no more than a number of arrays and objects stand inside each other. Bringing it
into order changes nothing, and the parts of it are in order too. So is whatever a decoder converts
from a value in order and keeps as a value (`Decoder.Carries`), whether a record came as an object
or as an array.
-/

namespace MeshNode

namespace Json

variable {α β : Type}

/-- The fields of every object are in order, and no more than the given number of arrays and objects
stand inside each other. -/
inductive InOrder : (levels : Nat) → Json → Prop where
  | null {levels : Nat} : InOrder levels .null
  | bool {levels : Nat} {b : Bool} : InOrder levels (.bool b)
  | num {levels : Nat} {n : Number} : InOrder levels (.num n)
  | str {levels : Nat} {s : String} : InOrder levels (.str s)
  | arr {levels : Nat} {items : List Json} (hitems : ∀ j ∈ items, InOrder levels j) :
      InOrder (levels + 1) (.arr items)
  | obj {levels : Nat} {fields : List (String × Json)} (hsorted : Keyed.Sorted fields)
      (hfields : ∀ f ∈ fields, InOrder levels f.2) : InOrder (levels + 1) (.obj fields)

namespace InOrder

variable {levels : Nat} {j : Json}

/-- Bringing a value into order that is in order changes nothing. -/
theorem sorted_eq (h : j.InOrder levels) : j.sorted = j := by
  induction h with
  | null | bool | num | str => rw [sorted]
  | @arr _ items _ ih =>
    have hitems : items.map sorted = items := (List.map_congr_left ih).trans (List.map_id items)
    rw [sorted_arr, hitems]
  | @obj _ fields hsorted _ ih =>
    have hfields : (fields.map fun f => (f.1, f.2.sorted)) = fields := by
      have hsame : ∀ f ∈ fields, (f.1, f.2.sorted) = id f := fun f hf => Prod.ext rfl (ih f hf)
      rw [List.map_congr_left hsame, List.map_id]
    rw [sorted_obj, hfields, Keyed.ofList_of_sorted hsorted]

theorem mono (h : j.InOrder levels) {levels' : Nat} (hle : levels ≤ levels') :
    j.InOrder levels' := by
  induction h generalizing levels' with
  | null => exact .null
  | bool => exact .bool
  | num => exact .num
  | str => exact .str
  | arr _ ih =>
    obtain ⟨n, rfl⟩ := Nat.exists_eq_add_of_lt hle
    exact .arr fun j hj => ih j hj (Nat.le_add_right _ _)
  | obj hsorted _ ih =>
    obtain ⟨n, rfl⟩ := Nat.exists_eq_add_of_lt hle
    exact .obj hsorted fun f hf => ih f hf (Nat.le_add_right _ _)

/-- An object stays in order when a field is put into it. -/
theorem insert {fields : List (String × Json)} (h : InOrder (levels + 1) (.obj fields))
    (name : String) (hj : j.InOrder levels) :
    InOrder (levels + 1) (.obj (Keyed.insert fields name j)) := by
  cases h with
  | obj hsorted hfields =>
    refine .obj (Keyed.Sorted.insert hsorted name j) fun f hf => ?_
    rcases Keyed.eq_or_mem_of_mem_insert hf with rfl | hf
    · exact hj
    · exact hfields f hf

end InOrder

theorem Shaped.inOrder {levels : Nat} {j : Json} (h : j.Shaped levels) : j.InOrder levels := by
  induction h with
  | null => exact .null
  | bool => exact .bool
  | num => exact .num
  | str => exact .str
  | arr _ ih => exact .arr ih
  | obj hsorted _ ih => exact .obj hsorted ih

/-- A value that is read back is in order. -/
theorem Readable.inOrder {levels : Nat} {j : Json} (h : j.Readable levels) : j.InOrder levels := by
  induction h with
  | null => exact .null
  | bool => exact .bool
  | int => exact .num
  | str => exact .str
  | arr _ ih => exact .arr ih
  | obj hsorted _ ih => exact .obj hsorted ih

/-- What a text is read as is in order. -/
theorem inOrder_of_ofBytes {text : Bytes} {j : Json} (h : ofBytes text = .ok j) :
    j.InOrder maxDepth := by
  have hvalue : Decoder.value.Yields maxDepth (InOrder maxDepth) := fun s =>
    (shaped_readValue maxDepth s).mono fun _ => Shaped.inOrder
  exact hvalue.of_ofBytes h

/-! ### Conversions -/

namespace Decoder

variable {d : Decoder α} {P : Json → Prop} {Q : α → Prop}

/-- What is converted from a value with one property has another. -/
def Carries (d : Decoder α) (P : Json → Prop) (Q : α → Prop) : Prop :=
  ∀ j a, P j → d.convert j = .ok a → Q a

theorem carries_true (d : Decoder α) (P : Json → Prop) : d.Carries P fun _ => True :=
  fun _ _ _ _ => trivial

theorem carries_value (P : Json → Prop) : value.Carries P P := by
  intro j a hj h
  exact Except.ok.inj h ▸ hj

/-- An optional value that is not null is converted as the value is. -/
theorem convert_option_some (d : Decoder α) {j : Json} (hj : j ≠ null) :
    d.option.convert j = (d.convert j).map some := by
  cases j with
  | null => exact absurd rfl hj
  | bool | num | str | arr | obj => rfl

/-- A value that is there has the property. -/
theorem Carries.option (h : d.Carries P Q) : d.option.Carries P fun o => ∀ a ∈ o, Q a := by
  intro j o hj ho a ha
  have hconvert (j : Json) (hj : P j) (ho : (d.convert j).map some = .ok o) : Q a := by
    cases hd : d.convert j with
    | error e =>
      rw [hd] at ho
      cases ho
    | ok a' =>
      rw [hd] at ho
      obtain rfl : a' = a := Option.some.inj ((Except.ok.inj ho).trans ha)
      exact h j a' hj hd
  cases j with
  | null =>
    rw [← Except.ok.inj ho] at ha
    cases ha
  | bool | num | str | arr | obj => exact hconvert _ hj ho

end Decoder

/-- The value of a field has the property, be it converted or not. -/
structure Field.Carries (f : Field β) (P : Json → Prop) (Q : β → Prop) : Prop where
  convert : f.decoder.Carries P Q
  absent : ∀ b ∈ f.absent, Q b
  short : ∀ b ∈ f.short, Q b

namespace Field

variable {d : Decoder β} {P : Json → Prop} {Q : β → Prop}

theorem carries_required (h : d.Carries P Q) (name : String) : (required name d).Carries P Q :=
  ⟨h, fun _ => nofun, fun _ => nofun⟩

theorem carries_withDefault (h : d.Carries P Q) (name : String) (b : β) (hb : Q b) :
    (withDefault name d b).Carries P Q := by
  refine ⟨h, ?_, ?_⟩ <;> rintro _ ⟨⟩ <;> exact hb

theorem carries_omissible (h : d.Carries P Q) (name : String) :
    (omissible name d).Carries P fun o => ∀ b ∈ o, Q b :=
  carries_withDefault h.option name none fun _ => nofun

end Field

namespace Fields

variable {ρ : Type}

/-- What is known of the slots stays so with every member, and the values have the property. -/
structure Carrying (fs : Fields ρ α) (P : Json → Prop) (S : ρ → Prop) (Q : α → Prop) : Prop where
  blank : S fs.blank
  member : ∀ name j slots slots', P j → S slots →
    fs.convertMember name j slots = some (.ok slots') → S slots'
  finish : ∀ slots a, S slots → fs.finish slots = .ok a → Q a
  elements : ∀ index expected items a left, (∀ j ∈ items, P j) →
    fs.convertElements index expected items = .ok (a, left) → Q a

/-- The values of the fields have the property, however they are converted. -/
def Carries (fs : Fields ρ α) (P : Json → Prop) (Q : α → Prop) : Prop := ∃ S, fs.Carrying P S Q

theorem carries_nil (P : Json → Prop) : nil.Carries P fun _ => True :=
  ⟨fun _ => True, trivial, fun _ _ _ _ _ _ _ => trivial, fun _ _ _ _ => trivial,
    fun _ _ _ _ _ _ _ => trivial⟩

/-- One more field in front. -/
theorem Carries.cons {fs : Fields ρ α} {P : Json → Prop} {Q : α → Prop} (h : fs.Carries P Q)
    {f : Field β} {R : β → Prop} (hf : f.Carries P R) :
    (cons f fs).Carries P fun x => R x.1 ∧ Q x.2 := by
  obtain ⟨S, hfields⟩ := h
  refine ⟨fun slots => (∀ b ∈ slots.1, R b) ∧ S slots.2, ?_⟩
  constructor
  case blank => exact ⟨fun _ => nofun, hfields.blank⟩
  case member =>
    rintro name j slots slots' hj ⟨hslot, hslots⟩ h
    simp only [Fields.cons] at h
    split_ifs at h
    · split at h
      · cases h
      · cases hb : f.decoder.convert j with
        | error e =>
          rw [hb] at h
          cases h
        | ok b =>
          rw [hb] at h
          cases h
          refine ⟨?_, hslots⟩
          rintro _ ⟨⟩
          exact hf.convert j b hj hb
    · cases hr : fs.convertMember name j slots.2 with
      | none =>
        rw [hr] at h
        cases h
      | some r =>
        cases r with
        | error e =>
          rw [hr] at h
          cases h
        | ok others =>
          rw [hr] at h
          cases h
          exact ⟨hslot, hfields.member name j slots.2 others hj hslots hr⟩
  case finish =>
    rintro slots x ⟨hslot, hslots⟩ hx
    simp only [Fields.cons] at hx
    split at hx
    · rename_i b hb
      cases hothers : fs.finish slots.2 with
      | error text =>
        rw [hothers] at hx
        cases hx
      | ok a =>
        rw [hothers] at hx
        obtain rfl := Except.ok.inj hx
        refine ⟨?_, hfields.finish _ _ hslots hothers⟩
        rcases Option.or_eq_some_iff.mp hb with hb | ⟨-, hb⟩
        · exact hslot b hb
        · exact hf.absent b hb
    · cases hx
  case elements =>
    intro index expected items x left hitems hx
    have hothers {b : β} (hb : R b) {items : List Json} (hitems : ∀ j ∈ items, P j)
        (hx : (fs.convertElements (index + 1) expected items).map
          (fun r => ((b, r.1), r.2)) = .ok (x, left)) : R x.1 ∧ Q x.2 := by
      cases hothers : fs.convertElements (index + 1) expected items with
      | error e =>
        rw [hothers] at hx
        cases hx
      | ok r =>
        rw [hothers] at hx
        cases hx
        exact ⟨hb, hfields.elements _ _ _ _ _ hitems hothers⟩
    simp only [Fields.cons] at hx
    split at hx
    · obtain ⟨hj, hrest⟩ := List.forall_mem_cons.mp hitems
      split at hx
      · cases hx
      · rename_i b hb
        exact hothers (hf.convert _ b hj hb) hrest hx
    · split at hx
      · rename_i b hb
        exact hothers (hf.short b hb) (fun _ hj => absurd hj List.not_mem_nil) hx
      · cases hx

/-- Whatever the members, the values have the property. -/
theorem carries_convertMembers {fs : Fields ρ α} {P : Json → Prop} {S : ρ → Prop} {Q : α → Prop}
    (h : fs.Carrying P S Q) {members : List (String × Json)} (hmembers : ∀ m ∈ members, P m.2)
    {slots : ρ} (hslots : S slots) {a : α} (ha : fs.convertMembers slots members = .ok a) :
    Q a := by
  induction members generalizing slots with
  | nil => exact h.finish slots a hslots ha
  | cons m members ih =>
    obtain ⟨hm, hmembers⟩ := List.forall_mem_cons.mp hmembers
    rw [convertMembers] at ha
    split at ha
    · exact ih hmembers hslots ha
    · cases ha
    · rename_i slots' hslots'
      exact ih hmembers (h.member m.1 m.2 slots slots' hm hslots hslots') ha

end Fields

/-- **A record that is converted has the property** that the values of its fields give it, if the
members or elements of the value have one. -/
theorem Decoder.carries_record {ρ γ : Type} {fs : Fields ρ α} {P P' : Json → Prop} {Q : α → Prop}
    (h : fs.Carries P' Q) (hmembers : ∀ members, P (.obj members) → ∀ m ∈ members, P' m.2)
    (hitems : ∀ items, P (.arr items) → ∀ j ∈ items, P' j) (name : String) {build : α → γ}
    {R : γ → Prop} (hbuild : ∀ a, Q a → R (build a)) : (record name fs build).Carries P R := by
  obtain ⟨S, hfields⟩ := h
  intro j c hj hc
  simp only [record] at hc
  split at hc
  · rename_i items
    split at hc
    · cases hc
    · rename_i a ha
      rw [← Except.ok.inj hc]
      exact hbuild a (hfields.elements _ _ items a _ (hitems items hj) ha)
    · cases hc
  · rename_i members
    cases ha : fs.convertMembers fs.blank members with
    | error e =>
      rw [ha] at hc
      cases hc
    | ok a =>
      rw [ha] at hc
      rw [← Except.ok.inj hc]
      exact hbuild a
        (Fields.carries_convertMembers hfields (hmembers members hj) hfields.blank ha)
  · cases hc

/-- What a property of values makes of the values that they hold: these have another one, which
implies the first and which nothing at all has as well. -/
structure Inherits (P P' : Json → Prop) : Prop where
  null : P' .null
  blank : P (.obj [])
  mono : ∀ j, P' j → P j
  members : ∀ members, P (.obj members) → ∀ m ∈ members, P' m.2
  items : ∀ items, P (.arr items) → ∀ j ∈ items, P' j

theorem InOrder.inherits {levels : Nat} : Inherits (InOrder (levels + 1)) (InOrder levels) where
  null := .null
  blank := .obj .nil fun _ hf => absurd hf List.not_mem_nil
  mono _ h := h.mono (Nat.le_succ levels)
  members := by
    rintro members ⟨⟩
    assumption
  items := by
    rintro items ⟨⟩
    assumption

end Json

end MeshNode
