import MeshNode.Json.Decoder
import MeshNode.Proofs.Json.Values

/-!
# What reading answers with

Whatever the text, a value that is read has its fields in order, its integers have 64 bits, and it
nests no deeper than it was allowed to (`Shaped`). If it holds no doubles, it is thus one that is
read back (`answers_readValue`). The typed readers answer with values that have a property as soon
as the parts they read have it (`Decoder.Yields`), and a record is dealt with field by field:
whichever members it was read from, in whatever order, and whichever fields were absent.
-/

namespace MeshNode

namespace Json

variable {α β : Type}

/-- What is answered, if anything is, has the property. -/
def Answers (r : Except Failure (α × Bytes)) (P : α → Prop) : Prop :=
  ∀ a rest, r = .ok (a, rest) → P a

section Answers

variable {P Q : α → Prop} {r : Except Failure (α × Bytes)}

theorem answers_error (e : Failure) : Answers (.error e) P := fun _ _ h => nomatch h

theorem answers_ok {a : α} (h : P a) (rest : Bytes) : Answers (.ok (a, rest)) P := by
  rintro _ _ ⟨⟩
  exact h

theorem Answers.mono (h : Answers r P) (himp : ∀ a, P a → Q a) : Answers r Q := fun a rest hr =>
  himp a (h a rest hr)

theorem Answers.mapRead {f : α → β} {R : β → Prop} (h : Answers r fun a => R (f a)) :
    Answers (mapRead f r) R := by
  rcases r with e | ⟨a, rest⟩
  · exact answers_error e
  · exact answers_ok (h a rest rfl) rest

theorem answers_readAs {word : Reader β} {a : α} (h : P a) (s : Bytes) :
    Answers (readAs word a s) P := by
  unfold readAs
  split
  · exact answers_ok h _
  · exact answers_error _

theorem Answers.endArray (h : Answers r P) : Answers (endArray r) P := by
  unfold Json.endArray
  split
  · split
    · exact answers_ok (h _ _ rfl) _
    · exact answers_error _
  · exact answers_error _

theorem Answers.endObject (h : Answers r P) : Answers (endObject r) P := by
  unfold Json.endObject
  split
  · split
    · exact answers_ok (h _ _ rfl) _
    · exact answers_error _
  · exact answers_error _

theorem answers_readMismatch (expected : String) (s : Bytes) :
    Answers (readMismatch expected s) P := by
  unfold readMismatch
  split
  · exact answers_error _
  · split_ifs
    · exact answers_error _
    · exact answers_error _
    · split <;> exact answers_error _

/-! ### Elements and members -/

theorem answers_readMemberValue {value : Reader α} (h : ∀ s, Answers (value s) P) (name : String)
    (s : Bytes) : Answers (readMemberValue name value s) P := by
  unfold readMemberValue
  split
  · exact answers_error _
  · rename_i rest _
    intro a rest' hread
    cases hvalue : value rest with
    | error e =>
      rw [hvalue] at hread
      cases hread
    | ok x =>
      rw [hvalue] at hread
      exact h rest a rest' (hvalue.trans hread)

theorem answers_readElements {element : Reader α} (h : ∀ s, Answers (element s) P)
    (rounds index : Nat) (s : Bytes) :
    Answers (readElements element rounds index s) fun as => ∀ a ∈ as, P a := by
  induction rounds generalizing index s with
  | zero => exact answers_error _
  | succ rounds ih =>
    unfold readElements
    split
    · exact answers_error _
    · exact answers_ok (fun a ha => absurd ha List.not_mem_nil) _
    · split
      · exact answers_error _
      · rename_i a rest hread
        split
        · exact answers_error _
        · rename_i as rest' hreads
          exact answers_ok (List.forall_mem_cons.mpr ⟨h _ a rest hread, ih _ _ as rest' hreads⟩) _

theorem answers_readMembers {value : Reader α} (h : ∀ s, Answers (value s) P) (rounds : Nat)
    (first : Bool) (s : Bytes) :
    Answers (readMembers value rounds first s) fun members => ∀ m ∈ members, P m.2 := by
  induction rounds generalizing first s with
  | zero => exact answers_error _
  | succ rounds ih =>
    unfold readMembers
    split
    · exact answers_error _
    · exact answers_ok (fun a ha => absurd ha List.not_mem_nil) _
    · split
      · exact answers_error _
      · rename_i a rest hread
        split
        · exact answers_error _
        · rename_i members rest' hreads
          refine answers_ok (fun m hm => ?_) _
          rcases List.mem_cons.mp hm with rfl | hm
          · exact answers_readMemberValue h _ _ a rest hread
          · exact ih _ _ members rest' hreads m hm

end Answers

/-! ### Numbers -/

/-- An integer has 64 bits. -/
def Kept : Number → Prop
  | .int n => Number.InRange n
  | .float _ => True

theorem fst_appendDigits_le {n : Nat} (h : n ≤ maxWord) (ds : Bytes) :
    (appendDigits n ds).1 ≤ maxWord := by
  induction ds generalizing n with
  | nil => exact h
  | cons d ds ih =>
    rw [appendDigits]
    split_ifs with hnext
    · exact ih hnext
    · exact h

theorem kept_finishInteger (positive : Bool) {n : Nat} (h : n ≤ maxWord) :
    Kept (finishInteger positive n) := by
  unfold maxWord at h
  unfold finishInteger
  split_ifs with hpositive hzero hleast
  · constructor <;> omega
  · exact trivial
  · constructor <;> omega
  · exact trivial

theorem answers_finishFloat (positive : Bool) (significand : Nat) (exponent : Int) (s : Bytes) :
    Answers (finishFloat positive significand exponent s) Kept := by
  unfold finishFloat
  split
  · exact answers_ok trivial _
  · exact answers_error _

theorem answers_readExponent (positive : Bool) (significand : Nat) (start : Int) (s : Bytes) :
    Answers (readExponent positive significand start s) Kept := by
  unfold readExponent
  split
  split
  · exact answers_error _
  · split
    · split
      · exact answers_finishFloat _ _ _ _
      · split
        · exact answers_error _
        · exact answers_ok trivial _
    · exact answers_error _

theorem answers_readFraction (positive : Bool) (significand : Nat) (exponent : Int) (s : Bytes) :
    Answers (readFraction positive significand exponent s) Kept := by
  unfold readFraction
  rcases spanDigits s with ⟨_ | ⟨d, ds⟩, rest⟩
  · exact answers_error _
  · simp only [readOptionalExponent]
    split
    · exact answers_readExponent _ _ _ _
    · exact answers_readExponent _ _ _ _
    · exact answers_finishFloat _ _ _ _

theorem answers_readAfterDigits (positive : Bool) {significand : Nat} (h : significand ≤ maxWord)
    (left s : Bytes) : Answers (readAfterDigits positive significand left s) Kept := by
  unfold readAfterDigits
  split
  · exact answers_readFraction _ _ _ _
  · split
    · exact answers_readExponent _ _ _ _
    · exact answers_readExponent _ _ _ _
    · exact answers_ok (kept_finishInteger positive h) _
    · exact answers_finishFloat _ _ _ _

theorem answers_readNumber (positive : Bool) (s : Bytes) :
    Answers (readNumber positive s) Kept := by
  cases s with
  | nil => exact answers_error _
  | cons d rest =>
    have hdigit : Decimal.digitValue d ≤ maxWord := by
      have := d.toNat_lt
      unfold Decimal.digitValue maxWord
      omega
    rw [readNumber.eq_def]
    simp only
    split
    · -- No digit goes on after a zero.
      split
      · split
        · exact answers_error _
        · exact answers_readAfterDigits positive (Nat.zero_le _) _ _
      · exact answers_readAfterDigits positive (Nat.zero_le _) _ _
    · split
      · exact answers_readAfterDigits positive (fst_appendDigits_le hdigit _) _ _
      · exact answers_error _

/-! ### Values -/

/-- No number in the value is a double. Minus zero is one. -/
inductive Integral : Json → Prop where
  | null : Integral .null
  | bool {b : Bool} : Integral (.bool b)
  | int {n : Int} : Integral (.num (.int n))
  | str {s : String} : Integral (.str s)
  | arr {items : List Json} (hitems : ∀ j ∈ items, Integral j) : Integral (.arr items)
  | obj {fields : List (String × Json)} (hfields : ∀ f ∈ fields, Integral f.2) :
      Integral (.obj fields)

/-- Values that reading answers with: integers have 64 bits, fields are in order, and no more than
the given number of arrays and objects stand inside each other. -/
inductive Shaped : (levels : Nat) → Json → Prop where
  | null {levels : Nat} : Shaped levels .null
  | bool {levels : Nat} {b : Bool} : Shaped levels (.bool b)
  | num {levels : Nat} {n : Number} (hkept : Kept n) : Shaped levels (.num n)
  | str {levels : Nat} {s : String} : Shaped levels (.str s)
  | arr {levels : Nat} {items : List Json} (hitems : ∀ j ∈ items, Shaped levels j) :
      Shaped (levels + 1) (.arr items)
  | obj {levels : Nat} {fields : List (String × Json)} (hsorted : Keyed.Sorted fields)
      (hfields : ∀ f ∈ fields, Shaped levels f.2) : Shaped (levels + 1) (.obj fields)

/-- Without doubles, such a value is read back. -/
theorem Shaped.readable {levels : Nat} {j : Json} (h : j.Shaped levels) (hintegral : j.Integral) :
    j.Readable levels := by
  induction h with
  | null => exact .null
  | bool => exact .bool
  | num hkept =>
    cases hintegral
    exact .int hkept
  | str => exact .str
  | arr _ ih =>
    cases hintegral with
    | arr hitems => exact .arr fun j hj => ih j hj (hitems j hj)
  | obj hsorted _ ih =>
    cases hintegral with
    | obj hfields => exact .obj hsorted fun f hf => ih f hf (hfields f hf)

/-- A value is one that reading answers with if its elements and members are. -/
theorem answers_readTree {levels : Nat} (ih : ∀ n, levels = n + 1 → ∀ s,
    Answers (readValue n s) (Shaped n)) (s : Bytes) :
    Answers (readValue levels s) (Shaped levels) := by
  rw [readValue, readTree.eq_def]
  simp only
  split
  · exact answers_error _
  · split_ifs
    · exact answers_readAs .null _
    · exact answers_readAs .bool _
    · exact answers_readAs .bool _
    · exact ((answers_readNumber _ _).mono fun _ => .num).mapRead
    · exact ((answers_readNumber _ _).mono fun _ => .num).mapRead
    · exact Answers.mapRead fun _ _ _ => .str
    · -- An array takes a level from its elements.
      split
      · exact answers_error _
      · rename_i n
        have hitems := answers_readElements (ih n rfl)
        exact Answers.endArray (Answers.mapRead ((hitems _ _ _).mono fun items h => .arr h))
    · -- The members of an object are collected by their names, which puts them in order.
      split
      · exact answers_error _
      · rename_i n
        have hmembers := answers_readMembers (ih n rfl)
        refine Answers.endObject (Answers.mapRead ((hmembers _ _ _).mono fun members h => ?_))
        exact .obj (Keyed.sorted_ofList members) fun f hf => h f (Keyed.mem_of_mem_ofList hf)
    · exact answers_error _

/-- **What reading answers with.** -/
theorem shaped_readValue (levels : Nat) (s : Bytes) :
    Answers (readValue levels s) (Shaped levels) := by
  induction levels generalizing s with
  | zero => exact answers_readTree (fun n hn => absurd hn (Nat.succ_ne_zero n).symm) s
  | succ levels ih => exact answers_readTree (fun n hn => Nat.succ.inj hn ▸ ih) s

/-- **A value that was read is read back**, if it holds no doubles. -/
theorem answers_readValue (levels : Nat) (s : Bytes) :
    Answers (readValue levels s) fun j => j.Integral → j.Readable levels :=
  (shaped_readValue levels s).mono fun _ => Shaped.readable

/-! ### Decoders -/

/-- What is read inside a bracket has the property. -/
theorem answers_nested {inside : Nat → Reader α} {P : α → Prop} {levels : Nat}
    (h : ∀ s, Answers (inside levels s) P) (s : Bytes) :
    Answers (Decoder.nested inside (levels + 1) s) P := h _

namespace Decoder

variable {P : α → Prop} {levels : Nat}

/-- Whatever the text, what is read has the property. -/
def Yields (d : Decoder α) (levels : Nat) (P : α → Prop) : Prop :=
  ∀ s, Answers (d.read levels s) P

theorem yields_true (d : Decoder α) (levels : Nat) : d.Yields levels fun _ => True :=
  fun _ _ _ _ => trivial

theorem yields_value (levels : Nat) :
    value.Yields levels fun j => j.Integral → j.Readable levels := answers_readValue levels

theorem bounds_of_checkInteger {least greatest i : Int} {expected : String} {n : Number}
    (h : checkInteger least greatest expected n = .ok i) : least ≤ i ∧ i ≤ greatest := by
  cases n with
  | int n =>
    rw [checkInteger] at h
    split_ifs at h with hbounds
    obtain rfl := Except.ok.inj h
    exact hbounds
  | float bits => cases h

theorem answers_checkInteger (least greatest : Int) (expected : String)
    (r : Except Failure (Number × Bytes)) :
    Answers
      (match r with
        | .error e => .error e
        | .ok (n, rest) =>
          match checkInteger least greatest expected n with
          | .ok n => .ok (n, rest)
          | .error text => .error (.here (.mismatch text) rest))
      fun n => least ≤ n ∧ n ≤ greatest := by
  split
  · exact answers_error _
  · split
    · rename_i hn
      rintro _ _ ⟨⟩
      exact bounds_of_checkInteger hn
    · exact answers_error _

/-- An integer that is read is within its bounds. -/
theorem yields_integer (least greatest : Int) (expected : String) (levels : Nat) :
    (integer least greatest expected).Yields levels fun n => least ≤ n ∧ n ≤ greatest := by
  intro s
  simp only [integer]
  split
  · exact answers_error _
  · split_ifs
    · exact answers_checkInteger _ _ _ _
    · exact answers_checkInteger _ _ _ _
    · exact answers_readMismatch _ _

/-- A signed integer has 64 bits. -/
theorem yields_int64 (levels : Nat) :
    int64.Yields levels fun n => -0x8000000000000000 ≤ n ∧ n ≤ 0x7fffffffffffffff :=
  yields_integer _ _ _ levels

/-- The image of what is read has the property. -/
theorem Yields.map {d : Decoder α} {f : α → β} {Q : β → Prop}
    (h : d.Yields levels fun a => Q (f a)) : (d.map f).Yields levels Q := fun s => (h s).mapRead

theorem yields_word64 (levels : Nat) : word64.Yields levels (· < UInt64.size) := by
  have hsize : UInt64.size = 0x10000000000000000 := rfl
  refine Yields.map fun s => (yields_integer _ _ _ levels s).mono fun n hn => ?_
  omega

/-- A value that is there has the property. -/
theorem Yields.option {d : Decoder α} (h : d.Yields levels P) :
    d.option.Yields levels fun o => ∀ a ∈ o, P a := by
  have hsome {a : α} (ha : P a) : ∀ b ∈ some a, P b := by
    rintro b ⟨⟩
    exact ha
  intro s
  simp only [Decoder.option]
  split
  · exact ((h _).mono fun _ => hsome).mapRead
  · split_ifs
    · exact answers_readAs (fun a ha => absurd ha (Option.not_mem_none a)) _
    · exact ((h _).mono fun _ => hsome).mapRead

/-- The elements of a list that is read have the property. -/
theorem Yields.list {d : Decoder α} (h : d.Yields levels P) :
    d.list.Yields (levels + 1) fun as => ∀ a ∈ as, P a := by
  intro s
  simp only [Decoder.list]
  split
  · exact answers_error _
  · split_ifs
    · exact answers_nested (fun s => Answers.endArray (answers_readElements h _ _ s)) _
    · exact answers_readMismatch _ _

/-- A map that is read is in order, and its values have the property. -/
theorem Yields.dict {d : Decoder α} (h : d.Yields levels P) :
    d.dict.Yields (levels + 1) fun m => m.Sorted ∧ ∀ p ∈ m, P p.2 := by
  intro s
  simp only [Decoder.dict]
  split
  · exact answers_error _
  · split_ifs
    · refine answers_nested (fun s => Answers.endObject (Answers.mapRead ?_)) _
      exact (answers_readMembers h _ _ _).mono fun members hmembers =>
        ⟨Keyed.sorted_ofList members, fun p hp => hmembers p (Keyed.mem_of_mem_ofList hp)⟩
    · exact answers_readMismatch _ _

/-- What a whole text is read as has the property. -/
theorem Yields.of_ofBytes {d : Decoder α} (h : d.Yields maxDepth P) {text : Bytes} {a : α}
    (hread : d.ofBytes text = .ok a) : P a := by
  unfold ofBytes readAll at hread
  split at hread
  · cases hread
  · rename_i a' rest hvalue
    split at hread
    · obtain rfl := Except.ok.inj hread
      exact h text a' rest hvalue
    · cases hread

end Decoder

/-! ### Records -/

/-- The value of a field has the property, be it read or not. -/
structure Field.Yields (f : Field β) (levels : Nat) (P : β → Prop) : Prop where
  read : f.decoder.Yields levels P
  absent : ∀ b ∈ f.absent, P b
  short : ∀ b ∈ f.short, P b

namespace Field

variable {d : Decoder β} {levels : Nat} {P : β → Prop}

theorem yields_required (h : d.Yields levels P) (name : String) :
    (required name d).Yields levels P := ⟨h, fun _ => nofun, fun _ => nofun⟩

theorem yields_withDefault (h : d.Yields levels P) (name : String) (b : β) (hb : P b) :
    (withDefault name d b).Yields levels P := by
  refine ⟨h, ?_, ?_⟩ <;> rintro _ ⟨⟩ <;> exact hb

theorem yields_optional (h : d.Yields levels P) (name : String) :
    (optional name d).Yields levels fun o => ∀ b ∈ o, P b := by
  refine ⟨h.option, ?_, fun _ => nofun⟩
  rintro _ ⟨⟩
  exact fun _ => nofun

end Field

namespace Fields

variable {ρ : Type} {levels : Nat}

/-- What is known of the slots stays so with every member, and the values have the property. -/
structure Keeps (fs : Fields ρ α) (levels : Nat) (S : ρ → Prop) (Q : α → Prop) : Prop where
  blank : S fs.blank
  member : ∀ name slots read, fs.readMember levels name slots = some read → S slots →
    ∀ s, Answers (read s) S
  finish : ∀ slots a, S slots → fs.finish slots = .ok a → Q a
  elements : ∀ index expected s, Answers (fs.readElements levels index expected s) Q

/-- The values of the fields have the property, however they are read. -/
def Yields (fs : Fields ρ α) (levels : Nat) (Q : α → Prop) : Prop := ∃ S, fs.Keeps levels S Q

theorem yields_nil (levels : Nat) : nil.Yields levels fun _ => True := by
  refine ⟨fun _ => True, trivial, fun _ _ _ _ => ?_, fun _ _ _ _ => trivial, fun _ _ _ => ?_⟩
  · exact fun _ _ _ _ _ => trivial
  · exact fun _ _ _ => trivial

theorem Yields.mono {fs : Fields ρ α} {Q R : α → Prop} (h : fs.Yields levels Q)
    (himp : ∀ a, Q a → R a) : fs.Yields levels R := by
  obtain ⟨S, hfields⟩ := h
  exact ⟨S, hfields.blank, hfields.member,
    fun slots a hslots hfinish => himp a (hfields.finish slots a hslots hfinish),
    fun index expected s => (hfields.elements index expected s).mono himp⟩

/-- One more field in front. -/
theorem Yields.cons {fs : Fields ρ α} {Q : α → Prop} (h : fs.Yields levels Q) {f : Field β}
    {P : β → Prop} (hf : f.Yields levels P) :
    (cons f fs).Yields levels fun x => P x.1 ∧ Q x.2 := by
  obtain ⟨S, hfields⟩ := h
  refine ⟨fun slots => (∀ b ∈ slots.1, P b) ∧ S slots.2, ?_⟩
  constructor
  case blank => exact ⟨fun _ => nofun, hfields.blank⟩
  case member =>
    rintro name slots read hread ⟨hslot, hslots⟩ s
    simp only [Fields.cons] at hread
    split_ifs at hread
    · -- The member fills the slot of the field.
      obtain rfl := Option.some.inj hread
      split
      · exact answers_error _
      · refine Answers.mapRead ((answers_readMemberValue hf.read name s).mono fun b hb => ?_)
        refine ⟨?_, hslots⟩
        rintro _ ⟨⟩
        exact hb
    · -- The member belongs to one of the other fields.
      obtain ⟨read', hread', rfl⟩ := Option.map_eq_some_iff.mp hread
      exact Answers.mapRead
        ((hfields.member name slots.2 read' hread' hslots s).mono fun _ h => ⟨hslot, h⟩)
  case finish =>
    rintro slots x ⟨hslot, hslots⟩ hx
    simp only [Fields.cons] at hx
    split at hx
    · rename_i b hb
      cases hothers : fs.finish slots.2 with
      | error text =>
        rw [hothers] at hx
        cases hx
      | ok a =>
        rw [hothers] at hx
        obtain rfl := Except.ok.inj hx
        refine ⟨?_, hfields.finish _ _ hslots hothers⟩
        -- The value comes from the slot, or stands for a field that is absent.
        rcases Option.or_eq_some_iff.mp hb with hb | ⟨-, hb⟩
        · exact hslot b hb
        · exact hf.absent b hb
    · cases hx
  case elements =>
    intro index expected s
    have hothers {b : β} (hb : P b) (s : Bytes) :
        Answers (mapRead (b, ·) (fs.readElements levels (index + 1) expected s))
          fun x => P x.1 ∧ Q x.2 :=
      Answers.mapRead ((hfields.elements _ _ _).mono fun _ h => ⟨hb, h⟩)
    simp only [Fields.cons]
    split
    · exact answers_error _
    · split
      · exact answers_error _
      · rename_i hb
        exact hothers (hf.read _ _ _ hb) _
    · split
      · rename_i hb
        exact hothers (hf.short _ hb) _
      · exact answers_error _

/-- Whatever the members, the values have the property. -/
theorem answers_readMembers {fs : Fields ρ α} {S : ρ → Prop} {Q : α → Prop}
    (h : fs.Keeps levels S Q) (rounds : Nat) (first : Bool) {slots : ρ} (hslots : S slots)
    (s : Bytes) : Answers (fs.readMembers levels rounds first slots s) Q := by
  induction rounds generalizing first slots s with
  | zero => exact answers_error _
  | succ rounds ih =>
    unfold Fields.readMembers
    split
    · exact answers_error _
    · split
      · rename_i hfinish
        exact answers_ok (h.finish _ _ hslots hfinish) _
      · exact answers_error _
    · split
      · rename_i hread
        split
        · exact answers_error _
        · rename_i hslots'
          exact ih _ (h.member _ _ _ hread hslots _ _ _ hslots') _
      · split
        · exact answers_error _
        · exact ih _ hslots _

end Fields

/-- **A record that is read has the property** that the values of its fields give it. -/
theorem Decoder.yields_record {ρ γ : Type} {fs : Fields ρ α} {levels : Nat} {Q : α → Prop}
    (h : fs.Yields levels Q) (name : String) {build : α → γ} {P : γ → Prop}
    (hbuild : ∀ a, Q a → P (build a)) : (record name fs build).Yields (levels + 1) P := by
  obtain ⟨S, hfields⟩ := h
  intro s
  simp only [record]
  split
  · exact answers_error _
  · refine Answers.mapRead (Answers.mono ?_ hbuild)
    split_ifs
    · exact answers_nested (fun s => (hfields.elements _ _ s).endArray) _
    · exact answers_nested (fun s =>
        (Fields.answers_readMembers hfields _ _ hfields.blank s).endObject) _
    · exact answers_readMismatch _ _

end Json

end MeshNode
