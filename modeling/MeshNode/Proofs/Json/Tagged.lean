import MeshNode.Proofs.Json.Order
import MeshNode.Proofs.Json.Recoding

/-!
# Records told apart by a member

The member that tells records apart may stand anywhere, so the others are kept as they stand until
the end and converted then. Whatever their order, what is read has a property if the conversions of
every variant give it (`Variant.Admits`). A written record starts with the name of its variant, and
it is read if its members are converted to it.
-/

namespace MeshNode.Json

variable {α β γ ρ : Type} {levels : Nat}

namespace Decoder

/-! ### What is converted -/

/-- An unsigned integer that is converted has 64 bits. -/
theorem carries_word64 : word64.Carries (fun _ => True) (· < UInt64.size) := by
  intro j n _ hn
  have hinteger (i : Int)
      (hi : (integer 0 0xffffffffffffffff "u64").convert j = .ok i) : i.toNat < UInt64.size := by
    have hbounds : 0 ≤ i ∧ i ≤ 0xffffffffffffffff := by
      cases j with
      | num m => exact bounds_of_checkInteger hi
      | null | bool | str | arr | obj => cases hi
    have hsize : UInt64.size = 0x10000000000000000 := rfl
    omega
  cases hi : (integer 0 0xffffffffffffffff "u64").convert j with
  | error text => simp [word64, map, hi, Except.map] at hn
  | ok i =>
    simp only [word64, map, hi, Except.map, Except.ok.injEq] at hn
    exact hn ▸ hinteger i hi

/-- Such an integer is converted from its written form. -/
theorem convert_word64 {n : Nat} (h : n < UInt64.size) : word64.convert (.nat n) = .ok n := by
  have hn : n < 0x10000000000000000 := h
  have hbounds : (0 : Int) ≤ n ∧ (n : Int) ≤ 0xffffffffffffffff := by omega
  have hinteger : (integer 0 0xffffffffffffffff "u64").convert (.nat n) = .ok (n : Int) :=
    if_pos hbounds
  simp only [word64, map, hinteger, Except.map, Int.toNat_natCast]

/-- Whatever a variant is converted from, it has the property. -/
structure Variant.Admits (v : Variant α) (P : α → Prop) : Prop where
  members : ∀ members a, v.ofMembers members = .ok a → P a
  elements : ∀ items a, v.ofElements items = .ok a → P a

/-- A variant has the property that the values of its fields give it. -/
theorem admits_variant {fs : Fields ρ α} {Q : α → Prop} (h : fs.Carries (fun _ => True) Q)
    (name : String) {build : α → γ} {P : γ → Prop} (hbuild : ∀ a, Q a → P (build a)) :
    (variant name fs build).Admits P := by
  obtain ⟨S, hfields⟩ := h
  constructor
  case members =>
    intro members c hc
    simp only [variant] at hc
    cases hconvert : fs.convertMembers fs.blank members with
    | error text =>
      rw [hconvert] at hc
      cases hc
    | ok a =>
      rw [hconvert] at hc
      obtain rfl := Except.ok.inj hc
      exact hbuild a (Fields.carries_convertMembers hfields (fun _ _ => trivial) hfields.blank
        hconvert)
  case elements =>
    intro items c hc
    simp only [variant] at hc
    split at hc
    · cases hc
    · rename_i a hconvert
      obtain rfl := Except.ok.inj hc
      exact hbuild a (hfields.elements _ _ _ _ _ (fun _ _ => trivial) hconvert)
    · cases hc

/-! ### What is read -/

/-- A name stands for one of the choices. -/
theorem mem_of_pick {choices : List (String × α)} {name : String} {a : α}
    (h : pick choices name = .ok a) : (name, a) ∈ choices := by
  unfold pick at h
  split at h
  · obtain rfl := Except.ok.inj h
    exact Keyed.mem_of_get? ‹_›
  · cases h

theorem yields_identifier (choices : List (String × α)) :
    (identifier choices).Yields levels fun a => ∃ name, (name, a) ∈ choices := by
  intro s
  simp only [identifier]
  split
  · exact answers_error _
  · split_ifs
    · split
      · exact answers_error _
      · split
        · exact answers_ok ⟨_, mem_of_pick ‹_›⟩ _
        · exact answers_error _
    · exact answers_readMismatch _ _

/-- The variant that a record is read as is one of the choices. -/
theorem answers_readTagged (tag : String) (choices : List (String × Variant α)) (rounds : Nat)
    (first : Bool) {u : Untagged α} (hu : ∀ v ∈ u.variant, ∃ name, (name, v) ∈ choices)
    (s : Bytes) :
    Answers (readTagged tag choices levels rounds first u s) fun x =>
      ∃ name, (name, x.1) ∈ choices := by
  induction rounds generalizing first u s with
  | zero => exact answers_error _
  | succ rounds ih =>
    unfold readTagged
    split
    · exact answers_error _
    · split
      · rename_i v hv
        refine answers_ok ?_ _
        exact hu v hv
      · exact answers_error _
    · split_ifs
      · split
        · exact answers_error _
        · split
          · exact answers_error _
          · rename_i hread
            refine ih false ?_ _
            rintro _ ⟨⟩
            exact answers_readMemberValue (yields_identifier choices) _ _ _ _ hread
      · split
        · exact answers_error _
        · refine ih false ?_ _
          exact hu

/-- **A record of several has the property** if every variant has it. -/
theorem yields_tagged {choices : List (String × Variant α)} {P : α → Prop}
    (h : ∀ name v, (name, v) ∈ choices → v.Admits P) (what tag : String) :
    (tagged what tag choices).Yields (levels + 1) P := by
  intro s
  simp only [tagged]
  split
  · exact answers_error _
  · split_ifs
    -- In both forms what is inside is converted, and then it is settled whether that failed.
    · generalize hinside : nested _ _ _ = r
      have hread : Answers r fun x => ∀ a, x = .ok a → P a := by
        rw [← hinside]
        refine answers_nested (fun s => Answers.endObject (Answers.mapRead ?_)) _
        have hblank : ∀ v ∈ (⟨none, []⟩ : Untagged α).variant, ∃ name, (name, v) ∈ choices :=
          fun v hv => absurd hv (Option.not_mem_none v)
        refine (answers_readTagged tag choices _ true hblank s).mono ?_
        rintro ⟨v, members⟩ ⟨name, hv⟩ a ha
        exact (h name v hv).members members a ha
      split
      · exact answers_error _
      · exact answers_ok (hread _ _ rfl _ rfl) _
      · exact answers_error _
    · generalize hinside : nested _ _ _ = r
      have hread : Answers r fun x => ∀ a, x = .ok a → P a := by
        rw [← hinside]
        refine answers_nested (fun s => Answers.endArray (Answers.mapRead ?_)) _
        split
        · exact answers_error _
        · exact answers_error _
        · split
          · exact answers_error _
          · rename_i hname
            obtain ⟨name, hv⟩ := yields_identifier choices _ _ _ hname
            refine Answers.mapRead fun items _ _ a ha => ?_
            exact (h name _ hv).elements items a ha
      split
      · exact answers_error _
      · exact answers_ok (hread _ _ rfl _ rfl) _
      · exact answers_error _
    · exact answers_readMismatch _ _

/-! ### What is written -/

/-- The members after the first one are kept as they stand up to the brace. -/
theorem readTagged_writeFields {tag : String} (choices : List (String × Variant α))
    {members : List (String × Json)}
    (h : ∀ m ∈ members, m.1 ≠ tag ∧ Reads (readVerbatim levels) m.2 m.2) {rounds : Nat}
    (hrounds : members.length < rounds) (v : Variant α) (front : List (String × Json))
    (L : Layout) (depth : Nat) {blanks : Bytes} (hblanks : Blank blanks) (rest : Bytes) :
    readTagged tag choices levels rounds false ⟨some v, front⟩
        (writeFields L depth members ++ (blanks ++ 125 :: rest)) =
      .ok ((v, front ++ members), 125 :: rest) := by
  induction members generalizing rounds front with
  | nil =>
    obtain ⟨rounds, rfl⟩ := Nat.exists_eq_succ_of_ne_zero (Nat.ne_of_gt hrounds)
    simp [writeFields, readTagged, nextMember_brace hblanks]
  | cons m members ih =>
    obtain ⟨rounds, rfl⟩ := Nat.exists_eq_succ_of_ne_zero (Nat.ne_of_gt (Nat.zero_lt_of_lt hrounds))
    obtain ⟨name, j⟩ := m
    obtain ⟨⟨hname, hvalue⟩, hmembers⟩ := List.forall_mem_cons.mp h
    have hdelimited := delimited_writeFields L depth hblanks members rest
    have htail := ih hmembers (Nat.lt_of_succ_lt_succ hrounds) (front ++ [(name, j)])
    rw [writeFields, List.cons_append, List.append_assoc, List.append_assoc, List.cons_append,
      List.append_assoc, List.append_assoc]
    simp only [readTagged, nextMember_further (L.line_blank depth), if_neg hname,
      readMemberValue_write hvalue _ hdelimited, htail, List.append_assoc, List.cons_append,
      List.nil_append]

/-- **A record of several is read**, if its first member names the variant that the others are
converted to. -/
theorem reads_tagged {tag name : String} {choices : List (String × Variant α)} {v : Variant α}
    (hname : choices.lookup name = some v) {members : List (String × Json)}
    (h : ∀ m ∈ members, m.1 ≠ tag ∧ Reads (readVerbatim levels) m.2 m.2) {a : α}
    (hconvert : v.ofMembers members = .ok a) (what : String) :
    Reads ((tagged what tag choices).read (levels + 1)) (.obj ((tag, .str name) :: members)) a := by
  intro L depth blanks rest hblanks _
  have hbrace (s : Bytes) : skipBlanks (123 :: s) = 123 :: s := by simp [skipBlanks]
  rw [write, List.cons_append]
  simp only [List.append_assoc, List.cons_append, List.nil_append]
  -- There are as many rounds as bytes left, and every member takes at least one.
  generalize hlength : (L.line (depth + 1) ++ (renderText tag ++ 58 :: (L.gap ++
    ((str name).write L (depth + 1) ++ (writeFields L (depth + 1) members ++
      (L.line depth ++ 125 :: rest)))))).length = n
  have hrounds : members.length < n := by
    have hle := length_le_writeFields L (depth + 1) members
    rw [← hlength]
    simp only [List.length_append, List.length_cons]
    omega
  have hdelimited := delimited_writeFields L (depth + 1) (L.line_blank depth) members rest
  have hfirst : readMemberValue tag ((identifier choices).read levels)
      (58 :: (L.gap ++ ((str name).write L (depth + 1) ++
        (writeFields L (depth + 1) members ++ (L.line depth ++ 125 :: rest))))) = .ok (v, _) :=
    readMemberValue_write (reads_identifier hname levels) tag hdelimited
  have htail := readTagged_writeFields choices h hrounds v [] L (depth + 1) (L.line_blank depth)
    rest
  simp only [tagged, hblanks.skipBlanks_append, hbrace, if_true, nested, List.drop_one,
    List.tail_cons, hlength, readTagged, nextMember_first (L.line_blank (depth + 1)), hfirst,
    htail, mapRead, List.nil_append, hconvert, endObject_ok]

end Decoder

end MeshNode.Json
