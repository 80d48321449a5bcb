import MeshNode.Proofs.Jail

/-!
# What a jail makes of a path

The dots of a path are folded without a look at the files: a path is refused by its text alone
exactly if it is absolute or climbs above its start somewhere on the way (`normalize_eq_none_iff`).
Any other path has a longest beginning that leads to something (`DeepestExisting`), and where that
really is decides. If it is in the jail, the path resolves to it with the missing names behind it,
unless the path names a link; if it is not, the path escapes, since missing names cannot lead back
into a jail that is there; and if it is nowhere, it is a link, and what becomes of it tells why
(`resolve_exact`). The location that a path resolves to is reached without a link, and resolves to
itself.
-/

namespace MeshNode

namespace Jail

open FileTree (maxPath)

/-! ### Climbing -/

/-- Somewhere on the way there are more double dots behind than names to fold them with. -/
def Climbs (path : String) : Prop :=
  ∃ front, front <+: Path.components path ∧ front.countP (· ≠ "..") < front.count ".."

/-- Folding fails where the double dots outnumber the names before them. -/
theorem fold_eq_none_iff {names rest : List String} : fold names rest = none ↔
    ∃ front, front <+: rest ∧ names.length + front.countP (· ≠ "..") < front.count ".." := by
  induction rest generalizing names with
  | nil =>
    refine iff_of_false (by simp [fold]) ?_
    rintro ⟨front, hfront, hlt⟩
    rw [List.prefix_nil.mp hfront] at hlt
    exact Nat.not_lt_zero _ hlt
  | cons c rest ih =>
    have hfronts : (∃ front, front <+: c :: rest ∧
        names.length + front.countP (· ≠ "..") < front.count "..") ↔
        ∃ front, front <+: rest ∧
          names.length + (c :: front).countP (· ≠ "..") < (c :: front).count ".." := by
      constructor
      · rintro ⟨front, hfront, hlt⟩
        rcases List.prefix_cons_iff.mp hfront with rfl | ⟨front, rfl, hrest⟩
        · exact absurd hlt (Nat.not_lt_zero _)
        · exact ⟨front, hrest, hlt⟩
      · rintro ⟨front, hfront, hlt⟩
        exact ⟨c :: front, List.prefix_cons_iff.mpr (Or.inr ⟨front, rfl, hfront⟩), hlt⟩
    rw [hfronts]
    unfold fold
    by_cases hc : c = ".."
    · subst hc
      cases names with
      | nil =>
        refine iff_of_true (by simp) ⟨[], List.nil_prefix, by simp⟩
      | cons name names =>
        rw [if_pos rfl]
        refine ih.trans (exists_congr fun front => and_congr_right fun _ => ?_)
        simp
        omega
    · rw [if_neg hc]
      refine ih.trans (exists_congr fun front => and_congr_right fun _ => ?_)
      simp [hc]
      omega

/-- **A path is refused by its text alone** if it is absolute or climbs above its start. -/
theorem normalize_eq_none_iff {path : String} :
    normalize path = none ↔ Path.isAbsolute path = true ∨ Climbs path := by
  rw [normalize]
  by_cases habsolute : Path.isAbsolute path = true
  · exact iff_of_true (if_pos habsolute) (Or.inl habsolute)
  · rw [if_neg habsolute, fold_eq_none_iff, or_iff_right habsolute, Climbs]
    simp

/-! ### What exists of a path -/

/-- The longest beginning of a path that leads to something, and the names after it. -/
structure DeepestExisting (t : FileTree) (p existing : Path) (missing : List String) : Prop where
  append : existing ++ missing = p
  hasEntry : t.hasEntry existing = true
  deepest : ∀ k, existing <+: k → k <+: p → k ≠ existing → t.hasEntry k = false

variable {jail : Jail} {t : FileTree} {path : String} {names missing : List String}
  {p existing : Path}

/-- There is only one way to tell what exists of a path. -/
theorem DeepestExisting.unique (h : DeepestExisting t p existing missing) {existing' : Path}
    {missing' : List String} (h' : DeepestExisting t p existing' missing') :
    existing = existing' ∧ missing = missing' := by
  have hbegins : existing <+: p := ⟨missing, h.append⟩
  have hbegins' : existing' <+: p := ⟨missing', h'.append⟩
  have hexisting : existing = existing' := by
    by_contra hne
    rcases List.prefix_or_prefix_of_prefix hbegins hbegins' with hlonger | hlonger
    · exact Bool.noConfusion
        ((h.deepest existing' hlonger hbegins' (Ne.symm hne)).symm.trans h'.hasEntry)
    · exact Bool.noConfusion ((h'.deepest existing hlonger hbegins hne).symm.trans h.hasEntry)
  exact ⟨hexisting, List.append_cancel_left (hexisting ▸ h.append.trans h'.append.symm)⟩

/-- The walk up a path ends at the longest beginning that leads to something. -/
theorem deepestExisting_existingPart (t : FileTree) (p : Path) :
    DeepestExisting t p (existingPart t p).1 (existingPart t p).2 := by
  induction p using List.reverseRecOn with
  | nil =>
    rw [existingPart_nil]
    refine ⟨rfl, rfl, fun k _ hk hne => absurd (List.prefix_nil.mp hk) hne⟩
  | append_singleton p c ih =>
    rw [existingPart_concat]
    split
    · rename_i hentry
      refine ⟨List.append_nil _, hentry, fun k hbegins hk hne => ?_⟩
      exact absurd (List.IsPrefix.eq_of_length_le hk hbegins.length_le) hne
    · rename_i hentry
      refine ⟨by rw [← List.append_assoc, ih.append], ih.hasEntry, fun k hbegins hk hne => ?_⟩
      rcases List.prefix_concat_iff.mp hk with rfl | hk
      · exact Bool.eq_false_iff.mpr hentry
      · exact ih.deepest k hbegins hk hne

/-- What a jail that is there takes to exist of the path to some names is the longest beginning that
leads to something. -/
theorem existingInside_eq_of_deepest (hformed : t.WellFormed) (hroot : t.get? jail.root = some .dir)
    (hshort : Path.byteLength (jail.root ++ names) ≤ maxPath)
    (h : DeepestExisting t (jail.root ++ names) existing missing) :
    jail.existingInside t names = (existing, missing) := by
  have hdir := hformed.isDir_of_get? hroot (Nat.le_trans (Path.byteLength_le_append _ _) hshort)
  obtain ⟨hexisting, hmissing⟩ := (deepestExisting_existingPart t (jail.root ++ names)).unique h
  rw [existingInside_eq (by simp [hdir]), ← hexisting, ← hmissing]

/-! ### Outcomes -/

/-- Missing names do not lead back into a jail that is there. -/
theorem prefix_append_iff (hformed : t.WellFormed) (hroot : t.get? jail.root = some .dir)
    (h : DeepestExisting t (jail.root ++ names) existing missing)
    (hshort : Path.byteLength (jail.root ++ names) ≤ maxPath) {found : Location}
    (hfound : t.realLocation existing = .ok found) :
    jail.root <+: found ++ missing ↔ jail.root <+: found := by
  refine ⟨fun hbelow => ?_, fun hbelow => hbelow.trans (List.prefix_append _ _)⟩
  rcases List.prefix_or_prefix_of_prefix hbelow (List.prefix_append found missing) with
    hinside | ⟨rest, hrest⟩
  · exact hinside
  cases rest with
  | nil =>
    obtain rfl : found = jail.root := (List.append_nil found).symm.trans hrest
    exact List.prefix_refl jail.root
  | cons c rest =>
    -- There would be something at the first missing name, which leads to nothing.
    rw [← hrest, List.prefix_append_right_inj] at hbelow
    obtain ⟨rest', hmissing⟩ := hbelow
    have hlonger : existing ++ [c] <+: jail.root ++ names :=
      ⟨rest ++ rest', by rw [← h.append, ← hmissing]; simp⟩
    have hentry := h.deepest (existing ++ [c]) (List.prefix_append _ _) hlonger
      fun heq => List.cons_ne_nil c [] (List.append_right_eq_self.mp heq)
    obtain ⟨after, hafter⟩ := hlonger
    have hnone := hformed.get?_eq_none_of_not_hasEntry hfound
      (Nat.le_trans (Path.byteLength_le_append _ after) (hafter ▸ hshort)) hentry
    have hbegins : found ++ [c] <+: jail.root := ⟨rest, by rw [← hrest]; simp⟩
    rw [hformed.rooted.get?_eq_none hnone hbegins] at hroot
    cases hroot

/-- **What a path comes to** is told by where its longest beginning really is. -/
theorem resolve_eq (hformed : t.WellFormed) (hroot : t.get? jail.root = some .dir)
    (hnames : normalize path = some names)
    (h : DeepestExisting t (jail.root ++ names) existing missing)
    (hshort : Path.byteLength (jail.root ++ names) ≤ maxPath) :
    jail.resolve t path =
      match t.realLocation existing with
      | .error .notFound => .error (.linkRejected path)
      | .error e => .error (.file e)
      | .ok found =>
        if ¬ jail.root <+: found then .error (.pathEscape path)
        else if t.isLink (jail.root ++ names) then .error (.linkRejected path)
        else .ok (found ++ missing) := by
  have hexisting := existingInside_eq_of_deepest hformed hroot hshort h
  rw [resolve, hnames]
  simp only [hexisting]
  cases hreal : t.realLocation existing with
  | error e => cases e <;> rfl
  | ok found =>
    have hinside := prefix_append_iff hformed hroot h hshort hreal
    by_cases hbelow : jail.root <+: found
    · have hbegins : jail.root.isPrefixOf (found ++ missing) = true :=
        List.isPrefixOf_iff_prefix.mpr (hinside.mpr hbelow)
      have hlink : (names ≠ [] ∧ t.isLink (jail.root ++ names) = true) ↔
          t.isLink (jail.root ++ names) = true := by
        refine ⟨And.right, fun hlink => ⟨?_, hlink⟩⟩
        rintro rfl
        rw [List.append_nil] at hlink hshort
        rw [FileTree.isLink, FileTree.stat,
          hformed.locate_of_get? hroot (fun _ => Entry.noConfusion) hshort] at hlink
        cases hlink
      simp only [hbegins, hbelow, hlink]
      rfl
    · have hbegins : jail.root.isPrefixOf (found ++ missing) = false := by
        rw [Bool.eq_false_iff]
        exact fun hcontra => hbelow (hinside.mp (List.isPrefixOf_iff_prefix.mp hcontra))
      simp only [hbegins, hbelow]
      rfl

/-- The location at the end of a straight way in the jail resolves to itself. -/
theorem resolve_shown (hproper : t.Proper) (hroot : t.get? jail.root = some .dir) {p : Location}
    (hbelow : jail.root <+: p) (hstraight : t.Straight p) (hplain : ∀ c ∈ p, Path.Plain c)
    (hslash : ∀ c ∈ p, '/' ∉ c.toList) (hshort : Path.byteLength p ≤ maxPath) :
    jail.resolve t (jail.shown p) = .ok p := by
  obtain ⟨names, rfl⟩ := hbelow
  rw [shown, Path.textBelow_append]
  by_cases hnil : names = []
  · rw [hnil, List.append_nil] at hshort ⊢
    exact resolve_root hproper.toWellFormed hroot hshort (by decide)
  have hnames : normalize ("/".intercalate names) = some names :=
    normalize_intercalate hnil (fun c hc => hplain c (List.mem_append_right _ hc))
      fun c hc => hslash c (List.mem_append_right _ hc)
  have hdeepest := deepestExisting_existingPart t (jail.root ++ names)
  generalize (existingPart t (jail.root ++ names)).1 = existing at hdeepest
  generalize (existingPart t (jail.root ++ names)).2 = missing at hdeepest
  have hexisting := existingInside_eq_of_deepest hproper.toWellFormed hroot hshort hdeepest
  -- What exists of the location is at the end of a straight way as well.
  have hbegins : existing <+: jail.root ++ names := ⟨missing, hdeepest.append⟩
  have hreal : t.realLocation existing = .ok existing := by
    obtain ⟨l, e, hlocate, -⟩ := FileTree.exists_of_hasEntry hdeepest.hasEntry
    obtain ⟨heq, -, hlength⟩ := FileTree.of_locate_straight (hstraight.beginning hbegins)
      (fun c hc => hplain c (hbegins.subset hc)) hlocate
    obtain ⟨rfl, he⟩ := Found.mk.inj heq
    have hlink : ∀ target, e = .link target → true = false := by
      rintro target rfl
      exact absurd he.symm (hstraight l hbegins target)
    rw [FileTree.realLocation, FileTree.stat, hproper.locate_of_get? he.symm hlink hlength]
    rfl
  have hlink : t.isLink (jail.root ++ names) = false := by
    unfold FileTree.isLink
    split
    · rename_i l target hstat
      have heq := FileTree.locate_of_straight hstraight hplain (FileTree.locate_of_stat hstat).1
      exact absurd (Found.mk.inj heq).2.symm (hstraight _ (List.prefix_refl _) target)
    · rfl
  have happend := hdeepest.append
  have hresolve := resolve_of_existing hnames hexisting hreal
    (happend ▸ List.prefix_append jail.root names) hlink
  rwa [happend] at hresolve

/-- What a jail that is there makes of a path that comes to some names: `existing` is the longest
beginning of the path to them that leads to something, and `missing` are the names after it. -/
structure ResolvesExactly (jail : Jail) (t : FileTree) (path : String) (names : List String)
    (existing : Path) (missing : List String) : Prop where
  /-- The path resolves to the real location of what exists with the missing names behind it, if
  that is in the jail and the path names no link. -/
  ok_iff : ∀ p, jail.resolve t path = .ok p ↔ t.isLink (jail.root ++ names) = false ∧
    ∃ found, t.realLocation existing = .ok found ∧ jail.root <+: found ∧ p = found ++ missing
  /-- No link is on the way to the location that the path resolves to. -/
  straight : ∀ p, jail.resolve t path = .ok p → t.Straight p
  /-- The location that the path resolves to resolves to itself. -/
  shown : ∀ p, jail.resolve t path = .ok p → Path.byteLength p ≤ maxPath →
    jail.resolve t (jail.shown p) = .ok p
  /-- The path escapes if what exists of it is really outside. -/
  pathEscape_iff : jail.resolve t path = .error (.pathEscape path) ↔
    ∃ found, t.realLocation existing = .ok found ∧ ¬ jail.root <+: found
  /-- The path is rejected if what exists of it is a link to nothing, or if it names a link that
  stays in the jail. -/
  linkRejected_iff : jail.resolve t path = .error (.linkRejected path) ↔
    t.isLink existing = true ∧ t.realLocation existing = .error .notFound ∨
    t.isLink (jail.root ++ names) = true ∧
      ∃ found, t.realLocation existing = .ok found ∧ jail.root <+: found
  /-- The path cannot be followed if what exists of it is a link that leads on too often, through
  what is no directory, or along a name that is too long. -/
  file_iff : ∀ e, jail.resolve t path = .error (.file e) ↔
    t.isLink existing = true ∧ t.realLocation existing = .error e ∧
      (e = .tooManyLinks ∨ e = .notADirectory ∨ e = .nameTooLong)

theorem resolvesExactly (hproper : t.Proper) (hroot : t.get? jail.root = some .dir)
    (hnames : normalize path = some names)
    (h : DeepestExisting t (jail.root ++ names) existing missing)
    (hshort : Path.byteLength (jail.root ++ names) ≤ maxPath) :
    ResolvesExactly jail t path names existing missing := by
  have hresolve := resolve_eq hproper.toWellFormed hroot hnames h hshort
  have hstraight (p : Location) (hp : jail.resolve t path = .ok p) : t.Straight p :=
    straight_of_resolve hproper.toWellFormed hroot hnames hshort hp
  have hshown (p : Location) (hp : jail.resolve t path = .ok p) (hlength : Path.byteLength p ≤ maxPath) :
      jail.resolve t (jail.shown p) = .ok p := by
    obtain ⟨-, -, -, -, -, hbelow⟩ := exists_of_resolve hp
    exact resolve_shown hproper hroot hbelow (hstraight p hp)
      (plain_of_resolve hproper.toWellFormed hroot hp)
      (slash_of_resolve hproper (fun c hc => hproper.slash_of_mem hroot hc) hp) hlength
  cases hreal : t.realLocation existing with
  | error e =>
    obtain ⟨hlink, hwhy⟩ := FileTree.of_realLocation_error h.hasEntry hreal
    rw [hreal] at hresolve
    by_cases hnone : e = .notFound
    · subst hnone
      refine ⟨?_, hstraight, hshown, ?_, ?_, ?_⟩ <;> simp [hresolve, hreal, hlink]
    · have hwhy := hwhy.resolve_left hnone
      have hfile : jail.resolve t path = .error (.file e) := by
        rw [hresolve]
        rcases hwhy with rfl | rfl | rfl <;> rfl
      refine ⟨?_, hstraight, hshown, ?_, ?_, ?_⟩ <;> simp [hfile, hreal, hlink, hnone, hwhy]
  | ok found =>
    rw [hreal] at hresolve
    by_cases hbelow : jail.root <+: found
    · by_cases hlink : t.isLink (jail.root ++ names) = true
      · refine ⟨?_, hstraight, hshown, ?_, ?_, ?_⟩ <;> simp [hresolve, hreal, hlink, hbelow]
      · refine ⟨?_, hstraight, hshown, ?_, ?_, ?_⟩ <;> simp [hresolve, hreal, hlink, hbelow]
        exact fun p => eq_comm
    · refine ⟨?_, hstraight, hshown, ?_, ?_, ?_⟩ <;> simp [hresolve, hreal, hbelow]

/-- **A jail resolves paths exactly.** A path that is absolute or climbs above its start escapes,
whatever the files are. Any other path comes to some names, and unless the path to these is too long
to be looked up, what exists of it decides. -/
theorem resolve_exact (hproper : t.Proper) (hroot : t.get? jail.root = some .dir) (path : String) :
    (Path.isAbsolute path = true ∨ Climbs path →
      ∀ t', jail.resolve t' path = .error (.pathEscape path)) ∧
    (¬ (Path.isAbsolute path = true ∨ Climbs path) → ∃ names existing missing,
      normalize path = some names ∧ DeepestExisting t (jail.root ++ names) existing missing ∧
      (Path.byteLength (jail.root ++ names) ≤ maxPath →
        ResolvesExactly jail t path names existing missing)) := by
  constructor
  · intro hclimbs t'
    rw [resolve, normalize_eq_none_iff.mpr hclimbs]
  · intro hstays
    obtain ⟨names, hnames⟩ := Option.ne_none_iff_exists'.mp (mt normalize_eq_none_iff.mp hstays)
    have hdeepest := deepestExisting_existingPart t (jail.root ++ names)
    exact ⟨names, _, _, hnames, hdeepest, resolvesExactly hproper hroot hnames hdeepest⟩

section Gate

/-- A jail with a directory and links to it, out of the jail and to nothing. -/
private def gate : FileTree :=
  ⟨[(["etc"], .dir), (["jail"], .dir), (["jail", "sub"], .dir), (["jail", "to"], .link "sub"),
    (["jail", "out"], .link "/etc"), (["jail", "lost"], .link "nowhere")]⟩

private theorem proper_gate : gate.Proper := by
  refine FileTree.WellFormed.proper (FileTree.wellFormed_of_forall_mem ?_) ?_ <;> decide

private theorem isDir_gate : gate.get? (Jail.mk ["jail"]).root = some .dir := rfl

/-- Paths through the links of a jail, and a path above it. -/
theorem resolve_exact_of_gate :
    (Jail.mk ["jail"]).resolve gate "to/x" = .ok ["jail", "sub", "x"] ∧
    (Jail.mk ["jail"]).resolve gate "out/x" = .error (.pathEscape "out/x") ∧
    (Jail.mk ["jail"]).resolve gate "lost/x" = .error (.linkRejected "lost/x") ∧
    (Jail.mk ["jail"]).resolve gate "a/../../x" = .error (.pathEscape "a/../../x") := by
  have hlink (path name : String) (hnames : normalize path = some [name, "x"])
      (hentry : gate.hasEntry ["jail", name] = true)
      (hnone : gate.hasEntry ["jail", name, "x"] = false)
      (hshort : Path.byteLength ["jail", name, "x"] ≤ maxPath) :
      ResolvesExactly ⟨["jail"]⟩ gate path [name, "x"] ["jail", name] ["x"] := by
    have hstays : ¬ (Path.isAbsolute path = true ∨ Climbs path) := fun hcontra => by
      rw [normalize_eq_none_iff.mpr hcontra] at hnames
      cases hnames
    obtain ⟨names, existing, missing, hnames', hdeepest, hexact⟩ :=
      (resolve_exact proper_gate isDir_gate path).2 hstays
    obtain rfl := Option.some.inj (hnames.symm.trans hnames')
    have hdeepest' : DeepestExisting gate (["jail"] ++ [name, "x"]) ["jail", name] ["x"] := by
      refine ⟨rfl, hentry, fun k hbegins hk hne => ?_⟩
      rcases List.prefix_concat_iff.mp (show k <+: ["jail", name] ++ ["x"] from hk) with rfl | hk
      · exact hnone
      · exact absurd (List.IsPrefix.eq_of_length_le hk hbegins.length_le) hne
    obtain ⟨rfl, rfl⟩ := hdeepest'.unique hdeepest
    exact hexact hshort
  have hto := hlink "to/x" "to" (by decide) (by decide) (by decide) (by decide)
  have hout := hlink "out/x" "out" (by decide) (by decide) (by decide) (by decide)
  have hlost := hlink "lost/x" "lost" (by decide) (by decide) (by decide) (by decide)
  refine ⟨?_, ?_, ?_, ?_⟩
  · exact (hto.ok_iff _).mpr ⟨by decide, ["jail", "sub"], by decide, by decide, rfl⟩
  · exact hout.pathEscape_iff.mpr ⟨["etc"], by decide, by decide⟩
  · exact hlost.linkRejected_iff.mpr (Or.inl ⟨by decide, by decide⟩)
  · exact (resolve_exact proper_gate isDir_gate "a/../../x").1
      (Or.inr ⟨["a", "..", ".."], by decide, by decide⟩) gate

end Gate

end Jail

end MeshNode
