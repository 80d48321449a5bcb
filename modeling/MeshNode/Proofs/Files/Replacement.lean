import MeshNode.Proofs.Files.Operations

/-!
# Files that are moved into place

A file is replaced by writing the new content beside it and moving that to its name. Whichever links
lead to the directory of the file, after that its path leads to what was written, as long as no link
bears the name of the file or of its draft (`read_of_rename`): such a link would be written through,
or be moved to the place of the file in its stead. Looking the file up in the new tree takes the way
that looking it up in the old one took (`walk_concat`), since a replacement takes away no directory
and no link (`KeepsWays`).
-/

namespace MeshNode

namespace FileTree

open MeshNode.Path (Plain)

variable {t t' t'' : FileTree}

/-! ### Trees in which files can be replaced -/

/-- No link bears the name, in whatever directory. -/
def Unlinked (t : FileTree) (c : String) : Prop :=
  ∀ dir target, t.get? (dir ++ [c]) ≠ some (.link target)

/-- Every entry stands in a directory, and no link bears one of the names. -/
structure Tidy (t : FileTree) (names : List String) : Prop where
  rooted : t.Rooted
  unlinked : ∀ c ∈ names, t.Unlinked c

/-- What is put in a directory, in place of what is none, stands in one. -/
theorem Rooted.put_of_ne (h : t.Rooted) {q : Location} (hq : t.get? q ≠ some .dir)
    (hdir : t.get? q.dropLast = some .dir) (e : Entry) : (t.put q e).Rooted := by
  have hkeep {k : Location} (hk : t.get? k = some .dir) : (t.put q e).get? k = some .dir := by
    have hne : k ≠ q := fun heq => hq (heq ▸ hk)
    rw [get?_put_of_ne t hne, hk]
  intro l c e' hl
  by_cases heq : l ++ [c] = q
  · rw [← heq, List.dropLast_concat] at hdir
    exact hkeep hdir
  · rw [get?_put_of_ne t heq] at hl
    exact hkeep (h l c e' hl)

/-- What is left after a cut stands in a directory. -/
theorem Rooted.cut (h : t.Rooted) (q : Location) : (t.cut q).Rooted := by
  intro l c e hl
  rw [get?_cut, if_neg (List.concat_ne_nil c l)] at hl
  split_ifs at hl with hq
  have hl' : ¬ q.isPrefixOf l = true := fun hbegins => hq
    (List.isPrefixOf_iff_prefix.mpr
      ((List.isPrefixOf_iff_prefix.mp hbegins).trans (List.prefix_append l [c])))
  rw [get?_cut, if_neg hl', h l c e hl]
  exact ite_self _

theorem Tidy.put {names : List String} (h : t.Tidy names) {q : Location}
    (hq : t.get? q ≠ some .dir) (hdir : t.get? q.dropLast = some .dir) {e : Entry}
    (he : ∀ target, e ≠ .link target) : (t.put q e).Tidy names := by
  refine ⟨h.rooted.put_of_ne hq hdir e, fun c hc dir target hlink => ?_⟩
  by_cases heq : dir ++ [c] = q
  · rw [heq, get?_put_self (ne_root_of_get?_ne hq)] at hlink
    exact he target (Option.some.inj hlink)
  · rw [get?_put_of_ne t heq] at hlink
    exact h.unlinked c hc dir target hlink

theorem Tidy.cut {names : List String} (h : t.Tidy names) (q : Location) :
    (t.cut q).Tidy names := by
  refine ⟨h.rooted.cut q, fun c hc dir target hlink => ?_⟩
  rw [get?_cut, if_neg (List.concat_ne_nil c dir)] at hlink
  split_ifs at hlink
  exact h.unlinked c hc dir target hlink

/-- Directories are made where nothing was, in directories. -/
theorem Tidy.run_makeDirs {names : List String} (h : t.Tidy names) (p : Path) :
    (Files.run (Files.makeDirs p) t).2.Tidy names := by
  refine Files.run_makeDirs_keeps (P := fun t => t.Tidy names) (fun t t' q h _ hmake => ?_) h
  obtain ⟨l, hlocate, rfl⟩ := exists_of_makeDir hmake
  have hl : t.get? l = none := get?_of_locate hlocate
  have hparent :=
    (walk_continues h.rooted true (get?_root t) hl (walk_of_locate hlocate)).parent
  exact h.put (by rw [hl]; rintro ⟨⟩) hparent fun _ => Entry.noConfusion

/-! ### The way to a file -/

/-- The directories and links of one tree are there in the other. -/
def KeepsWays (t t' : FileTree) : Prop :=
  ∀ k e, t.get? k = some e → (∀ content mode, e ≠ .file content mode) → t'.get? k = some e

theorem KeepsWays.refl (t : FileTree) : t.KeepsWays t := fun _ _ h _ => h

/-- What leads on leads on in the other tree. -/
theorem KeepsWays.step_eq (h : t.KeepsWays t') {dir : Location} {c : String}
    (hmissing : t.step dir c ≠ .missing)
    (hfile : ∀ content mode, t.step dir c ≠ .file content mode) :
    t'.step dir c = t.step dir c := by
  unfold step at hmissing hfile ⊢
  split_ifs at hmissing hfile ⊢
  · rfl
  · rfl
  · rfl
  · cases hhere : t.get? (dir ++ [c]) with
    | none =>
      rw [hhere] at hmissing
      exact absurd rfl hmissing
    | some e =>
      rw [hhere] at hfile
      rw [h _ e hhere]
      rintro content mode rfl
      exact hfile content mode rfl

/-- A plain component that is not too long comes to what is there, in any tree. -/
theorem step_of_ne_tooLong {dir : Location} {c : String} (hc : Plain c)
    (h : t.step dir c ≠ .tooLong) (t' : FileTree) :
    t'.step dir c = .ofEntry (t'.get? (dir ++ [c])) := by
  obtain ⟨hempty, hdot, hdots⟩ := hc
  unfold step at h ⊢
  rw [if_neg (not_or.mpr ⟨hempty, hdot⟩), if_neg hdots] at h ⊢
  split_ifs at h ⊢
  · exact absurd rfl h
  · rfl

/-- A last name that is no link leads to its place. -/
theorem walk_last_of_unlinked {c : String} (hc : Plain c) (hlink : t.Unlinked c) {follow : Bool}
    {links : Nat} {dir : Location} {f : Found} (hwalk : t.walk follow links dir [c] = .ok f) :
    f.location = dir ++ [c] ∧ ∀ (t' : FileTree) content mode,
      t'.get? (dir ++ [c]) = some (.file content mode) → ∀ follow',
        t'.walk follow' links dir [c] = .ok ⟨dir ++ [c], some (.file content mode)⟩ := by
  rw [walk_cons] at hwalk
  have hlong : t.step dir c ≠ .tooLong := by
    intro hlong
    rw [hlong] at hwalk
    cases hwalk
  refine ⟨?_, fun t' content mode hfile follow' => ?_⟩
  · rw [step_of_ne_tooLong hc hlong t] at hwalk
    cases hhere : t.get? (dir ++ [c]) with
    | none =>
      rw [hhere] at hwalk
      exact congrArg Found.location (Except.ok.inj hwalk).symm
    | some e =>
      rw [hhere] at hwalk
      cases e with
      | dir =>
        simp only [Step.ofEntry, walk_nil] at hwalk
        exact congrArg Found.location (Except.ok.inj hwalk).symm
      | file content mode => exact congrArg Found.location (Except.ok.inj hwalk).symm
      | link target => exact absurd hhere (hlink dir target)
  · rw [walk_cons, step_of_ne_tooLong hc hlong t', hfile]
    rfl

/-- **A path leads to the place of its last name**, and to the same place in a tree with the same
ways, if there is a file. -/
theorem walk_concat (h : t.Rooted) (hways : t.KeepsWays t') {c : String} (hc : Plain c)
    (hlink : t.Unlinked c) {follow : Bool} {links : Nat} {dir : Location}
    (hdir : t.get? dir = some .dir) {p : Path} {f : Found}
    (hwalk : t.walk follow links dir (p ++ [c]) = .ok f) :
    ∃ d, f.location = d ++ [c] ∧ t.get? d = some .dir ∧ ∀ content mode,
      t'.get? (d ++ [c]) = some (.file content mode) → ∀ follow',
        t'.walk follow' links dir (p ++ [c]) = .ok ⟨d ++ [c], some (.file content mode)⟩ := by
  induction links, dir, p using walk_induction with
  | nil links dir =>
    obtain ⟨hlocation, hfile⟩ := walk_last_of_unlinked hc hlink hwalk
    exact ⟨dir, hlocation, hdir, hfile t'⟩
  | cons links dir c' p ih hjump =>
    have hrest : p ++ [c] ≠ [] := List.concat_ne_nil c p
    simp only [List.cons_append, walk_cons] at hwalk ⊢
    -- Whatever the first component comes to, it is a step of the way, and so one in both trees.
    by_cases hmissing : t.step dir c' = .missing
    · simp only [hmissing] at hwalk
      split at hwalk
      · rename_i hall
        have hempty : c = "" := by
          simpa using List.all_eq_true.mp hall c (List.mem_append_right p List.mem_cons_self)
        exact absurd hempty hc.1
      · cases hwalk
    by_cases hfile : ∃ content mode, t.step dir c' = .file content mode
    · obtain ⟨content, mode, hfile⟩ := hfile
      simp only [hfile, if_neg hrest] at hwalk
      cases hwalk
    simp only [not_exists] at hfile
    simp only [hways.step_eq hmissing hfile]
    cases hstep : t.step dir c' <;> simp only [hstep] at hwalk ⊢
    case stay => exact ih _ hdir hwalk
    case up => exact ih _ (h.get?_dropLast hdir) hwalk
    case tooLong => cases hwalk
    case missing => exact absurd hstep hmissing
    case dir => exact ih _ (get?_of_step hstep) hwalk
    case file content mode => exact absurd hstep (hfile content mode)
    case link target =>
      rw [if_neg fun hcontra => hrest hcontra.1] at hwalk
      cases links with
      | zero => cases hwalk
      | succ links =>
        simp only [jump, ← List.append_assoc, hrest, false_and, if_false] at hwalk ⊢
        exact hjump links rfl _ _ (get?_base hdir target) hwalk

/-- Where an operation on a file finds it, and that a file there is found again in a tree with the
same ways. -/
theorem locate_concat (h : t.Rooted) (hways : t.KeepsWays t') {c : String} (hc : Plain c)
    (hlink : t.Unlinked c) {follow : Bool} {p : Path} {f : Found}
    (hlocate : t.locate follow (p ++ [c]) = .ok f) :
    ∃ d, f.location = d ++ [c] ∧ t.get? d = some .dir ∧ ∀ content mode,
      t'.get? (d ++ [c]) = some (.file content mode) → ∀ follow',
        t'.locate follow' (p ++ [c]) = .ok ⟨d ++ [c], some (.file content mode)⟩ := by
  unfold locate fromRoot at hlocate ⊢
  split_ifs at hlocate ⊢
  exact walk_concat h hways hc hlink (get?_root t) hlocate

/-! ### Replacing a file -/

/-- Nothing of a way is lost where a file or nothing was. -/
theorem keepsWays_put {q : Location}
    (hq : ∀ e, t.get? q = some e → ∃ content mode, e = .file content mode) (e : Entry) :
    t.KeepsWays (t.put q e) := by
  intro k e' hk hfile
  have hne : k ≠ q := by
    rintro rfl
    obtain ⟨content, mode, rfl⟩ := hq e' hk
    exact hfile content mode rfl
  rw [get?_put_of_ne t hne, hk]

/-- A file is written where looking its path up ends, in place of a file or of nothing. -/
theorem exists_put_of_write {p : Path} {content : Content} (hwrite : t.write p content = .ok t') :
    ∃ q o mode, t.locateToWrite p = .ok ⟨q, o⟩ ∧ (∀ e ∈ o, ∃ found mode, e = .file found mode) ∧
      t' = t.put q (.file content mode) := by
  rcases exists_of_write hwrite with ⟨q, hlocate, rfl⟩ | ⟨q, found, mode, hlocate, rfl⟩
  · exact ⟨q, none, _, hlocate, fun _ => nofun, rfl⟩
  · refine ⟨q, _, mode, hlocate, ?_, rfl⟩
    rintro _ ⟨⟩
    exact ⟨found, mode, rfl⟩

/-- A written file is found at its path. -/
theorem locate_of_write {names : List String} (h : t.Tidy names) {c : String} (hc : Plain c)
    (hmem : c ∈ names) {p : Path} {content : Content}
    (hwrite : t.write (p ++ [c]) content = .ok t') :
    t'.Tidy names ∧ ∃ q mode, t'.get? q = some (.file content mode) ∧
      ∀ follow, t'.locate follow (p ++ [c]) = .ok ⟨q, some (.file content mode)⟩ := by
  obtain ⟨q, o, mode, hwritten, hfile, rfl⟩ := exists_put_of_write hwrite
  have hlocate := locate_of_locateToWrite hwritten
  obtain rfl : t.get? q = o := get?_of_locate hlocate
  have hne : t.get? q ≠ some .dir := by
    intro hq
    obtain ⟨_, _, ⟨⟩⟩ := hfile _ hq
  obtain ⟨d, rfl, hdir, hfound⟩ := locate_concat h.rooted
    (keepsWays_put hfile (.file content mode)) hc (h.unlinked c hmem) hlocate
  have hself : (t.put (d ++ [c]) (.file content mode)).get? (d ++ [c]) =
      some (.file content mode) := get?_put_self (ne_root_of_get?_ne hne) _
  refine ⟨h.put hne (by rwa [List.dropLast_concat]) fun _ => Entry.noConfusion, _, mode, hself, ?_⟩
  exact hfound content mode hself

/-- A file is cut without anything else. -/
theorem Rooted.get?_cut_of_file (h : t.Rooted) {q k : Location} {content : Content} {mode : Nat}
    (hq : t.get? q = some (.file content mode)) (hne : k ≠ q) : (t.cut q).get? k = t.get? k := by
  rw [get?_cut]
  split_ifs with hroot hbegins
  · rw [hroot, get?_root]
  · have hprefix : q <+: k := List.isPrefixOf_iff_prefix.mp hbegins
    cases hk : t.get? k with
    | none => rfl
    | some e =>
      rw [h.get?_eq_dir hk hprefix (Ne.symm hne)] at hq
      cases hq
  · rfl

/-- Nothing of a way is lost when a file is moved to where neither a directory nor a link is. -/
theorem Rooted.keepsWays_move (h : t.Rooted) {q l : Location} {content : Content} {mode : Nat}
    (hq : t.get? q = some (.file content mode)) (hdir : t.get? l ≠ some .dir)
    (hlink : ∀ target, t.get? l ≠ some (.link target)) :
    t.KeepsWays ((t.cut q).put l (.file content mode)) := by
  intro k e hk hfile
  have hkq : k ≠ q := by
    rintro rfl
    rw [hq] at hk
    exact hfile content mode (Option.some.inj hk).symm
  have hkl : k ≠ l := by
    rintro rfl
    cases e with
    | dir => exact hdir hk
    | file content mode => exact hfile content mode rfl
    | link target => exact hlink target hk
  rw [get?_put_of_ne _ hkl, h.get?_cut_of_file hq hkq, hk]

/-- A file can be moved to any place in a directory where there is none. -/
theorem Tidy.move {names : List String} (h : t.Tidy names) {q d : Location} {c : String}
    {content : Content} {mode : Nat} (hq : t.get? q = some (.file content mode))
    (hthere : t.get? (d ++ [c]) ≠ some .dir) (hdir : t.get? d = some .dir) :
    ((t.cut q).put (d ++ [c]) (.file content mode)).Tidy names := by
  have hplain : (t.cut q).get? (d ++ [c]) ≠ some .dir := by
    by_cases heq : d ++ [c] = q
    · have hbegins : q.isPrefixOf (d ++ [c]) = true :=
        List.isPrefixOf_iff_prefix.mpr (heq ▸ List.prefix_refl _)
      rw [get?_cut, if_neg (List.concat_ne_nil c d), if_pos hbegins]
      rintro ⟨⟩
    · rwa [h.rooted.get?_cut_of_file hq heq]
  have hparent : (t.cut q).get? (d ++ [c]).dropLast = some .dir := by
    have hdq : d ≠ q := by
      rintro rfl
      rw [hdir] at hq
      cases hq
    rw [List.dropLast_concat, h.rooted.get?_cut_of_file hq hdq, hdir]
  exact (h.cut q).put hplain hparent fun _ => Entry.noConfusion

/-- **A file that is moved into place is found there**, whichever links lead to it. -/
theorem read_of_rename {names : List String} (h : t.Tidy names) {draft c : String}
    (hdraft : Plain draft) (hc : Plain c) (hdraftmem : draft ∈ names) (hmem : c ∈ names)
    {p : Path} {content : Content} (hwrite : t.write (p ++ [draft]) content = .ok t')
    (hrename : t'.rename (p ++ [draft]) (p ++ [c]) = .ok t'') :
    t''.Tidy names ∧ t''.read (p ++ [c]) = .ok content := by
  obtain ⟨h', q, mode, hq, hlocate⟩ := locate_of_write h hdraft hdraftmem hwrite
  -- What is moved is the file that was written, and it is moved to a place in a directory.
  simp only [rename, stat, hlocate false] at hrename
  cases hplace : t'.locate false (p ++ [c]) with
  | error e =>
    rw [hplace] at hrename
    cases hrename
  | ok found =>
    obtain ⟨l, there⟩ := found
    rw [hplace] at hrename
    simp only at hrename
    split_ifs at hrename with hthere
    obtain rfl := Except.ok.inj hrename
    obtain rfl : t'.get? l = there := get?_of_locate hplace
    obtain ⟨d, rfl, hdir, -⟩ :=
      locate_concat h'.rooted (KeepsWays.refl t') hc (h'.unlinked c hmem) hplace
    -- Looking the file up takes the same way afterwards, and finds what was moved.
    have hways := h'.rooted.keepsWays_move hq hthere (h'.unlinked c hmem d)
    obtain ⟨d', heq, -, hfound⟩ := locate_concat h'.rooted hways hc (h'.unlinked c hmem) hplace
    obtain rfl : d = d' := List.append_cancel_right heq
    have hlocate'' := hfound content mode (get?_put_self (List.concat_ne_nil c d) _) true
    refine ⟨h'.move hq hthere hdir, ?_⟩
    simp only [read, stat, hlocate'']

end FileTree

end MeshNode
