import MeshNode.Proofs.Files.Safety

/-!
# Trees that grow

Making directories takes nothing away, and neither does writing a file where nothing was: whatever
was there is there (`Grows`). A lookup that ended at an entry ends at it in a tree that has grown,
since all that it came by is there as well. So what a path leads to can only change if the path led
to nothing. A file that is written is found at its path (`walk_put_file_self`): the place of a file
to be written is not looked for behind a slash.
-/

namespace MeshNode

namespace FileTree

variable {t t' t'' : FileTree}

theorem stat_of_locate {p : Path} {l : Location} {e : Entry}
    (hlocate : t.locate true p = .ok ⟨l, some e⟩) : t.stat true p = .ok ⟨l, some e⟩ := by
  rw [stat, hlocate]

theorem isDir_of_locate {p : Path} {d : Location} (hlocate : t.locate true p = .ok ⟨d, some .dir⟩) :
    t.isDir p = true := by
  rw [isDir, stat_of_locate hlocate]
  rfl

/-! ### Growth -/

/-- Whatever is there in one tree is there in the other. -/
def Grows (t t' : FileTree) : Prop := ∀ l e, t.get? l = some e → t'.get? l = some e

theorem Grows.refl (t : FileTree) : t.Grows t := fun _ _ h => h

theorem Grows.trans (h : t.Grows t') (h' : t'.Grows t'') : t.Grows t'' :=
  fun l e hl => h' l e (h l e hl)

/-- Nothing is lost where nothing was. -/
theorem grows_put {q : Location} (hq : t.get? q = none) (e : Entry) : t.Grows (t.put q e) :=
  fun _ _ hl => get?_put_of_some hq hl

/-- Directories are made where nothing was. -/
theorem grows_run_makeDirs (p : Path) (t : FileTree) :
    t.Grows (Files.run (Files.makeDirs p) t).2 := by
  refine Files.run_makeDirs_keeps (P := t.Grows) (fun t₁ t₂ q h _ hmake => ?_) (.refl t)
  obtain ⟨l, hlocate, rfl⟩ := exists_of_makeDir hmake
  exact h.trans (grows_put (get?_of_locate hlocate) .dir)

/-- Directories are made in directories. -/
theorem Rooted.run_makeDirs (h : t.Rooted) (p : Path) :
    (Files.run (Files.makeDirs p) t).2.Rooted :=
  have htidy : t.Tidy [] := ⟨h, nofun⟩
  (htidy.run_makeDirs p).rooted

/-- Directories are all that is made on the way. -/
theorem get?_of_run_makeDirs {p : Path} {l : Location} {content : Content} {mode : Nat}
    (hl : (Files.run (Files.makeDirs p) t).2.get? l = some (.file content mode)) :
    t.get? l = some (.file content mode) := by
  have hsame : (Files.run (Files.makeDirs p) t).2.get? l = some .dir ∨
      (Files.run (Files.makeDirs p) t).2.get? l = t.get? l := by
    refine Files.run_makeDirs_keeps (P := fun t' => t'.get? l = some .dir ∨ t'.get? l = t.get? l)
      (fun t₁ t₂ _ h _ hmake => ?_) (Or.inr rfl)
    obtain ⟨q, -, rfl⟩ := exists_of_makeDir hmake
    rw [get?_put]
    split_ifs
    · exact Or.inl rfl
    · exact Or.inl rfl
    · exact h
  rcases hsame with hdir | hsame
  · rw [hdir] at hl
    cases hl
  · rw [← hsame, hl]

section Lookups

variable {follow : Bool} {links : Nat} {dir l : Location} {p : Path} {e : Entry}

/-- **A lookup that ended at an entry ends at it** in a tree that has grown. -/
theorem Grows.walk (h : t.Grows t') (hwalk : t.walk follow links dir p = .ok ⟨l, some e⟩) :
    t'.walk follow links dir p = .ok ⟨l, some e⟩ := by
  induction links, dir, p using walk_induction with
  | nil links dir =>
    rw [walk_nil] at hwalk ⊢
    obtain ⟨rfl, he⟩ := Found.mk.inj (Except.ok.inj hwalk)
    rw [h _ _ he]
  | cons links dir c p ih hjump =>
    rw [walk_cons] at hwalk ⊢
    rcases step_cases dir c with ⟨s, hs, hstep⟩ | hstep
    · rw [hstep] at hwalk ⊢
      rcases hs with rfl | rfl | rfl
      · exact ih _ hwalk
      · exact ih _ hwalk
      · cases hwalk
    rw [hstep] at hwalk ⊢
    cases hhere : t.get? (dir ++ [c]) with
    | none =>
      simp only [hhere, Step.ofEntry] at hwalk
      split at hwalk <;> cases hwalk
    | some here =>
      rw [h _ _ hhere]
      rw [hhere] at hwalk
      rcases here with _ | ⟨content, mode⟩ | target <;> simp only [Step.ofEntry] at hwalk ⊢
      · exact ih _ hwalk
      · exact hwalk
      · split
        · rename_i hlast
          rwa [if_pos hlast] at hwalk
        · rename_i hlast
          rw [if_neg hlast] at hwalk
          cases links with
          | zero => cases hwalk
          | succ links => exact hjump links rfl _ _ hwalk

theorem Grows.locate (h : t.Grows t') (hlocate : t.locate follow p = .ok ⟨l, some e⟩) :
    t'.locate follow p = .ok ⟨l, some e⟩ := by
  unfold FileTree.locate FileTree.fromRoot at hlocate ⊢
  split_ifs at hlocate ⊢
  exact h.walk hlocate

/-- A path that leads to a directory leads to one in a tree that has grown. -/
theorem Grows.isDir (h : t.Grows t') (hdir : t.isDir p = true) : t'.isDir p = true := by
  obtain ⟨d, hd⟩ := exists_of_isDir hdir
  exact isDir_of_locate (h.locate hd)

end Lookups

/-! ### What is there -/

section There

variable {p : Path} {l : Location} {e : Entry}

/-- Something is at the end of a path if it is found there. -/
theorem exists_iff : t.exists p = true ↔ ∃ l e, t.locate true p = .ok ⟨l, some e⟩ := by
  constructor
  · intro hexists
    unfold «exists» at hexists
    cases hstat : t.stat true p with
    | error e =>
      rw [hstat] at hexists
      cases hexists
    | ok f =>
      obtain ⟨hlocate, hne⟩ := locate_of_stat hstat
      obtain ⟨l, o⟩ := f
      obtain ⟨e, rfl⟩ := Option.ne_none_iff_exists'.mp hne
      exact ⟨l, e, hlocate⟩
  · rintro ⟨l, e, hlocate⟩
    rw [«exists», stat_of_locate hlocate]
    rfl

/-- What can be read is a file. -/
theorem exists_file_of_read {content : Content} (hread : t.read p = .ok content) :
    ∃ l mode, t.locate true p = .ok ⟨l, some (.file content mode)⟩ := by
  obtain ⟨l, e, hlocate⟩ := exists_of_read hread
  rcases e with _ | ⟨found, mode⟩ | target
  · rw [read_of_dir hlocate] at hread
    cases hread
  · rw [read_of_file hlocate] at hread
    obtain rfl := Except.ok.inj hread
    exact ⟨l, mode, hlocate⟩
  · rw [read, stat_of_locate hlocate] at hread
    cases hread

/-- A path that leads to something leads through a directory. -/
theorem isDir_of_locate_concat (h : t.Rooted) {dir : Path} {c : String} (hc : c ≠ "") {f : Found}
    (hlocate : t.locate true (dir ++ [c]) = .ok f) : t.isDir dir = true := by
  obtain ⟨d, hd⟩ := exists_dir_of_walk_append h (get?_root t)
    (Or.inl ⟨c, List.mem_singleton_self c, hc⟩) (walk_of_locate hlocate)
  exact isDir_of_walk hlocate hd

end There

/-! ### Written files -/

section Written

variable {links : Nat} {dir q : Location} {p : Path}

/-- A lookup that ends where nothing is ends in a directory. -/
theorem Rooted.parent_of_walk (h : t.Rooted) {follow : Bool} (hdir : t.get? dir = some .dir)
    (hwalk : t.walk follow links dir p = .ok ⟨q, none⟩) : t.get? q.dropLast = some .dir := by
  induction links, dir, p using walk_induction with
  | nil links dir =>
    rw [walk_nil, hdir] at hwalk
    cases hwalk
  | cons links dir c p ih hjump =>
    rw [walk_cons] at hwalk
    cases hstep : t.step dir c <;> simp only [hstep] at hwalk
    case stay => exact ih _ hdir hwalk
    case up => exact ih _ (h.get?_dropLast hdir) hwalk
    case tooLong => cases hwalk
    case missing =>
      split at hwalk
      · obtain ⟨rfl, -⟩ := Found.mk.inj (Except.ok.inj hwalk)
        rwa [List.dropLast_concat]
      · cases hwalk
    case dir => exact ih _ (get?_of_step hstep) hwalk
    case file content mode => split at hwalk <;> cases hwalk
    case link target =>
      split at hwalk
      · cases hwalk
      cases links with
      | zero => cases hwalk
      | succ links => exact hjump links rfl _ _ (get?_base hdir target) hwalk

/-- A file that is put where a lookup ended, at a file or at nothing, stands in a directory. -/
theorem Rooted.put_file (h : t.Rooted) (hlocate : t.locate true p = .ok ⟨q, t.get? q⟩)
    (hq : ∀ e, t.get? q = some e → ∃ content mode, e = .file content mode) (content : Content)
    (mode : Nat) : (t.put q (.file content mode)).Rooted := by
  have hne : t.get? q ≠ some .dir := by
    intro hdir
    obtain ⟨_, _, ⟨⟩⟩ := hq _ hdir
  refine h.put_of_ne hne ?_ _
  cases hold : t.get? q with
  | none =>
    rw [hold] at hlocate
    exact h.parent_of_walk (get?_root t) (walk_of_locate hlocate)
  | some e =>
    obtain ⟨d, c, rfl⟩ := (List.eq_nil_or_concat q).resolve_left (ne_root_of_get?_ne hne)
    rw [List.concat_eq_append] at hold ⊢
    rw [List.dropLast_concat]
    exact h d c e hold

/-- **A file is found where it was written.** -/
theorem walk_put_file_self
    (hq : ∀ e, t.get? q = some e → ∃ content mode, e = .file content mode) (content : Content)
    (mode : Nat) (hwalk : t.walkToWrite links dir p = .ok ⟨q, t.get? q⟩) :
    (t.put q (.file content mode)).walk true links dir p = .ok ⟨q, some (.file content mode)⟩ := by
  have hne : t.get? q ≠ some .dir := by
    intro hdir
    obtain ⟨_, _, ⟨⟩⟩ := hq _ hdir
  have hself : (t.put q (.file content mode)).get? q = some (.file content mode) :=
    get?_put_self (ne_root_of_get?_ne hne) _
  induction links, dir, p using walk_induction with
  | nil links dir =>
    rw [walkToWrite_nil] at hwalk
    obtain ⟨rfl, -⟩ := Found.mk.inj (Except.ok.inj hwalk)
    rw [walk_nil, hself]
  | cons links dir c p ih hjump =>
    rw [walkToWrite, walkThrough_cons] at hwalk
    rw [walk_cons]
    split at hwalk
    · cases hwalk
    rename_i hfree
    rcases step_cases dir c with ⟨s, hs, hstep⟩ | hstep
    · rw [hstep] at hwalk ⊢
      rcases hs with rfl | rfl | rfl
      · exact ih _ hwalk
      · exact ih _ hwalk
      · cases hwalk
    by_cases heq : dir ++ [c] = q
    · -- The place is not looked for behind a slash, so the path ends here.
      have hnil : p = [] := by
        by_contra hnil
        cases hold : t.get? q with
        | none =>
          have hmissing : t.step dir c = .missing := by rw [hstep, heq, hold]; rfl
          rw [hmissing] at hwalk
          simp only at hwalk
          split at hwalk
          · rename_i hblank
            have hname := step_ne_of_missing hmissing
            exact hfree ⟨rfl, hname.1, hname.2, hnil, hblank⟩
          · cases hwalk
        | some e =>
          obtain ⟨found, mode', rfl⟩ := hq e hold
          simp only [hstep, heq, hold, Step.ofEntry, if_neg hnil] at hwalk
          cases hwalk
      rw [hstep, heq, hself]
      exact if_pos hnil
    · rw [hstep] at hwalk ⊢
      rw [get?_put_of_ne t heq]
      rcases hhere : t.get? (dir ++ [c]) with _ | ⟨_ | ⟨found, mode'⟩ | target⟩ <;>
        simp only [hhere, Step.ofEntry] at hwalk ⊢
      · split at hwalk
        · exact absurd (congrArg Found.location (Except.ok.inj hwalk)) heq
        · cases hwalk
      · exact ih _ hwalk
      · split at hwalk
        · exact absurd (congrArg Found.location (Except.ok.inj hwalk)) heq
        · cases hwalk
      · have hfollow : ¬ (p = [] ∧ (!true) = true) := fun hcontra => Bool.noConfusion hcontra.2
        simp only [if_neg hfollow] at hwalk ⊢
        cases links with
        | zero => cases hwalk
        | succ links => exact hjump links rfl _ _ hwalk

theorem locate_put_file_self
    (hq : ∀ e, t.get? q = some e → ∃ content mode, e = .file content mode) (content : Content)
    (mode : Nat) (hlocate : t.locateToWrite p = .ok ⟨q, t.get? q⟩) :
    (t.put q (.file content mode)).locate true p = .ok ⟨q, some (.file content mode)⟩ := by
  unfold locateToWrite fromRoot at hlocate
  unfold locate fromRoot
  split_ifs at hlocate ⊢
  exact walk_put_file_self hq content mode hlocate

/-- A file stands where the path leads, in a tree in which a file or nothing was there, and nothing
else has changed. -/
structure Stored (t : FileTree) (p : Path) (q : Location) (e : Entry) (t' : FileTree) : Prop where
  rooted : t'.Rooted
  place : t.locate true p = .ok ⟨q, t.get? q⟩
  file : ∀ e, t.get? q = some e → ∃ content mode, e = .file content mode
  found : t'.locate true p = .ok ⟨q, some e⟩
  others : ∀ l, l ≠ q → t'.get? l = t.get? l

/-- Nothing is lost by a file that is new. -/
theorem Stored.grows {e : Entry} (h : t.Stored p q e t') (hnew : t.get? q = none) : t.Grows t' := by
  intro l e' hl
  have hne : l ≠ q := by
    rintro rfl
    rw [hnew] at hl
    cases hl
  rw [h.others l hne, hl]

/-- A file that is written stands where the path leads. -/
theorem Rooted.stored_put (h : t.Rooted) (hlocate : t.locateToWrite p = .ok ⟨q, t.get? q⟩)
    (hq : ∀ e, t.get? q = some e → ∃ content mode, e = .file content mode) (content : Content)
    (mode : Nat) : t.Stored p q (.file content mode) (t.put q (.file content mode)) :=
  have hplace := locate_of_locateToWrite hlocate
  ⟨h.put_file hplace hq content mode, hplace, hq, locate_put_file_self hq content mode hlocate,
    fun _ hl => get?_put_of_ne t hl _⟩

/-- A file that is there is found when it is written. -/
theorem Rooted.stored_put_of_file (h : t.Rooted) {found : Content} {mode : Nat}
    (hlocate : t.locate true p = .ok ⟨q, some (.file found mode)⟩) (content : Content)
    (mode' : Nat) : t.Stored p q (.file content mode') (t.put q (.file content mode')) := by
  have hthere : t.get? q = some (.file found mode) := get?_of_locate hlocate
  have hplace : t.locateToWrite p = .ok ⟨q, t.get? q⟩ := by
    rw [hthere, locateToWrite_of_file h hlocate]
  refine h.stored_put hplace (fun e he => ?_) content mode'
  rw [hthere] at he
  exact ⟨found, mode, (Option.some.inj he).symm⟩

/-- A file that was written has its permissions set. -/
theorem Stored.setMode {content : Content} {mode : Nat} (h : t.Stored p q (.file content mode) t')
    (mode' : Nat) : t'.setMode p mode' = .ok (t'.put q (.file content mode')) ∧
      t.Stored p q (.file content mode') (t'.put q (.file content mode')) := by
  obtain ⟨hrooted, -, -, hfound, hothers⟩ := h.rooted.stored_put_of_file h.found content mode'
  exact ⟨by rw [FileTree.setMode, stat_of_locate h.found], hrooted, h.place, h.file, hfound,
    fun l hl => (hothers l hl).trans (h.others l hl)⟩

end Written

end FileTree

end MeshNode
