import MeshNode.Proofs.Files.Replacement

/-!
# Files that can be replaced safely

To replace a file its new content is written into a draft beside it, and the draft is moved to its
name. Nothing that is done before the move can be seen at the path of the file as long as the draft
is no link and the path does not lead to the draft (`Replaceable`): the directories that are made
are empty, and the draft is written where the path does not lead. The move makes the new content
appear at once (`Replaceable.read_of_rename`), even if the path was a link before.

A lookup notices a change only if it comes by the place of the change. What it comes by must be a
file at its end (`walk_put_file`) or a link on its way (`walk_or_through`), and a link on the way to
a directory leads to a directory itself.
-/

namespace MeshNode

namespace FileTree

open MeshNode.Path (Plain)

variable {t t' t'' : FileTree}

/-! ### Lookups in different trees -/

/-- A component either comes to the same in all trees or to what is there. -/
theorem step_cases (dir : Location) (c : String) :
    (∃ s, (s = .stay ∨ s = .up ∨ s = .tooLong) ∧ ∀ t : FileTree, t.step dir c = s) ∨
      ∀ t : FileTree, t.step dir c = .ofEntry (t.get? (dir ++ [c])) := by
  by_cases hblank : c = "" ∨ c = "."
  · exact Or.inl ⟨.stay, Or.inl rfl, fun t => if_pos hblank⟩
  by_cases hdots : c = ".."
  · refine Or.inl ⟨.up, Or.inr (Or.inl rfl), fun t => ?_⟩
    rw [step, if_neg hblank, if_pos hdots]
  by_cases hlong : maxName < c.utf8ByteSize
  · refine Or.inl ⟨.tooLong, Or.inr (Or.inr rfl), fun t => ?_⟩
    rw [step, if_neg hblank, if_neg hdots, if_pos hlong]
  · refine Or.inr fun t => ?_
    rw [step, if_neg hblank, if_neg hdots, if_neg hlong]

/-- Whether a path can be looked up at all is a matter of its text. -/
theorem locate_cases (p : Path) :
    (∃ error, (error = .nulInPath ∨ error = .nameTooLong) ∧
      ∀ (t : FileTree) follow, t.locate follow p = .error error) ∨
    ∀ (t : FileTree) follow, t.locate follow p = t.walk follow maxLinks [] p := by
  by_cases hnuls : (p.any fun c => c.toList.contains '\x00') = true
  · exact Or.inl ⟨.nulInPath, Or.inl rfl, fun t follow => if_pos hnuls⟩
  by_cases hlong : maxPath < Path.byteLength p
  · refine Or.inl ⟨.nameTooLong, Or.inr rfl, fun t follow => ?_⟩
    rw [locate, fromRoot, if_neg hnuls, if_pos hlong]
  · refine Or.inr fun t follow => ?_
    rw [locate, fromRoot, if_neg hnuls, if_neg hlong]

/-- If a path can be looked up, so can what it begins with. -/
theorem locate_eq_walk_of_append {follow : Bool} {p rest : Path} {f : Found}
    (hlocate : t.locate follow (p ++ rest) = .ok f) (t' : FileTree) (follow' : Bool) :
    t'.locate follow' p = t'.walk follow' maxLinks [] p := by
  unfold locate fromRoot at hlocate ⊢
  split_ifs at hlocate with hnuls hlong
  have hnuls' : ¬ (p.any fun c => c.toList.contains '\x00') = true := by
    rw [List.any_append, Bool.or_eq_true, not_or] at hnuls
    exact hnuls.1
  have hlength := Path.byteLength_le_append p rest
  rw [if_neg hnuls', if_neg (by omega)]

/-- How many links may be followed makes no difference but for a lookup that follows too many. -/
theorem walk_links {follow : Bool} {links : Nat} {dir : Location} {p : Path} {f : Found}
    (hwalk : t.walk follow links dir p = .ok f) (links' : Nat) :
    t.walk follow links' dir p = .ok f ∨ t.walk follow links' dir p = .error .tooManyLinks := by
  induction links, dir, p using walk_induction generalizing links' with
  | nil links dir =>
    rw [walk_nil] at hwalk ⊢
    exact Or.inl hwalk
  | cons links dir c p ih hjump =>
    rw [walk_cons] at hwalk ⊢
    cases hstep : t.step dir c <;> simp only [hstep] at hwalk ⊢
    case stay => exact ih _ hwalk links'
    case up => exact ih _ hwalk links'
    case tooLong => cases hwalk
    case missing => exact Or.inl hwalk
    case dir => exact ih _ hwalk links'
    case file content mode => exact Or.inl hwalk
    case link target =>
      split
      · rename_i hlast
        rw [if_pos hlast] at hwalk
        exact Or.inl hwalk
      rename_i hlast
      rw [if_neg hlast] at hwalk
      cases links with
      | zero => cases hwalk
      | succ links =>
        cases links' with
        | zero => exact Or.inr rfl
        | succ links' => exact hjump links rfl _ _ hwalk links'

/-- **A lookup that goes on has come to a directory**, and so has one that ends at a directory. -/
theorem exists_dir_of_walk_append (h : t.Rooted) {follow : Bool} {links : Nat} {dir : Location}
    {p rest : Path} {f : Found} (hdir : t.get? dir = some .dir)
    (hrest : (∃ c ∈ rest, c ≠ "") ∨ follow = true ∧ f.entry = some .dir)
    (hwalk : t.walk follow links dir (p ++ rest) = .ok f) :
    ∃ d, t.walk true links dir p = .ok ⟨d, some .dir⟩ := by
  induction links, dir, p using walk_induction with
  | nil links dir => exact ⟨dir, by rw [walk_nil, hdir]⟩
  | cons links dir c p ih hjump =>
    simp only [List.cons_append, walk_cons] at hwalk ⊢
    cases hstep : t.step dir c <;> simp only [hstep] at hwalk ⊢
    case stay => exact ih _ hdir hwalk
    case up => exact ih _ (h.get?_dropLast hdir) hwalk
    case tooLong => cases hwalk
    case missing =>
      split at hwalk
      · rename_i hall
        rcases hrest with ⟨d, hd, hne⟩ | ⟨-, hentry⟩
        · exact absurd (by simpa using List.all_eq_true.mp hall d (List.mem_append_right p hd)) hne
        · obtain rfl := Except.ok.inj hwalk
          cases hentry
      · cases hwalk
    case dir => exact ih _ (get?_of_step hstep) hwalk
    case file content mode =>
      split at hwalk
      · rename_i hnil
        rcases hrest with ⟨d, hd, -⟩ | ⟨-, hentry⟩
        · rw [(List.append_eq_nil_iff.mp hnil).2] at hd
          cases hd
        · obtain rfl := Except.ok.inj hwalk
          cases hentry
      · cases hwalk
    case link target =>
      rw [if_neg fun hcontra => Bool.noConfusion hcontra.2]
      split at hwalk
      · rename_i hlast
        rcases hrest with ⟨d, hd, -⟩ | ⟨hfollow, -⟩
        · rw [(List.append_eq_nil_iff.mp hlast.1).2] at hd
          cases hd
        · rw [hfollow] at hlast
          cases hlast.2
      cases links with
      | zero => cases hwalk
      | succ links =>
        rw [← List.append_assoc] at hwalk
        exact hjump links rfl _ _ (get?_base hdir target) hwalk

/-- **Writing a file is noticed only where the file is.** A lookup ends elsewhere as it did, or ended
at the place of the file, or fails in either tree. -/
theorem walk_put_file {q : Location} (hq : ∀ e, t.get? q = some e → ∃ content mode, e = .file content mode)
    (content : Content) (mode : Nat) (links : Nat) (dir : Location) (p : Path) :
    (∃ f, f.location ≠ q ∧ t.walk true links dir p = .ok f ∧
      (t.put q (.file content mode)).walk true links dir p = .ok f) ∨
    (∃ o, t.walk true links dir p = .ok ⟨q, o⟩) ∨
    ∃ e e', (e' = e ∨ e' = .notADirectory) ∧ t.walk true links dir p = .error e ∧
      (t.put q (.file content mode)).walk true links dir p = .error e' := by
  induction links, dir, p using walk_induction with
  | nil links dir =>
    simp only [walk_nil]
    by_cases heq : dir = q
    · exact Or.inr (Or.inl ⟨_, by rw [heq]⟩)
    · exact Or.inl ⟨_, heq, rfl, by rw [get?_put_of_ne t heq]⟩
  | cons links dir c p ih hjump =>
    simp only [walk_cons]
    rcases step_cases dir c with ⟨s, hs, hstep⟩ | hstep
    · rw [hstep, hstep]
      rcases hs with rfl | rfl | rfl
      · exact ih _
      · exact ih _
      · exact Or.inr (Or.inr ⟨_, _, Or.inl rfl, rfl, rfl⟩)
    rw [hstep, hstep]
    by_cases heq : dir ++ [c] = q
    · -- What is at the place of the file ends the lookup, in one tree as in the other.
      have hself : (t.put q (.file content mode)).get? q = some (.file content mode) :=
        get?_put_self (heq ▸ List.concat_ne_nil c dir) _
      rw [heq, hself]
      cases hold : t.get? q with
      | none =>
        simp only [Step.ofEntry]
        by_cases hall : p.all (· = "") = true
        · exact Or.inr (Or.inl ⟨none, if_pos hall⟩)
        · have hne : p ≠ [] := by
            rintro rfl
            exact hall rfl
          exact Or.inr (Or.inr ⟨_, _, Or.inr rfl, if_neg hall, if_neg hne⟩)
      | some e =>
        obtain ⟨found, mode', rfl⟩ := hq e hold
        simp only [Step.ofEntry]
        by_cases hnil : p = []
        · exact Or.inr (Or.inl ⟨_, if_pos hnil⟩)
        · exact Or.inr (Or.inr ⟨_, _, Or.inl rfl, if_neg hnil, if_neg hnil⟩)
    · rw [get?_put_of_ne t heq]
      rcases t.get? (dir ++ [c]) with _ | ⟨_ | ⟨content', mode'⟩ | target⟩ <;>
        simp only [Step.ofEntry]
      · split
        · exact Or.inl ⟨_, heq, rfl, rfl⟩
        · exact Or.inr (Or.inr ⟨_, _, Or.inl rfl, rfl, rfl⟩)
      · exact ih _
      · split
        · exact Or.inl ⟨_, heq, rfl, rfl⟩
        · exact Or.inr (Or.inr ⟨_, _, Or.inl rfl, rfl, rfl⟩)
      · have hfollow : ¬ (p = [] ∧ (!true) = true) := fun hcontra => Bool.noConfusion hcontra.2
        simp only [if_neg hfollow]
        cases links with
        | zero => exact Or.inr (Or.inr ⟨_, _, Or.inl rfl, rfl, rfl⟩)
        | succ links => exact hjump links rfl _ _

/-- The directories and links of one tree are there in the other, but for one place. -/
def KeepsWaysBut (k : Location) (t t' : FileTree) : Prop :=
  ∀ l e, l ≠ k → t.get? l = some e → (∀ content mode, e ≠ .file content mode) → t'.get? l = some e

/-- **A way to a directory is lost only if it leads through what is lost**, which then is a link. -/
theorem walk_or_through {k : Location} (hk : t.get? k ≠ some .dir) (hways : KeepsWaysBut k t t')
    {links : Nat} {dir : Location} {p : Path} {l : Location} (h : t.Rooted)
    (hdir : t.get? dir = some .dir) (hwalk : t.walk true links dir p = .ok ⟨l, some .dir⟩) :
    t'.walk true links dir p = .ok ⟨l, some .dir⟩ ∨
      ∃ target links' rest, t.get? k = some (.link target) ∧
        t.walk true links' (if Path.isAbsolute target then [] else k.dropLast)
          (Path.pieces target ++ rest) = .ok ⟨l, some .dir⟩ := by
  have hkeep {q : Location} (hq : t.get? q = some .dir) : t'.get? q = some .dir :=
    hways q .dir (fun heq => hk (heq ▸ hq)) hq fun _ _ => Entry.noConfusion
  induction links, dir, p using walk_induction with
  | nil links dir =>
    rw [walk_nil, hdir] at hwalk
    rw [walk_nil, hkeep hdir]
    exact Or.inl hwalk
  | cons links dir c p ih hjump =>
    rw [walk_cons] at hwalk ⊢
    rcases step_cases dir c with ⟨s, hs, hstep⟩ | hstep
    · rw [hstep] at hwalk ⊢
      rcases hs with rfl | rfl | rfl
      · exact ih _ hdir hwalk
      · exact ih _ (h.get?_dropLast hdir) hwalk
      · cases hwalk
    rw [hstep] at hwalk ⊢
    rcases hhere : t.get? (dir ++ [c]) with _ | ⟨_ | ⟨content, mode⟩ | target⟩ <;>
      simp only [hhere, Step.ofEntry] at hwalk
    · split at hwalk <;> cases hwalk
    · rw [hkeep hhere]
      exact ih _ hhere hwalk
    · split at hwalk <;> cases hwalk
    · rw [if_neg fun hcontra => Bool.noConfusion hcontra.2] at hwalk
      cases links with
      | zero => cases hwalk
      | succ links =>
        by_cases heq : dir ++ [c] = k
        · refine Or.inr ⟨target, links, p, heq ▸ hhere, ?_⟩
          rw [← heq, List.dropLast_concat]
          exact hwalk
        · refine (hjump links rfl _ _ (get?_base hdir target) hwalk).imp_left fun hthere => ?_
          rw [hways _ _ heq hhere fun _ _ => Entry.noConfusion]
          simp only [Step.ofEntry]
          rw [if_neg fun hcontra => Bool.noConfusion hcontra.2]
          exact hthere

/-- A path through an empty directory leads to the missing place of its last name, or fails. -/
theorem LeadsToEmpty.locate_cases {p between : Path} {c : String} {d : Location}
    (h : t.LeadsToEmpty p d) (hbetween : ∀ e ∈ between, Plain e) (hc : Plain c) (follow : Bool) :
    t.locate follow (p ++ between ++ [c]) = .ok ⟨d ++ [c], none⟩ ∨
      ∃ error, (error = .notFound ∨ error = .nameTooLong ∨ error = .nulInPath) ∧
        t.locate follow (p ++ between ++ [c]) = .error error := by
  rcases FileTree.locate_cases (p ++ between ++ [c]) with ⟨error, herror, hlocate⟩ | hlocate
  · exact Or.inr ⟨error, Or.inr herror.symm, hlocate t follow⟩
  obtain ⟨links, hleads⟩ := h.leads follow
  rw [hlocate, List.append_assoc, hleads _ (List.concat_ne_nil c between)]
  -- There is nothing in the directory, so that the first name ends the lookup.
  have hfirst {e : String} (he : Plain e) (rest : Path) :
      t.walk follow links d (e :: rest) = .error .nameTooLong ∨
        t.walk follow links d (e :: rest) =
          if rest.all (· = "") then .ok ⟨d ++ [e], none⟩ else .error .notFound := by
    rw [walk_cons]
    rcases step_of_plain t d he with hstep | hstep
    · exact Or.inl (by rw [hstep])
    · exact Or.inr (by rw [hstep, h.empty e]; rfl)
  cases between with
  | nil =>
    rcases hfirst hc [] with hlong | hfound
    · exact Or.inr ⟨_, Or.inr (Or.inl rfl), hlong⟩
    · exact Or.inl hfound
  | cons e between =>
    have hlast : ¬ (between ++ [c]).all (· = "") = true := by simp [hc.1]
    rcases hfirst (hbetween e List.mem_cons_self) (between ++ [c]) with hlong | hmissing
    · exact Or.inr ⟨_, Or.inr (Or.inl rfl), hlong⟩
    · rw [if_neg hlast] at hmissing
      exact Or.inr ⟨_, Or.inl rfl, hmissing⟩

/-- The way to a directory stays as it is when a file is written. -/
theorem walk_put_file_of_dir {q : Location}
    (hq : ∀ e, t.get? q = some e → ∃ content mode, e = .file content mode) (content : Content)
    (mode : Nat) {links : Nat} {dir : Location} {p : Path} {d : Location} (hne : d ≠ q)
    (hwalk : t.walk true links dir p = .ok ⟨d, some .dir⟩) :
    (t.put q (.file content mode)).walk true links dir p = .ok ⟨d, some .dir⟩ := by
  rcases walk_put_file hq content mode links dir p with
    ⟨f, -, hf, hf'⟩ | ⟨o, ho⟩ | ⟨e, e', -, he, -⟩
  · rw [hf', ← hf, hwalk]
  · rw [hwalk] at ho
    exact absurd (congrArg Found.location (Except.ok.inj ho)) hne
  · rw [hwalk] at he
    cases he

/-- A path that does not lead to a file leads where it led when the file is written, or still
nowhere. -/
theorem locate_put_file {q : Location}
    (hq : ∀ e, t.get? q = some e → ∃ content mode, e = .file content mode) (content : Content)
    (mode : Nat) {p : Path} (hapart : ∀ f, t.locate true p = .ok f → f.location ≠ q) :
    (t.put q (.file content mode)).locate true p = t.locate true p ∨
      ∃ e, t.locate true p = .error e ∧
        (t.put q (.file content mode)).locate true p = .error .notADirectory := by
  rcases locate_cases p with ⟨error, -, hlocate⟩ | hlocate
  · exact Or.inl ((hlocate _ _).trans (hlocate _ _).symm)
  rw [hlocate] at hapart
  rw [hlocate, hlocate]
  rcases walk_put_file hq content mode maxLinks [] p with
    ⟨f, -, hf, hf'⟩ | ⟨o, ho⟩ | ⟨e, e', rfl | rfl, he, he'⟩
  · exact Or.inl (hf'.trans hf.symm)
  · exact absurd rfl (hapart _ ho)
  · exact Or.inl (he'.trans he.symm)
  · exact Or.inr ⟨e, he, he'⟩

/-! ### The place of a name -/

theorem isLink_of_locate {p : Path} {l : Location} {target : String}
    (hlocate : t.locate false p = .ok ⟨l, some (.link target)⟩) : t.isLink p = true := by
  rw [isLink, stat, hlocate]

theorem isLink_eq_false {p : Path}
    (h : ∀ l target, t.locate false p ≠ .ok ⟨l, some (.link target)⟩) : t.isLink p = false := by
  unfold isLink
  split
  · rename_i l target hstat
    exact absurd (locate_of_stat hstat).1 (h l target)
  · rfl

section Place

variable {p : Path} {c : String} {d : Location}

/-- A path that leads somewhere leads to the place of its last name in the directory that the names
before it lead to, if no link is followed there. -/
theorem of_locate_concat (h : t.Rooted) (hc : Plain c) {follow : Bool}
    (hlink : follow = true → t.isLink (p ++ [c]) = false) {f : Found}
    (hlocate : t.locate follow (p ++ [c]) = .ok f) :
    ∃ d, t.walk true maxLinks [] p = .ok ⟨d, some .dir⟩ ∧ f = ⟨d ++ [c], t.get? (d ++ [c])⟩ ∧
      c.utf8ByteSize ≤ maxName := by
  have hwalk := walk_of_locate hlocate
  obtain ⟨d, hd⟩ := exists_dir_of_walk_append h (get?_root t)
    (Or.inl ⟨c, List.mem_singleton_self c, hc.1⟩) hwalk
  have hplain : ∀ e ∈ [c], Plain e := fun e he => List.mem_singleton.mp he ▸ hc
  obtain ⟨links, hgoes⟩ := (walk_goesOn h follow (get?_root t) hd).dir rfl
  rw [hgoes [c] (List.cons_ne_nil c [])] at hwalk
  obtain ⟨hlength, ⟨-, rfl⟩ | ⟨hdir, hend⟩ | ⟨target, htarget, hfollow⟩⟩ := of_walk_cons hplain hwalk
  · exact ⟨d, hd, rfl, hlength⟩
  · rw [walk_nil] at hend
    exact ⟨d, hd, (Except.ok.inj hend).symm, hlength⟩
  · -- Such a link would be found by a lookup that does not follow it.
    have hfollow : follow = true := hfollow.resolve_left (not_not.mpr rfl)
    obtain ⟨links', hgoes'⟩ := (walk_goesOn h false (get?_root t) hd).dir rfl
    have hfound : t.locate false (p ++ [c]) = .ok ⟨d ++ [c], some (.link target)⟩ := by
      rw [← List.append_nil (p ++ [c])] at hlocate
      rw [locate_eq_walk_of_append hlocate, hgoes' [c] (List.cons_ne_nil c []),
        walk_last hc hlength fun _ _ => rfl, htarget]
    have hcontra := hlink hfollow
    rw [isLink_of_locate hfound] at hcontra
    cases hcontra

/-- If it is known where the directory is, it is known what the path leads to. -/
theorem eq_of_locate_concat (h : t.Rooted) (hc : Plain c)
    (hwalk : t.walk true maxLinks [] p = .ok ⟨d, some .dir⟩) {follow : Bool}
    (hlink : follow = true → t.isLink (p ++ [c]) = false) {f : Found}
    (hlocate : t.locate follow (p ++ [c]) = .ok f) :
    f = ⟨d ++ [c], t.get? (d ++ [c])⟩ ∧ c.utf8ByteSize ≤ maxName := by
  obtain ⟨d', hwalk', hf, hlength⟩ := of_locate_concat h hc hlink hlocate
  rw [hwalk] at hwalk'
  obtain rfl : d = d' := congrArg Found.location (Except.ok.inj hwalk')
  exact ⟨hf, hlength⟩

/-- What is at the place of a name in a directory is found, unless it is a link to follow. -/
theorem locate_concat_of_walk (h : t.Rooted) (hc : Plain c) (hlength : c.utf8ByteSize ≤ maxName)
    (hwalk : t.walk true maxLinks [] p = .ok ⟨d, some .dir⟩) {follow : Bool}
    (hlink : ∀ target, t.get? (d ++ [c]) = some (.link target) → follow = false)
    (hlookup : t.locate follow (p ++ [c]) = t.walk follow maxLinks [] (p ++ [c])) :
    t.locate follow (p ++ [c]) = .ok ⟨d ++ [c], t.get? (d ++ [c])⟩ := by
  obtain ⟨links, hgoes⟩ := (walk_goesOn h follow (get?_root t) hwalk).dir rfl
  rw [hlookup, hgoes [c] (List.cons_ne_nil c []), walk_last hc hlength hlink]

end Place

/-! ### Reading -/

section Reading

variable {p : Path}

theorem read_congr (h : t'.locate true p = t.locate true p) : t'.read p = t.read p := by
  rw [read, read, stat, stat, h]

theorem read_of_error {error : FileError} (h : t.locate true p = .error error) :
    t.read p = .error error := by
  rw [read, stat, h]

theorem read_of_file {l : Location} {content : Content} {mode : Nat}
    (h : t.locate true p = .ok ⟨l, some (.file content mode)⟩) : t.read p = .ok content := by
  rw [read, stat, h]

theorem read_of_dir {l : Location} (h : t.locate true p = .ok ⟨l, some .dir⟩) :
    t.read p = .error .isADirectory := by
  rw [read, stat, h]

theorem read_of_missing {l : Location} (h : t.locate true p = .ok ⟨l, none⟩) :
    t.read p = .error .notFound := by
  rw [read, stat, h]

/-- What can be read is there. -/
theorem exists_of_read {content : Content} (h : t.read p = .ok content) :
    ∃ l e, t.locate true p = .ok ⟨l, some e⟩ := by
  cases hlocate : t.locate true p with
  | error e =>
    rw [read_of_error hlocate] at h
    cases h
  | ok f =>
    obtain ⟨l, _ | e⟩ := f
    · rw [read_of_missing hlocate] at h
      cases h
    · exact ⟨l, e, rfl⟩

end Reading

/-- What a move moves, and where to. -/
theorem exists_of_rename {source target : Path} (hrename : t.rename source target = .ok t') :
    ∃ s e l there, t.stat false source = .ok ⟨s, some e⟩ ∧
      t.locate false target = .ok ⟨l, there⟩ ∧ there ≠ some .dir ∧ t' = (t.cut s).put l e := by
  unfold rename at hrename
  split at hrename
  · cases hrename
  · cases hrename
  · rename_i s e l there hsource htarget
    split_ifs at hrename with hthere
    exact ⟨s, e, l, there, hsource, htarget, hthere, (Except.ok.inj hrename).symm⟩
  · cases hrename

/-! ### Replacing a file -/

/-- A file can be replaced by way of a draft beside it: the draft is no link, the path does not lead
to it, and neither to a directory or through too many links. Directories may be missing on the way
only if there are no double dots, which would lead out of them again. -/
structure Replaceable (t : FileTree) (dir : Path) (name draft : String) : Prop where
  rooted : t.Rooted
  plain : Plain name ∧ Plain draft
  ne : name ≠ draft
  way : t.isDir dir = true ∨ ∀ c ∈ dir, Plain c
  unlinked : t.isLink (dir ++ [draft]) = false
  apart : ∀ f g, t.locate true (dir ++ [name]) = .ok f → t.locate true (dir ++ [draft]) = .ok g →
    f.location ≠ g.location
  opens : t.read (dir ++ [name]) ≠ .error .isADirectory ∧
    t.read (dir ++ [name]) ≠ .error .tooManyLinks

variable {dir : Path} {name draft : String}

/-- A file that is not there yet can be replaced, if an empty directory stands on the way to it. -/
theorem LeadsToEmpty.replaceable {p between : Path} {d : Location} (h : t.LeadsToEmpty p d)
    (hplain : ∀ c ∈ p ++ between, Plain c) (hnames : Plain name ∧ Plain draft)
    (hne : name ≠ draft) : t.Replaceable (p ++ between) name draft ∧
      ∃ error, t.read (p ++ between ++ [name]) = .error error := by
  have hleads {c : String} (hc : Plain c) (follow : Bool) :=
    h.locate_cases (fun e he => hplain e (List.mem_append_right p he)) hc follow
  obtain ⟨error, hread, hopens⟩ : ∃ error, t.read (p ++ between ++ [name]) = .error error ∧
      (error = .notFound ∨ error = .nameTooLong ∨ error = .nulInPath) := by
    rcases hleads hnames.1 true with hfound | ⟨error, herror, hfound⟩
    · exact ⟨_, read_of_missing hfound, Or.inl rfl⟩
    · exact ⟨error, read_of_error hfound, herror⟩
  refine ⟨⟨h.rooted, hnames, hne, Or.inr hplain, ?_, ?_, ?_⟩, error, hread⟩
  · refine isLink_eq_false fun l target hlink => ?_
    rcases hleads hnames.2 false with hfound | ⟨error, -, hfound⟩ <;>
      · rw [hfound] at hlink
        cases hlink
  · intro f g hf hg heq
    rcases hleads hnames.1 true with hfound | ⟨error, -, hfound⟩
    · rcases hleads hnames.2 true with hfound' | ⟨error, -, hfound'⟩
      · rw [hfound] at hf
        rw [hfound'] at hg
        obtain rfl := Except.ok.inj hf
        obtain rfl := Except.ok.inj hg
        exact hne (by simpa using heq)
      · rw [hfound'] at hg
        cases hg
    · rw [hfound] at hf
      cases hf
  · rw [hread]
    rcases hopens with rfl | rfl | rfl <;> decide

/-- Where nothing is, no lookup goes on. -/
theorem Rooted.locate_ne_of_missing (h : t.Rooted) {p rest : Path} {l : Location}
    (hlocate : t.locate false p = .ok ⟨l, none⟩) {f : Found}
    (hrest : (∃ c ∈ rest, c ≠ "") ∨ f.entry = some .dir) : t.locate true (p ++ rest) ≠ .ok f := by
  intro hfound
  obtain ⟨d, hd⟩ := exists_dir_of_walk_append h (get?_root t)
    (hrest.imp_right fun hentry => ⟨rfl, hentry⟩) (walk_of_locate hfound)
  obtain ⟨l', e, hl'⟩ := exists_walk_false hd
  rw [walk_of_locate hlocate] at hl'
  cases hl'

/-- **A directory that is made on the way to a file is not seen at its path.** Nothing was there
before and nothing is there after. -/
theorem Replaceable.makeDir (h : t.Replaceable dir name draft) {q : Path} (hq : q <+: dir)
    (hmake : t.makeDir q = .ok t') : t'.Replaceable dir name draft ∧
      (t'.read (dir ++ [name])).toOption = (t.read (dir ++ [name])).toOption := by
  obtain ⟨l, hlocate, rfl⟩ := exists_of_makeDir hmake
  obtain ⟨between, rfl⟩ := hq
  have hplain : ∀ c ∈ q ++ between, Plain c := by
    refine h.way.resolve_left fun hdir => ?_
    obtain ⟨d, hd⟩ := exists_of_isDir hdir
    exact h.rooted.locate_ne_of_missing hlocate (Or.inr rfl) hd
  have hbefore (content : Content) : t.read (q ++ between ++ [name]) ≠ .ok content := by
    intro hread
    obtain ⟨l', e, hfound⟩ := exists_of_read hread
    rw [List.append_assoc] at hfound
    exact h.rooted.locate_ne_of_missing hlocate (Or.inl ⟨name, by simp, h.plain.1.1⟩) hfound
  obtain ⟨hready, error, hafter⟩ :=
    (leadsToEmpty_put h.rooted hlocate).replaceable hplain h.plain h.ne
  refine ⟨hready, ?_⟩
  rw [hafter]
  cases hread : t.read (q ++ between ++ [name]) with
  | error error' => rfl
  | ok content => exact absurd hread (hbefore content)

/-- A path to a directory that lookups of longer paths came by. -/
theorem isDir_of_walk {p rest : Path} {follow : Bool} {f : Found} {d : Location}
    (hlocate : t.locate follow (p ++ rest) = .ok f)
    (hwalk : t'.walk true maxLinks [] p = .ok ⟨d, some .dir⟩) : t'.isDir p = true := by
  rw [isDir, stat, locate_eq_walk_of_append hlocate, hwalk]
  rfl

/-- A file can be replaced if neither a link nor the end of its path is at the place of the draft. -/
theorem Rooted.replaceable (h : t.Rooted) (hnames : Plain name ∧ Plain draft) (hne : name ≠ draft)
    (hdir : t.isDir dir = true) {d : Location}
    (hwalk : t.walk true maxLinks [] dir = .ok ⟨d, some .dir⟩)
    (hdraft : ∀ target, t.get? (d ++ [draft]) ≠ some (.link target))
    (hapart : ∀ f, t.locate true (dir ++ [name]) = .ok f → f.location ≠ d ++ [draft])
    (hopens : t.read (dir ++ [name]) ≠ .error .isADirectory ∧
      t.read (dir ++ [name]) ≠ .error .tooManyLinks) : t.Replaceable dir name draft := by
  have hplace {follow : Bool} {f : Found}
      (hlink : follow = true → t.isLink (dir ++ [draft]) = false)
      (hf : t.locate follow (dir ++ [draft]) = .ok f) :=
    (eq_of_locate_concat h hnames.2 hwalk hlink hf).1
  have hunlinked : t.isLink (dir ++ [draft]) = false := by
    refine isLink_eq_false fun l target hlink => ?_
    have hentry := congrArg Found.entry (hplace (fun hcontra => Bool.noConfusion hcontra) hlink)
    exact hdraft target hentry.symm
  refine ⟨h, hnames, hne, Or.inl hdir, hunlinked, fun f g hf hg => ?_, hopens⟩
  rw [hplace (fun _ => hunlinked) hg]
  exact hapart f hf

/-- **What is written into the draft is not seen at the path of the file**, which leads elsewhere. -/
theorem Replaceable.write (h : t.Replaceable dir name draft) {content : Content}
    (hwrite : t.write (dir ++ [draft]) content = .ok t') : t'.Replaceable dir name draft ∧
      (t'.read (dir ++ [name])).toOption = (t.read (dir ++ [name])).toOption ∧
      ∃ d mode, t'.walk true maxLinks [] dir = .ok ⟨d, some .dir⟩ ∧
        t'.get? (d ++ [draft]) = some (.file content mode) := by
  obtain ⟨q, o, mode, hwritten, hfile, rfl⟩ := exists_put_of_write hwrite
  have hlocate := locate_of_locateToWrite hwritten
  obtain rfl : t.get? q = o := get?_of_locate hlocate
  obtain ⟨d, hwalk, heq, -⟩ := of_locate_concat h.rooted h.plain.2 (fun _ => h.unlinked) hlocate
  obtain rfl : q = d ++ [draft] := congrArg Found.location heq
  have hdir : t.get? d = some .dir := get?_of_walk hwalk
  have hne : t.get? (d ++ [draft]) ≠ some .dir := by
    intro hq
    obtain ⟨_, _, ⟨⟩⟩ := hfile _ hq
  have hrooted : (t.put (d ++ [draft]) (.file content mode)).Rooted :=
    h.rooted.put_of_ne hne (by rwa [List.dropLast_concat]) _
  have hself := get?_put_self (t := t) (List.concat_ne_nil draft d) (.file content mode)
  have hwalk' := walk_put_file_of_dir hfile content mode (fun heq => hne (heq ▸ hdir)) hwalk
  have hapart : ∀ f, t.locate true (dir ++ [name]) = .ok f → f.location ≠ d ++ [draft] :=
    fun f hf => h.apart f _ hf hlocate
  have hlink (target : String) :
      (t.put (d ++ [draft]) (.file content mode)).get? (d ++ [draft]) ≠ some (.link target) := by
    rw [hself]
    rintro ⟨⟩
  have hready :=
    hrooted.replaceable h.plain h.ne (isDir_of_walk hlocate hwalk') hwalk' hlink
  have hopens := h.opens
  rcases locate_put_file hfile content mode hapart with hsame | ⟨e, he, he'⟩
  · have hread := read_congr hsame
    rw [hsame, hread] at hready
    exact ⟨hready hapart hopens, congrArg Except.toOption hread, d, mode, hwalk', hself⟩
  · have hread := read_of_error he'
    rw [he', hread] at hready
    refine ⟨hready (fun f => nofun) ⟨nofun, nofun⟩, ?_, d, mode, hwalk', hself⟩
    rw [hread, read_of_error he]
    rfl

/-- A link at the place of the file does not lead on to a directory: it would be one, or one link
too many. -/
theorem Replaceable.not_through (h : t.Replaceable dir name draft) {d : Location}
    (hwalk : t.walk true maxLinks [] dir = .ok ⟨d, some .dir⟩)
    (hlength : name.utf8ByteSize ≤ maxName)
    (hlookup : t.locate true (dir ++ [name]) = t.walk true maxLinks [] (dir ++ [name]))
    {target : String} (htarget : t.get? (d ++ [name]) = some (.link target)) {links : Nat}
    {rest : Path} {l : Location} :
    t.walk true links (if Path.isAbsolute target then [] else d) (Path.pieces target ++ rest) ≠
      .ok ⟨l, some .dir⟩ := by
  intro hthrough
  obtain ⟨l', hl'⟩ := exists_dir_of_walk_append h.rooted (get?_base (get?_of_walk hwalk) target)
    (Or.inr ⟨rfl, rfl⟩) hthrough
  obtain ⟨links', hgoes⟩ := (walk_goesOn h.rooted true (get?_root t) hwalk).dir rfl
  have hend : t.locate true (dir ++ [name]) =
      t.jump true false links' (if Path.isAbsolute target then [] else d) (Path.pieces target) := by
    rw [hlookup, hgoes [name] (List.cons_ne_nil name []), walk_cons,
      step_of_short h.plain.1 hlength, htarget, ← List.append_nil (Path.pieces target)]
    exact if_neg fun hcontra => Bool.noConfusion hcontra.2
  cases links' with
  | zero => exact h.opens.2 (read_of_error hend)
  | succ links' =>
    rcases walk_links hl' links' with hdir | hmany
    · exact h.opens.1 (read_of_dir (hend.trans hdir))
    · exact h.opens.2 (read_of_error (hend.trans hmany))

/-- What is put in a directory where there is none, in place of a file elsewhere. -/
theorem Rooted.move (h : t.Rooted) {q d : Location} {c : String} {content : Content} {mode : Nat}
    (hq : t.get? q = some (.file content mode)) (hthere : t.get? (d ++ [c]) ≠ some .dir)
    (hdir : t.get? d = some .dir) :
    ((t.cut q).put (d ++ [c]) (.file content mode)).Rooted :=
  have htidy : t.Tidy [] := ⟨h, nofun⟩
  (htidy.move hq hthere hdir).rooted

/-- A move takes away what was at its end, and no other way. -/
theorem Rooted.keepsWaysBut_move (h : t.Rooted) {q l : Location} {content : Content} {mode : Nat}
    (hq : t.get? q = some (.file content mode)) :
    KeepsWaysBut l t ((t.cut q).put l (.file content mode)) := by
  intro k e hkl hk hfile
  have hkq : k ≠ q := by
    rintro rfl
    rw [hq] at hk
    exact hfile content mode (Option.some.inj hk).symm
  rw [get?_put_of_ne _ hkl, h.get?_cut_of_file hq hkq, hk]

/-- **The move makes the new content appear**: it takes nothing away that the path leads through. -/
theorem Replaceable.read_of_rename (h : t.Replaceable dir name draft) {d : Location}
    {content : Content} {mode : Nat} (hwalk : t.walk true maxLinks [] dir = .ok ⟨d, some .dir⟩)
    (hfile : t.get? (d ++ [draft]) = some (.file content mode))
    (hrename : t.rename (dir ++ [draft]) (dir ++ [name]) = .ok t') :
    t'.Replaceable dir name draft ∧ t'.read (dir ++ [name]) = .ok content := by
  have hplace {c : String} (hc : Plain c) {f : Found}
      (hf : t.locate false (dir ++ [c]) = .ok f) :=
    eq_of_locate_concat h.rooted hc hwalk (fun hcontra => Bool.noConfusion hcontra) hf
  obtain ⟨s, e, l, there, hsource, htarget, hthere, hmoved⟩ := exists_of_rename hrename
  obtain ⟨hs, -⟩ := hplace h.plain.2 (locate_of_stat hsource).1
  obtain ⟨hl, hlength⟩ := hplace h.plain.1 htarget
  rw [hfile] at hs
  cases hs
  cases hl
  have hdir : t.get? d = some .dir := get?_of_walk hwalk
  have hlookup (t' : FileTree) {p rest : Path} (hp : p ++ rest = dir ++ [name]) :
      t'.locate true p = t'.walk true maxLinks [] p := by
    rw [← hp] at htarget
    exact locate_eq_walk_of_append htarget t' true
  have hname (t' : FileTree) := hlookup t' (List.append_nil (dir ++ [name]))
  have hapart : d ++ [draft] ≠ d ++ [name] := fun heq => h.ne (by simpa using heq.symm)
  have hrooted : t'.Rooted := hmoved ▸ h.rooted.move hfile hthere hdir
  have hself : t'.get? (d ++ [name]) = some (.file content mode) := by
    rw [hmoved, get?_put_self (List.concat_ne_nil name d)]
  have hgone : t'.get? (d ++ [draft]) = none := by
    rw [hmoved, get?_put_of_ne _ hapart, get?_cut, if_neg (List.concat_ne_nil draft d)]
    exact if_pos (List.isPrefixOf_iff_prefix.mpr (List.prefix_refl _))
  -- The directory is where it was, since no way to a directory leads through the place of the file.
  have hwalk' : t'.walk true maxLinks [] dir = .ok ⟨d, some .dir⟩ := by
    have hways : KeepsWaysBut (d ++ [name]) t t' := hmoved ▸ h.rooted.keepsWaysBut_move hfile
    refine (walk_or_through hthere hways h.rooted (get?_root t) hwalk).resolve_right ?_
    rintro ⟨target, links, rest, hlink, hthrough⟩
    rw [List.dropLast_concat] at hthrough
    exact h.not_through hwalk hlength (hname t) hlink hthrough
  have hfound : t'.locate true (dir ++ [name]) = .ok ⟨d ++ [name], some (.file content mode)⟩ := by
    rw [locate_concat_of_walk hrooted h.plain.1 hlength hwalk' ?_ (hname t'), hself]
    rw [hself]
    rintro target ⟨⟩
  have hread := read_of_file hfound
  refine ⟨hrooted.replaceable h.plain h.ne (isDir_of_walk htarget hwalk') hwalk' ?_ ?_ ?_, hread⟩
  · rw [hgone]
    rintro target ⟨⟩
  · intro f hf
    rw [hfound] at hf
    rw [← Except.ok.inj hf]
    exact hapart.symm
  · rw [hread]
    exact ⟨nofun, nofun⟩

end FileTree

end MeshNode
