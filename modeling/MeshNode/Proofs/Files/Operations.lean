import MeshNode.Files.Operations
import MeshNode.Proofs.Files.Lookup

/-!
# What operations change

Making a directory and writing a file change the tree at one location, which is where the lookup of
their path ends. To place a file is to make the directories on the way to it and to write it. The
first place that this changes, if there is any, can be told from the tree as it was (`FirstChange`):
it is where the first missing directory of the way is looked for, or else where the file is. All
that changes later is below it (`FirstChange.run_place`), since what is made is empty at first.
-/

namespace MeshNode

namespace Files

section Run

variable {ε δ α β : Type}

@[simp] theorem run_pure (x : α) (t : FileTree) : run (pure x : Files ε α) t = (.ok x, t) := rfl

@[simp] theorem run_throw (e : ε) (t : FileTree) :
    run (throw e : Files ε α) t = (.error e, t) := rfl

@[simp] theorem run_get (t : FileTree) : run (get : Files ε FileTree) t = (.ok t, t) := rfl

@[simp] theorem run_set (t t' : FileTree) : run (set t' : Files ε PUnit) t = (.ok ⟨⟩, t') := rfl

@[simp] theorem run_bind (a : Files ε α) (f : α → Files ε β) (t : FileTree) :
    run (a >>= f) t =
      match run a t with
      | (.ok x, t') => run (f x) t'
      | (.error e, t') => (.error e, t') := by
  have hbind : (a >>= f) t = ExceptT.bindCont f (a t).1 (a t).2 := rfl
  unfold run
  rw [hbind]
  rcases a t with ⟨_ | _, _⟩ <;> rfl

theorem run_mapError (f : ε → δ) (a : Files ε α) (t : FileTree) :
    run (mapError f a) t = ((run a t).1.mapError f, (run a t).2) := by
  unfold run mapError
  rcases a t with ⟨_ | _, _⟩ <;> rfl

theorem run_inspect (f : FileTree → Except ε α) (t : FileTree) :
    run (inspect f) t = (f t, t) := by
  unfold inspect
  rw [run_bind, run_get]
  cases h : f t <;> simp [inspect.liftExcept, h]

theorem run_perform (op : FileTree → Except ε FileTree) (t : FileTree) :
    run (perform op) t =
      match op t with
      | .ok t' => (.ok (), t')
      | .error e => (.error e, t) := by
  unfold perform
  rw [run_bind, run_get]
  cases h : op t <;> simp [h]

theorem run_writeBytes (p : Path) (b : Bytes) (t : FileTree) :
    run (writeBytes p b) t =
      match t.write p (.bytes b) with
      | .ok t' => (.ok (), t')
      | .error e => (.error e, t) := by
  rw [writeBytes, run_perform]
  cases t.write p (.bytes b) <;> rfl

end Run

/-- Makes one directory, or leaves the directory that is there alone. -/
def makeOne (p : Path) (t : FileTree) : Except FileError Unit × FileTree :=
  match t.makeDir p with
  | .ok t' => (.ok (), t')
  | .error e => if t.isDir p then (.ok (), t) else (.error e, t)

/-- Makes one directory as an activity. -/
def make (p : Path) : Files FileError Unit := do
  match FileTree.makeDir (← get) p with
  | .ok t => set t
  | .error e => if FileTree.isDir (← get) p then pure () else throw e

theorem run_make (p : Path) (t : FileTree) : run (make p) t = makeOne p t := by
  rw [make, run_bind, run_get, makeOne]
  cases hmake : t.makeDir p with
  | ok t' => simp [hmake]
  | error e => by_cases hdir : t.isDir p <;> simp [hmake, hdir]

/-- The directories on the way are only made if one of them is missing. -/
theorem run_makeDirs (p : Path) (t : FileTree) :
    run (makeDirs p) t =
      if p = [] then (.ok (), t)
      else if t.makeDir p = .error .notFound then
        match run (makeDirs p.dropLast) t with
        | (.ok (), t') => makeOne p t'
        | (.error e, t') => (.error e, t')
      else makeOne p t := by
  rw [makeDirs]
  by_cases hp : p = []
  · simp only [hp, if_true]
    rfl
  · simp only [if_neg hp, run_bind, run_get]
    cases t.makeDir p with
    | ok t' =>
      have hne : (Except.ok t' : Except FileError FileTree) ≠ .error .notFound := by rintro ⟨⟩
      rw [if_neg hne]
      exact run_make p t
    | error e =>
      by_cases he : e = .notFound
      · subst he
        simp only [run_bind, if_true]
        rcases run (makeDirs p.dropLast) t with ⟨_ | ⟨⟩, t'⟩
        · rfl
        · exact run_make p t'
      · have hne : (Except.error e : Except FileError FileTree) ≠ .error .notFound :=
          fun heq => he (Except.error.inj heq)
        rw [if_neg hne]
        split
        · rename_i heq
          exact absurd heq hne
        · exact run_make p t

/-- **What every directory that is made keeps up** is kept up by making all of them. -/
theorem run_makeDirs_keeps {P : FileTree → Prop} {p : Path}
    (hstep : ∀ t t' q, P t → q <+: p → t.makeDir q = .ok t' → P t') {t : FileTree} (h : P t) :
    P (run (makeDirs p) t).2 := by
  have hone {t : FileTree} (h : P t) {q : Path} (hq : q <+: p) : P (makeOne q t).2 := by
    unfold makeOne
    cases hmake : t.makeDir q with
    | ok t' => exact hstep t t' q h hq hmake
    | error e => by_cases hdir : t.isDir q <;> simpa [hdir] using h
  have hall {q : Path} (hq : q <+: p) : P (run (makeDirs q) t).2 := by
    induction q using List.reverseRecOn with
    | nil =>
      rw [run_makeDirs, if_pos rfl]
      exact h
    | append_singleton q c ih =>
      rw [run_makeDirs, if_neg (List.concat_ne_nil c q), List.dropLast_concat]
      split
      · have hparents := ih ((List.prefix_append q [c]).trans hq)
        rcases hrun : run (makeDirs q) t with ⟨_ | ⟨⟩, t'⟩
        · rw [hrun] at hparents
          exact hparents
        · rw [hrun] at hparents
          exact hone hparents hq
      · exact hone h hq
  exact hall (List.prefix_refl p)

/-- Makes the directories on the way to a location and writes a file there. -/
def place (l : Location) (content : Bytes) : Files FileError Unit := do
  makeDirs l.dropLast
  writeBytes l content

end Files

namespace FileTree

variable {t t' : FileTree} {p q root l : Location} {content : Bytes}

open MeshNode.Path (Plain)

/-! ### Empty directories -/

/-- A path leads to a directory with nothing in it. -/
structure LeadsToEmpty (t : FileTree) (p : Path) (d : Location) : Prop where
  rooted : t.Rooted
  dir : t.get? d = some .dir
  empty : ∀ c, t.get? (d ++ [c]) = none
  leads : ∀ follow, ∃ links, ∀ rest, rest ≠ [] →
    t.walk follow maxLinks [] (p ++ rest) = t.walk follow links d rest

/-- Nothing but the missing place of a name is found in an empty directory. -/
theorem LeadsToEmpty.eq_of_locate {d : Location} (h : t.LeadsToEmpty p d) {c : String}
    (hc : Plain c) {follow : Bool} {f : Found} (hlocate : t.locate follow (p ++ [c]) = .ok f) :
    f = ⟨d ++ [c], none⟩ := by
  obtain ⟨links, hleads⟩ := h.leads follow
  have hwalk := walk_of_locate hlocate
  rw [hleads [c] (List.cons_ne_nil c []), walk_cons] at hwalk
  rcases step_of_plain t d hc with hstep | hstep
  · simp only [hstep] at hwalk
    cases hwalk
  · simp only [hstep, h.empty c, Step.ofEntry] at hwalk
    exact (Except.ok.inj hwalk).symm

/-- A path that led to nothing leads to an empty directory once one is made. -/
theorem leadsToEmpty_put (h : t.Rooted) (hlocate : t.locate false p = .ok ⟨q, none⟩) :
    (t.put q .dir).LeadsToEmpty p q := by
  have hq : t.get? q = none := get?_of_locate hlocate
  have hne : q ≠ [] := ne_root_of_get?_ne (by rw [hq]; rintro ⟨⟩)
  have hcontinues (follow : Bool) :=
    walk_continues h follow (get?_root t) hq (walk_of_locate hlocate)
  refine ⟨h.put hq (hcontinues true).parent, get?_put_self hne .dir, fun c => ?_,
    fun follow => (hcontinues follow).lookup⟩
  rw [get?_put, if_neg (List.concat_ne_nil c q),
    if_neg fun heq => List.cons_ne_nil c [] (List.append_right_eq_self.mp heq)]
  exact h.get?_eq_none hq (List.prefix_append q [c])

/-! ### Missing directories -/

/-- Of a path and the directories on the way to it, one is missing at a location, and those after
it are not to be found because of it. -/
inductive MissingFrom (t : FileTree) (q : Location) : Path → Prop
  | here {p : Path} (hlocate : t.locate false p = .ok ⟨q, none⟩) : MissingFrom t q p
  | above {p : Path} {c : String} (hlocate : t.locate false (p ++ [c]) = .error .notFound)
      (hmissing : MissingFrom t q p) : MissingFrom t q (p ++ [c])

theorem locate_nil (t : FileTree) (follow : Bool) : t.locate follow [] = .ok ⟨[], some .dir⟩ := by
  cases follow <;> rfl

theorem not_missingFrom_nil (t : FileTree) (q : Location) : ¬ t.MissingFrom q [] := by
  intro h
  generalize hp : ([] : Path) = p at h
  cases h with
  | here hlocate =>
    rw [← hp, locate_nil] at hlocate
    cases hlocate
  | above => exact List.concat_ne_nil _ _ hp.symm

/-- What is missing is not there. -/
theorem MissingFrom.get?_eq_none (h : t.MissingFrom q p) : t.get? q = none := by
  induction h with
  | here hlocate => exact get?_of_locate hlocate
  | above _ _ ih => exact ih

/-- A directory is made where looking its path up ends at a missing place. -/
theorem exists_of_makeDir (hmake : t.makeDir p = .ok t') :
    ∃ q, t.locate false p = .ok ⟨q, none⟩ ∧ t' = t.put q .dir := by
  unfold makeDir at hmake
  split at hmake
  · cases hmake
  · rename_i q hlocate
    exact ⟨q, hlocate, (Except.ok.inj hmake).symm⟩
  · cases hmake

/-- A file is written where looking its path up ends, at a missing place or at a file. -/
theorem exists_of_write {content : Content} (hwrite : t.write p content = .ok t') :
    (∃ q, t.locateToWrite p = .ok ⟨q, none⟩ ∧ t' = t.put q (.file content Entry.fileMode)) ∨
      ∃ q found mode, t.locateToWrite p = .ok ⟨q, some (.file found mode)⟩ ∧
        t' = t.put q (.file content mode) := by
  unfold write at hwrite
  split at hwrite
  · cases hwrite
  · rename_i q hlocate
    exact Or.inl ⟨q, hlocate, (Except.ok.inj hwrite).symm⟩
  · rename_i q found mode hlocate
    exact Or.inr ⟨q, found, mode, hlocate, (Except.ok.inj hwrite).symm⟩
  · cases hwrite

theorem exists_of_isDir (hdir : t.isDir p) : ∃ d, t.locate true p = .ok ⟨d, some .dir⟩ := by
  unfold isDir stat at hdir
  split at hdir
  · rename_i found hstat
    obtain ⟨d, entry⟩ := found
    rw [decide_eq_true_eq] at hdir
    obtain rfl : entry = some .dir := hdir
    split at hstat
    · cases hstat
    · cases hstat
    · rename_i hlocate
      exact ⟨d, hlocate.trans hstat⟩
  · cases hdir

theorem makeDir_eq_notFound_iff :
    t.makeDir p = .error .notFound ↔ t.locate false p = .error .notFound := by
  unfold makeDir
  split <;> simp_all

/-- A directory that stands at the end of a path is not missing. -/
theorem makeDir_of_isDir (hdir : t.isDir p) : t.makeDir p = .error .alreadyExists := by
  obtain ⟨d, hlocate⟩ := exists_of_isDir hdir
  obtain ⟨l, e, hlocate⟩ := exists_locate_false hlocate
  rw [makeDir, hlocate]

end FileTree

namespace Files

open FileTree (SameOutside MissingFrom LeadsToEmpty)
open MeshNode.Path (Plain)

variable {t : FileTree} {p l root q : Location} {content : Bytes}

/-! ### Making directories -/

theorem run_makeDirs_of_isDir (hdir : t.isDir p) : run (makeDirs p) t = (.ok (), t) := by
  have hmake := FileTree.makeDir_of_isDir hdir
  rw [run_makeDirs]
  split
  · rfl
  · rw [if_neg (by rw [hmake]; rintro ⟨⟩), makeOne, hmake]
    simp [hdir]

/-- If no directory is missing, none is made. -/
theorem run_makeDirs_of_not_missing (h : ∀ q, ¬ t.MissingFrom q p) :
    (run (makeDirs p) t).2 = t ∧ ((run (makeDirs p) t).1 = .ok () → t.isDir p) := by
  -- Whatever is not missing is made neither at first nor after what leads to it.
  have hone {p : Path} (h : ∀ q, ¬ t.MissingFrom q p) :
      (makeOne p t).2 = t ∧ ((makeOne p t).1 = .ok () → t.isDir p) := by
    unfold makeOne
    cases hmake : t.makeDir p with
    | ok t' =>
      obtain ⟨q, hlocate, -⟩ := FileTree.exists_of_makeDir hmake
      exact absurd (.here hlocate) (h q)
    | error e => by_cases hdir : t.isDir p <;> simp [hdir]
  induction p using List.reverseRecOn with
  | nil =>
    rw [run_makeDirs, if_pos rfl]
    exact ⟨rfl, fun _ => rfl⟩
  | append_singleton p c ih =>
    rw [run_makeDirs, if_neg (List.concat_ne_nil c p),
      List.dropLast_concat]
    split
    · rename_i hmake
      obtain ⟨hsame, -⟩ := ih fun q hq =>
        h q (.above (FileTree.makeDir_eq_notFound_iff.mp hmake) hq)
      rcases hrun : run (makeDirs p) t with ⟨_ | ⟨⟩, t'⟩
      · rw [hrun] at hsame
        exact ⟨hsame, by rintro ⟨⟩⟩
      · rw [hrun] at hsame
        obtain rfl : t' = t := hsame
        exact hone h
    · exact hone h

/-- **Missing directories are made from the first missing one on.** If all of them are made, they
lead to an empty directory. -/
theorem run_makeDirs_of_missing (hrooted : t.Rooted) (hplain : ∀ c ∈ p, Plain c)
    (h : t.MissingFrom q p) :
    SameOutside q t (run (makeDirs p) t).2 ∧ (run (makeDirs p) t).2.get? q = some .dir ∧
      ((run (makeDirs p) t).1 = .ok () →
        ∃ d, q <+: d ∧ (run (makeDirs p) t).2.LeadsToEmpty p d) := by
  induction h with
  | @here p hlocate =>
    have hne : p ≠ [] := fun hnil => by
      rw [hnil, FileTree.locate_nil] at hlocate
      cases hlocate
    have hmake : t.makeDir p = .ok (t.put q .dir) := by rw [FileTree.makeDir, hlocate]
    have hempty := FileTree.leadsToEmpty_put hrooted hlocate
    rw [run_makeDirs, if_neg hne, if_neg (by rw [hmake]; rintro ⟨⟩), makeOne, hmake]
    exact ⟨FileTree.sameOutside_put t q .dir, hempty.dir,
      fun _ => ⟨q, List.prefix_refl q, hempty⟩⟩
  | @above p c hlocate _ ih =>
    -- What leads to the last directory has been made, or else it is all over; what was made is
    -- empty, so only the place of the last name in it can be found.
    obtain ⟨hsame, hdir, hleads⟩ := ih fun d hd => hplain d (List.mem_append_left _ hd)
    rw [run_makeDirs, if_neg (List.concat_ne_nil c p),
      if_pos (FileTree.makeDir_eq_notFound_iff.mpr hlocate), List.dropLast_concat]
    rcases hrun : run (makeDirs p) t with ⟨_ | ⟨⟩, t₁⟩
    · rw [hrun] at hsame hdir
      exact ⟨hsame, hdir, by rintro ⟨⟩⟩
    rw [hrun] at hsame hdir hleads
    obtain ⟨d, hqd, hempty⟩ := hleads rfl
    have hc : Plain c := hplain c (List.mem_append_right p List.mem_cons_self)
    simp only [makeOne]
    cases hmake : t₁.makeDir (p ++ [c]) with
    | ok t₂ =>
      obtain ⟨l, hlocate, rfl⟩ := FileTree.exists_of_makeDir hmake
      obtain ⟨rfl, -⟩ := Found.mk.inj (hempty.eq_of_locate hc hlocate)
      have hqd' : q <+: d ++ [c] := hqd.trans (List.prefix_append d [c])
      exact ⟨hsame.trans ((FileTree.sameOutside_put t₁ _ .dir).mono hqd'),
        FileTree.get?_put_of_some (hempty.empty c) hdir,
        fun _ => ⟨d ++ [c], hqd', FileTree.leadsToEmpty_put hempty.rooted hlocate⟩⟩
    | error e =>
      by_cases hdir' : t₁.isDir (p ++ [c])
      · obtain ⟨d', hlocate'⟩ := FileTree.exists_of_isDir hdir'
        cases hempty.eq_of_locate hc hlocate'
      · simp only [hdir']
        exact ⟨hsame, hdir, by rintro ⟨⟩⟩

end Files

namespace FileTree

variable {t : FileTree} {p : Path} {l root q : Location} {content : Bytes}

open MeshNode.Path (Plain)

/-! ### Placing files -/

/-- The first place that placing a file changes: the first missing directory on the way, or if
none is missing the file itself, unless it has the content already. -/
inductive FirstChange (t : FileTree) (l : Location) (content : Bytes) (q : Location) : Prop
  | dir (hmissing : t.MissingFrom q l.dropLast)
  | newFile (hdir : t.isDir l.dropLast) (hlocate : t.locateToWrite l = .ok ⟨q, none⟩)
  | oldFile (hdir : t.isDir l.dropLast) {found : Content} {mode : Nat}
      (hlocate : t.locateToWrite l = .ok ⟨q, some (.file found mode)⟩)
      (hne : found ≠ .bytes content)

/-- Along a straight way the missing directory is on the way. -/
theorem MissingFrom.prefix_of_straight (h : t.MissingFrom q p) (hstraight : t.Straight p)
    (hplain : ∀ c ∈ p, Plain c) : q <+: p := by
  induction h with
  | here hlocate =>
    obtain ⟨rfl, -⟩ := Found.mk.inj (locate_of_straight hstraight hplain hlocate)
    exact List.prefix_refl q
  | @above p c _ _ ih =>
    have hp : p <+: p ++ [c] := List.prefix_append p [c]
    exact (ih (hstraight.beginning hp) fun d hd => hplain d (hp.subset hd)).trans hp

/-- Along a straight way through a directory the first change is below the directory. -/
theorem FirstChange.below (h : t.FirstChange l content q) (hrooted : t.Rooted)
    (hroot : t.get? root = some .dir) (hbelow : root <+: l) (hstraight : t.Straight l)
    (hplain : ∀ c ∈ l, Plain c) : root <+: q := by
  cases h with
  | dir hmissing =>
    have hbegins := List.dropLast_prefix l
    have hq := (hmissing.prefix_of_straight (hstraight.beginning hbegins)
      fun c hc => hplain c (hbegins.subset hc)).trans hbegins
    refine (List.prefix_or_prefix_of_prefix hbelow hq).resolve_right fun hcontra => ?_
    have hnone := hmissing.get?_eq_none
    by_cases heq : q = root
    · rw [heq, hroot] at hnone
      cases hnone
    · rw [hrooted.get?_eq_dir hroot hcontra heq] at hnone
      cases hnone
  | newFile _ hlocate | oldFile _ hlocate _ =>
    obtain ⟨rfl, -⟩ := Found.mk.inj
      (locate_of_straight hstraight hplain (locate_of_locateToWrite hlocate))
    exact hbelow

/-- With its directory there, placing a file is only writing it. -/
theorem run_place_of_isDir (hdir : t.isDir l.dropLast) :
    Files.run (Files.place l content) t = Files.run (Files.writeBytes l content) t := by
  unfold Files.place
  rw [Files.run_bind, Files.run_makeDirs_of_isDir hdir]

/-- What is changed when a file is placed is at the first change and below it. -/
theorem FirstChange.run_place (hrooted : t.Rooted) (hplain : ∀ c ∈ l, Plain c)
    (h : t.FirstChange l content q) :
    SameOutside q t (Files.run (Files.place l content) t).2 ∧
      (Files.run (Files.place l content) t).2.get? q ≠ t.get? q := by
  cases h with
  | dir hmissing =>
    -- The file is written into a directory that has just been made, at a place below the change.
    have hq := hmissing.get?_eq_none
    obtain ⟨hsame, hdir, hleads⟩ := Files.run_makeDirs_of_missing hrooted
      (fun c hc => hplain c (List.dropLast_subset l hc)) hmissing
    unfold Files.place
    rw [Files.run_bind]
    rcases hrun : Files.run (Files.makeDirs l.dropLast) t with ⟨_ | ⟨⟩, t₁⟩
    · rw [hrun] at hsame hdir
      refine ⟨hsame, ?_⟩
      rw [hdir, hq]
      exact Option.some_ne_none _
    rw [hrun] at hsame hdir hleads
    obtain ⟨d, hqd, hempty⟩ := hleads rfl
    simp only [Files.run_writeBytes]
    cases hwrite : t₁.write l (.bytes content) with
    | error e =>
      refine ⟨hsame, ?_⟩
      rw [hdir, hq]
      exact Option.some_ne_none _
    | ok t₂ =>
      rcases List.eq_nil_or_concat l with rfl | ⟨p, c, rfl⟩
      · exact absurd hmissing (not_missingFrom_nil t q)
      rw [List.concat_eq_append, List.dropLast_concat] at hempty
      rw [List.concat_eq_append] at hwrite hplain
      have hc : Plain c := hplain c (List.mem_append_right p List.mem_cons_self)
      -- In an empty directory nothing but a missing place is found.
      rcases exists_of_write hwrite with ⟨k, hlocate, rfl⟩ | ⟨k, found, mode, hlocate, -⟩
      · obtain ⟨rfl, -⟩ := Found.mk.inj (hempty.eq_of_locate hc (locate_of_locateToWrite hlocate))
        refine ⟨hsame.trans ((sameOutside_put t₁ _ _).mono (hqd.trans (List.prefix_append d [c]))),
          ?_⟩
        rw [get?_put_of_some (hempty.empty c) hdir, hq]
        exact Option.some_ne_none _
      · cases hempty.eq_of_locate hc (locate_of_locateToWrite hlocate)
  | newFile hdir hlocate =>
    have hq : t.get? q = none := get?_of_locate (locate_of_locateToWrite hlocate)
    have hne : q ≠ [] := ne_root_of_get?_ne (by rw [hq]; rintro ⟨⟩)
    rw [run_place_of_isDir hdir, Files.run_writeBytes, write, hlocate]
    refine ⟨sameOutside_put t q _, ?_⟩
    rw [get?_put_self hne, hq]
    exact Option.some_ne_none _
  | @oldFile hdir found mode hlocate hcontent =>
    have hq : t.get? q = some (.file found mode) :=
      get?_of_locate (locate_of_locateToWrite hlocate)
    have hne : q ≠ [] := ne_root_of_get?_ne (by rw [hq]; rintro ⟨⟩)
    rw [run_place_of_isDir hdir, Files.run_writeBytes, write, hlocate]
    refine ⟨sameOutside_put t q _, ?_⟩
    rw [get?_put_self hne, hq]
    exact fun heq => hcontent (Entry.file.inj (Option.some.inj heq)).1.symm

/-- Without a first change nothing is changed. -/
theorem run_place_of_not_firstChange (h : ∀ q, ¬ t.FirstChange l content q) (k : Location) :
    (Files.run (Files.place l content) t).2.get? k = t.get? k := by
  obtain ⟨hsame, hway⟩ := Files.run_makeDirs_of_not_missing fun q hq => h q (.dir hq)
  unfold Files.place
  rw [Files.run_bind]
  rcases hrun : Files.run (Files.makeDirs l.dropLast) t with ⟨_ | ⟨⟩, t₁⟩
  · rw [hrun] at hsame
    obtain rfl : t₁ = t := hsame
    rfl
  rw [hrun] at hsame hway
  obtain rfl : t₁ = t := hsame
  simp only [Files.run_writeBytes]
  cases hwrite : t₁.write l (.bytes content) with
  | error e => rfl
  | ok t₂ =>
    rcases exists_of_write hwrite with ⟨q, hlocate, -⟩ | ⟨q, found, mode, hlocate, rfl⟩
    · exact absurd (.newFile (hway rfl) hlocate) (h q)
    · -- A file that is not changed first has the content already.
      have hfound : found = .bytes content :=
        not_not.mp fun hne => h q (.oldFile (hway rfl) hlocate hne)
      have hq : t₁.get? q = some (.file found mode) :=
        get?_of_locate (locate_of_locateToWrite hlocate)
      by_cases hk : k = q
      · have hne : q ≠ [] := ne_root_of_get?_ne (by rw [hq]; rintro ⟨⟩)
        rw [hk, get?_put_self hne, hq, hfound]
      · exact get?_put_of_ne t₁ hk _

/-- **Placing a file changes nothing outside a directory exactly if the first change is inside.** -/
theorem sameOutside_place_iff (hrooted : t.Rooted) (hplain : ∀ c ∈ l, Plain c) :
    SameOutside root t (Files.run (Files.place l content) t).2 ↔
      ∀ q, t.FirstChange l content q → root <+: q := by
  constructor
  · intro hsame q hq
    by_contra hbegins
    exact (hq.run_place hrooted hplain).2 (hsame q hbegins)
  · intro hinside
    by_cases hchange : ∃ q, t.FirstChange l content q
    · obtain ⟨q, hq⟩ := hchange
      exact (hq.run_place hrooted hplain).1.mono (hinside q hq)
    · exact fun k _ => run_place_of_not_firstChange (not_exists.mp hchange) k

end FileTree

end MeshNode
