import MeshNode.Proofs.Files.Operations

/-!
# Placing files along straight ways

Where no link stands on the way to a location, making the directories on the way turns every missing
place of it into a directory and changes nothing else (`MadeWay`). Placing a file there then changes
the location itself and nothing more (`Placed`), and what was well-formed stays so: the names on the
way are names, since they have been looked up.
-/

namespace MeshNode

namespace FileTree

open MeshNode.Path (Plain IsName)

variable {t t' t'' : FileTree} {p l : Location} {content : Bytes}

/-! ### Making the way -/

/-- The directories that were missing on the way to a location have been made, and nothing else. -/
structure MadeWay (t t' : FileTree) (p : Location) : Prop where
  way : ∀ k, k <+: p → (t.get? k = none ∨ t.get? k = some .dir) ∧ t'.get? k = some .dir
  frame : ∀ k, ¬ k <+: p → t'.get? k = t.get? k

/-- No way has to be made to a directory. -/
theorem Rooted.madeWay_refl (h : t.Rooted) (hp : t.get? p = some .dir) : MadeWay t t p := by
  have hdir (k : Location) (hk : k <+: p) : t.get? k = some .dir := by
    by_cases heq : k = p
    · exact heq ▸ hp
    · exact h.get?_eq_dir hp hk heq
  exact ⟨fun k hk => ⟨Or.inr (hdir k hk), hdir k hk⟩, fun _ _ => rfl⟩

theorem MadeWay.rooted (h : MadeWay t t' p) (hrooted : t.Rooted) : t'.Rooted := by
  intro k c e he
  by_cases hbegins : k <+: p
  · exact (h.way k hbegins).2
  · have hlonger : ¬ k ++ [c] <+: p := fun hk => hbegins ((List.prefix_append k [c]).trans hk)
    rw [h.frame _ hlonger] at he
    rw [h.frame k hbegins]
    exact hrooted k c e he

/-- A way stays straight when a part of it is made. -/
theorem MadeWay.straight (h : MadeWay t t' p) (hstraight : t.Straight l) : t'.Straight l := by
  intro k hk target
  by_cases hbegins : k <+: p
  · rw [(h.way k hbegins).2]
    rintro ⟨⟩
  · rw [h.frame k hbegins]
    exact hstraight k hk target

/-- A way is made up to some place and then one name further. -/
theorem MadeWay.concat {c : String} (h : MadeWay t t' p) (h' : MadeWay t' t'' (p ++ [c])) :
    MadeWay t t'' (p ++ [c]) := by
  refine ⟨fun k hk => ⟨?_, (h'.way k hk).2⟩, fun k hk => ?_⟩
  · by_cases hbegins : k <+: p
    · exact (h.way k hbegins).1
    · rw [← h.frame k hbegins]
      exact (h'.way k hk).1
  · rw [h'.frame k hk, h.frame k fun hbegins => hk (hbegins.trans (List.prefix_append p [c]))]

/-- A directory is made along a straight way in a directory, or is there already. -/
theorem madeWay_of_makeOne (hrooted : t.Rooted) {c : String} (hstraight : t.Straight (p ++ [c]))
    (hplain : ∀ d ∈ p ++ [c], Plain d) (h : Files.makeOne (p ++ [c]) t = (.ok (), t')) :
    MadeWay t t' (p ++ [c]) := by
  unfold Files.makeOne at h
  cases hmake : t.makeDir (p ++ [c]) with
  | ok t₁ =>
    rw [hmake] at h
    obtain rfl : t₁ = t' := congrArg Prod.snd h
    obtain ⟨q, hlocate, rfl⟩ := exists_of_makeDir hmake
    obtain ⟨rfl, hq⟩ := Found.mk.inj (locate_of_straight hstraight hplain hlocate)
    have hparent := (walk_continues hrooted true (get?_root t) hq.symm
      (walk_of_locate hlocate)).parent
    rw [List.dropLast_concat] at hparent
    refine ⟨fun k hk => ?_, fun k hk => get?_put_of_ne t (by rintro rfl; exact hk (List.prefix_refl _)) _⟩
    rcases List.prefix_concat_iff.mp hk with rfl | hk
    · exact ⟨Or.inl hq.symm, get?_put_self (List.concat_ne_nil c p) _⟩
    · have hdir := ((hrooted.madeWay_refl hparent).way k hk).2
      exact ⟨Or.inr hdir, get?_put_of_some hq.symm hdir⟩
  | error e =>
    rw [hmake] at h
    by_cases hdir : t.isDir (p ++ [c]) = true
    · simp only [hdir, if_true] at h
      obtain rfl : t = t' := congrArg Prod.snd h
      obtain ⟨d, hlocate⟩ := exists_of_isDir hdir
      obtain ⟨rfl, hd⟩ := Found.mk.inj (locate_of_straight hstraight hplain hlocate)
      exact hrooted.madeWay_refl hd.symm
    · simp only [hdir] at h
      cases congrArg Prod.fst h

/-- **Making directories along a straight way makes those that are missing**, if it succeeds. -/
theorem madeWay_of_run (hrooted : t.Rooted) (hstraight : t.Straight p) (hplain : ∀ c ∈ p, Plain c)
    (h : Files.run (Files.makeDirs p) t = (.ok (), t')) : MadeWay t t' p := by
  induction p using List.reverseRecOn generalizing t' with
  | nil =>
    rw [Files.run_makeDirs, if_pos rfl] at h
    obtain rfl : t = t' := congrArg Prod.snd h
    exact hrooted.madeWay_refl (get?_root t)
  | append_singleton p c ih =>
    rw [Files.run_makeDirs, if_neg (List.concat_ne_nil c p), List.dropLast_concat] at h
    split at h
    · rcases hrun : Files.run (Files.makeDirs p) t with ⟨_ | ⟨⟩, t₁⟩
      · rw [hrun] at h
        cases congrArg Prod.fst h
      · rw [hrun] at h
        have hbegins : p <+: p ++ [c] := List.prefix_append p [c]
        have hway := ih (hstraight.beginning hbegins) (fun d hd => hplain d (hbegins.subset hd)) hrun
        exact hway.concat
          (madeWay_of_makeOne (hway.rooted hrooted) (hway.straight hstraight) hplain h)
    · exact madeWay_of_makeOne hrooted hstraight hplain h

/-! ### Placing a file -/

/-- A file has been placed at a location: it holds the content, the directories that were missing on
the way to it have been made, and nothing else has changed. A new file has the permissions of new
files, and one that was there keeps its own. -/
structure Placed (t t' : FileTree) (l : Location) (content : Bytes) : Prop where
  isName : ∀ c ∈ l, IsName c
  short : Path.byteLength l ≤ maxPath
  file : ∃ mode, t'.get? l = some (.file (.bytes content) mode) ∧
    (t.get? l = none ∧ mode = Entry.fileMode ∨ ∃ found, t.get? l = some (.file found mode))
  others : ∀ k, k ≠ l →
    t'.get? k = if k <+: l ∧ t.get? k = none then some .dir else t.get? k
  dirs : ∀ k, k <+: l → k ≠ l → t'.get? k = some .dir

/-- A file is written along a straight way at its end, where a file or nothing was. -/
theorem exists_of_write_straight (hstraight : t.Straight l) (hplain : ∀ c ∈ l, Plain c)
    {content : Content} (hwrite : t.write l content = .ok t') :
    (∀ c ∈ l, IsName c) ∧ Path.byteLength l ≤ maxPath ∧ ∃ mode,
      (t.get? l = none ∧ mode = Entry.fileMode ∨ ∃ found, t.get? l = some (.file found mode)) ∧
      t' = t.put l (.file content mode) := by
  rcases exists_of_write hwrite with ⟨q, hlocate, rfl⟩ | ⟨q, found, mode, hlocate, rfl⟩
  · obtain ⟨hfound, hnames, hshort⟩ :=
      of_locate_straight hstraight hplain (locate_of_locateToWrite hlocate)
    obtain ⟨rfl, hnone⟩ := Found.mk.inj hfound
    exact ⟨hnames, hshort, _, Or.inl ⟨hnone.symm, rfl⟩, rfl⟩
  · obtain ⟨hfound, hnames, hshort⟩ :=
      of_locate_straight hstraight hplain (locate_of_locateToWrite hlocate)
    obtain ⟨rfl, hfile⟩ := Found.mk.inj hfound
    exact ⟨hnames, hshort, mode, Or.inr ⟨found, hfile.symm⟩, rfl⟩

/-- **Placing a file along a straight way** makes the way and the file, if it succeeds. -/
theorem placed_of_run (hrooted : t.Rooted) (hstraight : t.Straight l) (hplain : ∀ c ∈ l, Plain c)
    (h : Files.run (Files.place l content) t = (.ok (), t')) : Placed t t' l content := by
  rw [Files.place, Files.run_bind] at h
  rcases hrun : Files.run (Files.makeDirs l.dropLast) t with ⟨_ | ⟨⟩, t₁⟩
  · rw [hrun] at h
    cases congrArg Prod.fst h
  rw [hrun] at h
  simp only [Files.run_writeBytes] at h
  cases hwrite : t₁.write l (.bytes content) with
  | error e =>
    rw [hwrite] at h
    cases congrArg Prod.fst h
  | ok t₂ =>
    rw [hwrite] at h
    obtain rfl : t₂ = t' := congrArg Prod.snd h
    have hbegins := List.dropLast_prefix l
    have hway := madeWay_of_run hrooted (hstraight.beginning hbegins)
      (fun c hc => hplain c (hbegins.subset hc)) hrun
    obtain ⟨hnames, hshort, mode, hfound, rfl⟩ :=
      exists_of_write_straight (hway.straight hstraight) hplain hwrite
    have hne : l ≠ [] := by
      rintro rfl
      rcases hfound with ⟨hnone, -⟩ | ⟨found, hfile⟩
      · cases hnone
      · cases hfile
    -- The file is not on the way that was made to it.
    have hdropLast {k : Location} (hk : k ≠ l) : k <+: l.dropLast ↔ k <+: l := by
      obtain ⟨p, c, rfl⟩ := List.eq_nil_or_concat l |>.resolve_left hne
      rw [List.concat_eq_append, List.dropLast_concat, List.prefix_concat_iff, or_iff_right]
      rwa [List.concat_eq_append] at hk
    have hlast : ¬ l <+: l.dropLast := fun hl => by
      have hlength := hl.length_le
      rw [List.length_dropLast] at hlength
      exact hne (List.eq_nil_of_length_eq_zero (by omega))
    refine ⟨hnames, hshort, ⟨mode, get?_put_self hne _, ?_⟩, fun k hk => ?_, fun k hk hkl => ?_⟩
    · rwa [hway.frame l hlast] at hfound
    · rw [get?_put_of_ne t₁ hk]
      by_cases hkl : k <+: l
      · obtain ⟨hbefore, hafter⟩ := hway.way k ((hdropLast hk).mpr hkl)
        rcases hbefore with hbefore | hbefore <;> simp [hkl, hbefore, hafter]
      · rw [if_neg fun hcontra => hkl hcontra.1, hway.frame k (mt (hdropLast hk).mp hkl)]
    · rw [get?_put_of_ne t₁ hkl]
      exact (hway.way k ((hdropLast hkl).mpr hk)).2

/-- A well-formed tree is well-formed after a file has been placed in it. -/
theorem Placed.wellFormed (h : Placed t t' l content) (hformed : t.WellFormed) :
    t'.WellFormed := by
  -- What is new is on the way to the file, and what is old stands and is called as it was.
  have hentry (k : Location) (c : String) (e : Entry) (he : t'.get? (k ++ [c]) = some e) :
      t'.get? k = some .dir ∧ IsName c := by
    by_cases hway : k ++ [c] <+: l
    · have hbegins : k <+: l := (List.prefix_append k [c]).trans hway
      have hne : k ≠ l := by
        rintro rfl
        have hlength := hway.length_le
        rw [List.length_append, List.length_singleton] at hlength
        omega
      exact ⟨h.dirs k hbegins hne, h.isName c (hway.subset (by simp))⟩
    · have hne : k ++ [c] ≠ l := fun heq => hway (heq ▸ List.prefix_refl _)
      rw [h.others _ hne, if_neg fun hcontra => hway hcontra.1] at he
      have hdir := hformed.rooted k c e he
      refine ⟨?_, hformed.name k c e he⟩
      by_cases heq : k = l
      · obtain ⟨mode, -, ⟨hnone, -⟩ | ⟨found, hfile⟩⟩ := h.file
        · rw [heq, hnone] at hdir
          cases hdir
        · rw [heq, hfile] at hdir
          cases hdir
      · rw [h.others k heq, hdir]
        simp
  exact ⟨fun k c e he => (hentry k c e he).1, fun k c e he => (hentry k c e he).2⟩

/-- A proper tree is proper after a file has been placed in it, if no name on the way holds a
slash. -/
theorem Placed.proper (h : Placed t t' l content) (hproper : t.Proper)
    (hslash : ∀ c ∈ l, '/' ∉ c.toList) : t'.Proper := by
  refine ⟨h.wellFormed hproper.toWellFormed, fun k c e he => ?_⟩
  by_cases hway : k ++ [c] <+: l
  · exact hslash c (hway.subset (by simp))
  · have hne : k ++ [c] ≠ l := fun heq => hway (heq ▸ List.prefix_refl _)
    rw [h.others _ hne, if_neg fun hcontra => hway hcontra.1] at he
    exact hproper.slash k c e he

end FileTree

end MeshNode
