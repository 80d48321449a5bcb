import MeshNode.Proofs.Files.Placing
import MeshNode.Proofs.Job.List
import MeshNode.Proofs.Job.Write

/-!
# What completed writes have done

A write that is completed has placed its file: at the location that its path resolves to there is a
file with the decoded content, the directories that were missing on the way to it are there, and
nothing else has changed. Its report tells the length and the hash of the content, and the path of
the file in the jail; by just that path a list of the whole jail names the file afterwards
(`execute_write_exact`).
-/

namespace MeshNode

namespace Job

open FileTree (maxPath Placed)

variable {jail : Jail} {t t' : FileTree} {content : Bytes}

/-- A write that succeeds comes to placing a file. -/
theorem exists_places_of_run_write {a : WriteArgs} {value : Json}
    (h : Files.run (write jail a) t = (.ok value, t')) : ∃ l content, Places jail t a l content := by
  unfold write at h
  cases hdecode : Base64.Dialect.file.decode (.ofText (Text.trim a.content)) with
  | error e =>
    rw [hdecode] at h
    cases h
  | ok content =>
    simp only [hdecode, Files.run_bind, Files.run_inspect] at h
    cases hresolve : jail.resolve t a.path with
    | error e =>
      rw [hresolve] at h
      cases h
    | ok l =>
      simp only [hresolve] at h
      by_cases hroot : l = jail.root
      · rw [if_pos hroot] at h
        cases h
      · exact ⟨l, content, hdecode, hresolve, hroot⟩

/-- A write that is completed has placed a file, and reports it. -/
theorem exists_of_write_completed {args : Json} {a : WriteArgs}
    (hargs : readArgs .write WriteArgs.decoder args = .ok a) {timeoutMillis : Nat}
    {nowMillis : Int} {value : Json}
    (hexecute : execute jail "write" args timeoutMillis nowMillis t = (.completed value, t')) :
    ∃ l content, Places jail t a l content ∧
      Files.run (Files.place l content) t = (.ok (), t') ∧
      value = .obj [("bytes_written", .nat content.length), ("path", .str (jail.shown l)),
        ("sha256", .str (Digest.ofContent content))] := by
  rw [execute_write_of_args hargs, outcome] at hexecute
  rcases hrun : Files.run (write jail a) t with ⟨e | value', t₁⟩
  · rw [hrun] at hexecute
    cases hexecute
  rw [hrun] at hexecute
  obtain ⟨hvalue, rfl⟩ := Prod.mk.inj hexecute
  obtain rfl := JobOutcome.completed.inj hvalue
  obtain ⟨l, content, hplaces⟩ := exists_places_of_run_write hrun
  refine ⟨l, content, hplaces, ?_⟩
  rw [hplaces.run_write] at hrun
  rcases hplace : Files.run (Files.place l content) t with ⟨e | ⟨⟩, t₂⟩
  · rw [hplace] at hrun
    cases hrun
  · rw [hplace] at hrun
    obtain ⟨hreport, rfl⟩ := Prod.mk.inj hrun
    exact ⟨rfl, (Except.ok.inj hreport).symm⟩

/-- A file that is placed in the jail is named by a list of the whole jail. -/
theorem execute_list_of_placed (hproper : t'.Proper) {names : List String} (hne : names ≠ [])
    (hplaced : Placed t t' (jail.root ++ names) content)
    (hdirs : ∀ l, jail.root <+: l → t.get? l = some .dir → Path.byteLength l ≤ maxPath)
    {args : Json} {a : ListArgs} (hargs : readArgs .list ListArgs.decoder args = .ok a)
    (hroot : Jail.normalize a.root = some []) (hpatterns : a.patterns = [])
    (hrecursive : a.recursive = true) (timeoutMillis : Nat) (nowMillis : Int) :
    ∃ count entries root, execute jail "list" args timeoutMillis nowMillis t' =
      (.completed (.obj [("count", count), ("entries", .arr entries), ("root", root)]), t') ∧
      .str ("/".intercalate names) ∈ entries := by
  have hbelow : jail.root <+: jail.root ++ names := List.prefix_append _ _
  have hdir : t'.get? jail.root = some .dir := hplaced.dirs _ hbelow fun heq =>
    hne (List.append_right_eq_self.mp heq.symm)
  -- The directories that were made are on the way to the file, and so no longer than its path.
  have hdirs' : ∀ l, jail.root <+: l → t'.get? l = some .dir → Path.byteLength l ≤ maxPath := by
    intro l hl hdir
    by_cases hway : l <+: jail.root ++ names
    · obtain ⟨rest, hrest⟩ := hway
      exact (Path.byteLength_le_append l rest).trans (hrest ▸ hplaced.short)
    · have hfile : l ≠ jail.root ++ names := by
        rintro rfl
        exact hway (List.prefix_refl _)
      rw [hplaced.others l hfile, if_neg fun hcontra => hway hcontra.1] at hdir
      exact hdirs l hl hdir
  have hresolve := Jail.resolve_root hproper.toWellFormed hdir
    (hdirs' _ (List.prefix_refl _) hdir) hroot
  have hmatch : a.patterns.mapM readPattern = .ok [] := by
    rw [hpatterns]
    rfl
  obtain ⟨found, hexecute, hmem, -⟩ := execute_list_of_dir hproper hargs hmatch hresolve hdir hdirs'
    timeoutMillis nowMillis
  refine ⟨_, _, _, hexecute, List.mem_map.mpr ⟨names, (hmem names).mpr ⟨?_, Or.inl rfl⟩, rfl⟩⟩
  obtain ⟨mode, hfile, -⟩ := hplaced.file
  rw [hrecursive]
  exact hproper.rooted.listed_true_iff.mpr ⟨hne, _, hfile⟩

/-- **A completed write did what it reports.** The decoded content is in a file at the location that
the path resolves to. Directories stand where they were missing on the way to it, and everything
else is as it was. The report tells the length and the hash of the content and where the file is in
the jail, and a list of the whole jail, however it is asked for, names the file by the same path. -/
theorem execute_write_exact (hproper : t.Proper)
    (hjail : ∀ c ∈ jail.root, Path.Plain c ∧ '/' ∉ c.toList) {args : Json} {a : WriteArgs}
    (hargs : readArgs .write WriteArgs.decoder args = .ok a)
    (hshort : ∀ names, Jail.normalize a.path = some names →
      Path.byteLength (jail.root ++ names) ≤ maxPath)
    (hdirs : ∀ l, jail.root <+: l → t.get? l = some .dir → Path.byteLength l ≤ maxPath)
    {timeoutMillis : Nat} {nowMillis : Int} {value : Json}
    (hexecute : execute jail "write" args timeoutMillis nowMillis t = (.completed value, t')) :
    ∃ names content,
      jail.resolve t a.path = .ok (jail.root ++ names) ∧
      Base64.Dialect.file.decode (.ofText (Text.trim a.content)) = .ok content ∧
      value = .obj [("bytes_written", .nat content.length), ("path", .str ("/".intercalate names)),
        ("sha256", .str (Sha256.hash content).toHex)] ∧
      (∃ mode, t'.get? (jail.root ++ names) = some (.file (.bytes content) mode)) ∧
      (∀ k, k ≠ jail.root ++ names → t'.get? k =
        if k <+: jail.root ++ names ∧ t.get? k = none then some .dir else t.get? k) ∧
      ∀ (listArgs : Json) (b : ListArgs) (timeoutMillis : Nat) (nowMillis : Int),
        readArgs .list ListArgs.decoder listArgs = .ok b → Jail.normalize b.root = some [] →
        b.patterns = [] → b.recursive = true →
        ∃ count entries root, execute jail "list" listArgs timeoutMillis nowMillis t' =
          (.completed (.obj [("count", count), ("entries", .arr entries), ("root", root)]), t') ∧
          .str ("/".intercalate names) ∈ entries := by
  obtain ⟨l, content, hplaces, hrun, rfl⟩ := exists_of_write_completed hargs hexecute
  obtain ⟨dots, -, hdots, -, -, names, rfl⟩ := Jail.exists_of_resolve hplaces.resolve
  have hne : names ≠ [] := fun hnil => hplaces.ne_root (by rw [hnil, List.append_nil])
  -- The way is straight: a path that stands for the jail would have come to the jail itself.
  have hplain := Jail.plain_of_resolve_of_plain hproper.toWellFormed (fun c hc => (hjail c hc).1)
    hplaces.resolve
  have hstraight := Jail.straight_of_resolve_of_counts hproper.toWellFormed hdots
    (fun hcontra => hplaces.ne_root
      (Jail.eq_root_of_resolve hproper.toWellFormed (hcontra.1 ▸ hdots) hplaces.resolve))
    (hshort dots hdots) hplaces.resolve
  have hplaced := FileTree.placed_of_run hproper.rooted hstraight hplain hrun
  have hproper' := hplaced.proper hproper
    (Jail.slash_of_resolve hproper (fun c hc => (hjail c hc).2) hplaces.resolve)
  obtain ⟨mode, hfile, -⟩ := hplaced.file
  refine ⟨names, content, hplaces.resolve, hplaces.decode, ?_, ⟨mode, hfile⟩, hplaced.others, ?_⟩
  · rw [Jail.shown, Path.textBelow_append]
    rfl
  · intro listArgs b timeoutMillis nowMillis hlist hroot hpatterns hrecursive
    exact execute_list_of_placed hproper' hne hplaced hdirs hlist hroot hpatterns hrecursive
      timeoutMillis nowMillis

section Pen

/-- A jail with a directory and a link to it. -/
private def pen : FileTree :=
  ⟨[(["jail"], .dir), (["jail", "sub"], .dir), (["jail", "to"], .link "sub")]⟩

private theorem proper_pen : pen.Proper := by
  refine FileTree.WellFormed.proper (FileTree.wellFormed_of_forall_mem ?_) ?_ <;> decide

private theorem places_pen : Places ⟨["jail"]⟩ pen ⟨"to/new/x", "aGVsbG8="⟩
    ["jail", "sub", "new", "x"] (.ofText "hello") := by
  have hexisting : (Jail.mk ["jail"]).existingInside pen ["to", "new", "x"] =
      (["jail", "to"], ["new", "x"]) := by
    have hto : Jail.existingPart pen ["jail", "to"] = (["jail", "to"], []) :=
      Jail.existingPart_of_hasEntry (by decide)
    have hnew := Jail.existingPart_concat pen ["jail", "to"] "new"
    have hx := Jail.existingPart_concat pen ["jail", "to", "new"] "x"
    rw [if_neg (by decide), hto] at hnew
    rw [if_neg (by decide)] at hx
    rw [Jail.existingInside_eq (by decide)]
    refine hx.trans ?_
    rw [show ["jail", "to", "new"] = ["jail", "to"] ++ ["new"] from rfl, hnew]
    rfl
  have hfound : pen.realLocation ["jail", "to"] = .ok ["jail", "sub"] := by decide
  have hnames : Jail.normalize "to/new/x" = some ["to", "new", "x"] := by decide
  exact ⟨by decide, Jail.resolve_of_existing hnames hexisting hfound (by decide) (by decide),
    by decide⟩

/-- A write through a link reports where the file really is, and a list finds it there. -/
theorem execute_write_exact_through_link : ∃ value t',
    execute ⟨["jail"]⟩ "write"
      (.obj [("content_b64", .str "aGVsbG8="), ("path", .str "to/new/x")]) 1000 0 pen =
        (.completed value, t') ∧
    (∃ mode, t'.get? ["jail", "sub", "new", "x"] = some (.file (.bytes (.ofText "hello")) mode)) ∧
    t'.get? ["jail", "sub", "new"] = some .dir ∧
    ∃ count entries root,
      execute ⟨["jail"]⟩ "list" (.obj [("recursive", .bool true)]) 1000 0 t' =
        (.completed (.obj [("count", count), ("entries", .arr entries), ("root", root)]), t') ∧
      .str "sub/new/x" ∈ entries := by
  let args : Json := .obj [("content_b64", .str "aGVsbG8="), ("path", .str "to/new/x")]
  have hargs : readArgs .write WriteArgs.decoder args = .ok ⟨"to/new/x", "aGVsbG8="⟩ := rfl
  obtain ⟨t', hrun⟩ : ∃ t', Files.run (Files.place ["jail", "sub", "new", "x"] (.ofText "hello"))
      pen = (.ok (), t') := by
    have hmake : Files.run (Files.makeDirs ["jail", "sub", "new"]) pen =
        (.ok (), pen.put ["jail", "sub", "new"] .dir) := by
      rw [Files.run_makeDirs, if_neg (by decide), if_neg (by decide)]
      rfl
    simp only [Files.place, Files.run_bind, List.dropLast, hmake, Files.run_writeBytes]
    exact ⟨_, rfl⟩
  obtain ⟨value, hexecute⟩ : ∃ value,
      execute ⟨["jail"]⟩ "write" args 1000 0 pen = (.completed value, t') := by
    rw [execute_write_of_args hargs, outcome, places_pen.run_write, hrun]
    exact ⟨_, rfl⟩
  have hshort : ∀ names, Jail.normalize "to/new/x" = some names →
      Path.byteLength (["jail"] ++ names) ≤ maxPath := by
    intro names hnames
    have hdots : Jail.normalize "to/new/x" = some ["to", "new", "x"] := by decide
    obtain rfl := Option.some.inj (hdots.symm.trans hnames)
    decide
  have hdirs : ∀ l, ["jail"] <+: l → pen.get? l = some .dir → Path.byteLength l ≤ maxPath := by
    intro l hl hdir
    have hentries : ∀ x ∈ pen.entries, Path.byteLength x.1 ≤ maxPath := by decide
    refine hentries _ (FileTree.mem_entries_of_get? ?_ hdir)
    rintro rfl
    cases List.prefix_nil.mp hl
  obtain ⟨names, content, hresolve, hdecode, -, hfile, hothers, hlist⟩ :=
    execute_write_exact proper_pen (by decide) hargs hshort hdirs hexecute
  obtain rfl : ["sub", "new", "x"] = names := by
    simpa using Except.ok.inj (places_pen.resolve.symm.trans hresolve)
  obtain rfl := Except.ok.inj (places_pen.decode.symm.trans hdecode)
  refine ⟨value, t', hexecute, hfile, ?_, hlist _ ⟨".", [], true⟩ 1000 0 rfl (by decide) rfl rfl⟩
  rw [hothers _ (by decide), if_pos (by decide)]

end Pen

end Job

end MeshNode
