import MeshNode.Job.Execution
import MeshNode.Proofs.Files.Listing
import MeshNode.Proofs.Files.Operations
import MeshNode.Proofs.Jail
import MeshNode.Proofs.Text

/-!
# What lists answer

A list of a directory answers with the paths of the entries in it, or of all that is reached from it
through directories, those that no pattern matches left out. It is sorted by the bytes of the paths,
and since no name holds a slash, different entries have different paths (`exists_entries_eq`). What
is not a directory, or not there, is not listed at all. In neither case is anything changed
(`execute_list_exact`).
-/

namespace MeshNode

namespace Job

open FileTree (maxPath Listed)

variable {t : FileTree} {d : Location} {recursive : Bool} {patterns : List (List Glob.Token)}

/-- Without patterns every entry is asked for, else those of which one matches the path or the
name. -/
def Matching (patterns : List (List Glob.Token)) (names : List String) : Prop :=
  patterns = [] ∨ ∃ p ∈ patterns, Glob.matches? p ("/".intercalate names) = true ∨
    ∃ name, names.getLast? = some name ∧ Glob.matches? p name = true

theorem wanted_iff {names : List String} (hne : names ≠ []) :
    wanted patterns ("/".intercalate names) (d ++ names) = true ↔ Matching patterns names := by
  have hlast : (d ++ names).getLast? = names.getLast? := List.getLast?_append_of_ne_nil d hne
  obtain ⟨name, hname⟩ := Option.ne_none_iff_exists'.mp (mt List.getLast?_eq_none_iff.mp hne)
  simp [wanted, Matching, hlast, hname]

/-- **The entries of a list** are those that are reached and asked for, each once and in the order
of the bytes of their paths. -/
theorem exists_entries_eq (hproper : t.Proper) (hdir : t.get? d = some .dir)
    (hshort : ∀ l, d <+: l → t.get? l = some .dir → Path.byteLength l ≤ maxPath)
    (recursive : Bool) (patterns : List (List Glob.Token)) : ∃ found : List (List String),
      entries t d recursive patterns = .ok (found.map ("/".intercalate ·)) ∧
      (∀ names, names ∈ found ↔ t.Listed d recursive names ∧ Matching patterns names) ∧
      (found.map fun names => Bytes.ofText ("/".intercalate names)).Pairwise (· < ·) := by
  obtain ⟨texts, hentries, hordered, hmem⟩ : ∃ texts : List String,
      entries t d recursive patterns = .ok texts ∧ texts.Pairwise (· < ·) ∧
      ∀ text, text ∈ texts ↔ ∃ names, text = "/".intercalate names ∧
        t.Listed d recursive names ∧ Matching patterns names := by
    rw [entries, hproper.pathsWithin_eq hdir hshort]
    refine ⟨_, rfl, NameSet.pairwise_ofList _, fun text => ?_⟩
    rw [NameSet.mem_ofList, List.mem_filterMap]
    constructor
    · rintro ⟨l, hl, htext⟩
      obtain ⟨names, rfl, hlisted⟩ := hproper.rooted.mem_belowWithin_iff_listed.mp hl
      simp only [Path.textBelow_append] at htext
      split_ifs at htext with hwanted
      obtain rfl := Option.some.inj htext
      exact ⟨names, rfl, hlisted, (wanted_iff hlisted.exists_entry.1).mp hwanted⟩
    · rintro ⟨names, rfl, hlisted, hmatching⟩
      refine ⟨d ++ names, hproper.rooted.mem_belowWithin_iff_listed.mpr ⟨names, rfl, hlisted⟩, ?_⟩
      simp only [Path.textBelow_append]
      rw [if_pos ((wanted_iff hlisted.exists_entry.1).mpr hmatching)]
  -- The names of an entry are read off its path.
  have hpieces {names : List String} (hlisted : t.Listed d recursive names) :
      Path.pieces ("/".intercalate names) = names := by
    obtain ⟨hne, e, he⟩ := hlisted.exists_entry
    exact Path.pieces_intercalate hne fun c hc =>
      hproper.slash_of_mem he (List.mem_append_right d hc)
  have htext : (texts.map Path.pieces).map ("/".intercalate ·) = texts := by
    rw [List.map_map]
    refine (List.map_congr_left fun text htext => ?_).trans (List.map_id texts)
    obtain ⟨names, rfl, hlisted, -⟩ := (hmem text).mp htext
    exact congrArg _ (hpieces hlisted)
  refine ⟨texts.map Path.pieces, by rw [htext, hentries], fun names => ?_, ?_⟩
  · rw [List.mem_map]
    constructor
    · rintro ⟨text, htext, rfl⟩
      obtain ⟨names, rfl, hlisted, hmatching⟩ := (hmem text).mp htext
      rw [hpieces hlisted]
      exact ⟨hlisted, hmatching⟩
    · rintro ⟨hlisted, hmatching⟩
      exact ⟨_, (hmem _).mpr ⟨names, rfl, hlisted, hmatching⟩, hpieces hlisted⟩
  · have hmap : (texts.map Path.pieces).map (fun names => Bytes.ofText ("/".intercalate names)) =
        texts.map Bytes.ofText := by
      rw [← congrArg (List.map Bytes.ofText) htext, List.map_map, List.map_map, List.map_map]
      rfl
    rw [hmap, List.pairwise_map]
    exact hordered.imp Bytes.ofText_lt_ofText

variable {jail : Jail} {args : Json} {a : ListArgs}

theorem execute_list_of_args (hargs : readArgs .list ListArgs.decoder args = .ok a)
    (timeoutMillis : Nat) (nowMillis : Int) :
    execute jail "list" args timeoutMillis nowMillis t =
      match list jail t a with
      | .ok value => (.completed value, t)
      | .error e => (.ofError e, t) := by
  have hkind : execute jail "list" args timeoutMillis nowMillis t =
      executeKind jail .list args timeoutMillis nowMillis t := rfl
  rw [hkind, executeKind, hargs]
  simp only [outcome, Files.run_inspect]
  rcases list jail t a with _ | _ <;> rfl

/-- A list of a directory holds what its entries are. -/
theorem list_of_dir (hpatterns : a.patterns.mapM readPattern = .ok patterns)
    (hresolve : jail.resolve t a.root = .ok d)
    (hstat : t.stat false d = .ok ⟨d, some .dir⟩) {found : List String}
    (hentries : entries t d a.recursive patterns = .ok found) :
    list jail t a = .ok (.obj [("count", .nat found.length), ("entries", .arr (found.map .str)),
      ("root", .str (jail.shown d))]) := by
  have hdir : (t.stat false d).toOption.bind (·.entry) = some .dir := by
    rw [hstat]
    rfl
  unfold list
  simp only [hpatterns, hresolve, bind, Except.bind, if_neg (not_not.mpr hdir), hentries]
  rfl

/-- What is not a directory is not listed. -/
theorem list_of_not_dir (hpatterns : a.patterns.mapM readPattern = .ok patterns)
    (hresolve : jail.resolve t a.root = .ok d)
    (hdir : ∀ f, t.stat false d = .ok f → f.entry ≠ some .dir) :
    list jail t a = .error (.notADirectory a.root) := by
  have hnone : (t.stat false d).toOption.bind (·.entry) ≠ some .dir := by
    cases hstat : t.stat false d with
    | error e => exact (Option.some_ne_none _).symm
    | ok f => exact hdir f hstat
  unfold list
  simp only [hpatterns, hresolve, bind, Except.bind, if_pos hnone]
  rfl

/-- A list of a directory is completed, with the entries that are asked for. -/
theorem execute_list_of_dir (hproper : t.Proper)
    (hargs : readArgs .list ListArgs.decoder args = .ok a)
    (hpatterns : a.patterns.mapM readPattern = .ok patterns)
    (hresolve : jail.resolve t a.root = .ok d) (hdir : t.get? d = some .dir)
    (hdirs : ∀ l, d <+: l → t.get? l = some .dir → Path.byteLength l ≤ maxPath)
    (timeoutMillis : Nat) (nowMillis : Int) : ∃ found : List (List String),
      execute jail "list" args timeoutMillis nowMillis t =
        (.completed (.obj [("count", .nat found.length),
          ("entries", .arr (found.map fun names => .str ("/".intercalate names))),
          ("root", .str (jail.shown d))]), t) ∧
      (∀ names, names ∈ found ↔ t.Listed d a.recursive names ∧ Matching patterns names) ∧
      (found.map fun names => Bytes.ofText ("/".intercalate names)).Pairwise (· < ·) := by
  obtain ⟨found, hentries, hmem, hordered⟩ :=
    exists_entries_eq hproper hdir hdirs a.recursive patterns
  have hstat : t.stat false d = .ok ⟨d, some .dir⟩ := by
    rw [FileTree.stat, hproper.locate_of_get? hdir (fun _ => Entry.noConfusion)
      (hdirs d (List.prefix_refl d) hdir)]
  have hlist := list_of_dir hpatterns hresolve hstat hentries
  rw [List.length_map, List.map_map] at hlist
  refine ⟨found, ?_, hmem, hordered⟩
  rw [execute_list_of_args hargs, hlist]
  rfl

/-- **A list answers with exactly what is below its root.** The root of the list is resolved in the
jail; if it is a directory, the answer holds the paths of its entries, or of all that is reached
from it through directories, as far as they match the patterns. If it is none or is not there, the
list is refused. The files stay as they are. -/
theorem execute_list_exact (hproper : t.Proper) (hjail : ∀ c ∈ jail.root, Path.Plain c)
    (hargs : readArgs .list ListArgs.decoder args = .ok a)
    (hpatterns : a.patterns.mapM readPattern = .ok patterns)
    (hresolve : jail.resolve t a.root = .ok d)
    (hshort : ∀ names, Jail.normalize a.root = some names →
      Path.byteLength (jail.root ++ names) ≤ maxPath)
    (hdirs : ∀ l, d <+: l → t.get? l = some .dir → Path.byteLength l ≤ maxPath)
    (timeoutMillis : Nat) (nowMillis : Int) :
    (t.get? d = some .dir → ∃ found : List (List String),
      execute jail "list" args timeoutMillis nowMillis t =
        (.completed (.obj [("count", .nat found.length),
          ("entries", .arr (found.map fun names => .str ("/".intercalate names))),
          ("root", .str (jail.shown d))]), t) ∧
      (∀ names, names ∈ found ↔ t.Listed d a.recursive names ∧ Matching patterns names) ∧
      (found.map fun names => Bytes.ofText ("/".intercalate names)).Pairwise (· < ·)) ∧
    (t.get? d ≠ some .dir → execute jail "list" args timeoutMillis nowMillis t =
      (.failed "NOT_A_DIRECTORY" ("not a directory: " ++ a.root), t)) := by
  refine ⟨fun hdir => execute_list_of_dir hproper hargs hpatterns hresolve hdir hdirs
    timeoutMillis nowMillis, fun hdir => ?_⟩
  obtain ⟨names, -, hnames, -⟩ := Jail.exists_of_resolve hresolve
  have hplain := Jail.plain_of_resolve_of_plain hproper.toWellFormed hjail hresolve
  have hstraight := Jail.straight_dropLast_of_resolve hproper.toWellFormed hnames
    (hshort names hnames) hresolve
  have hlist := list_of_not_dir hpatterns hresolve fun f hstat => by
    rw [FileTree.locate_false_of_straight hstraight hplain (FileTree.locate_of_stat hstat).1]
    exact hdir
  rw [execute_list_of_args hargs, hlist]
  rfl

section Yard

/-- A jail with a directory, a file in it and a link to the directory that holds the jail. -/
private def yard : FileTree :=
  ⟨[(["jail"], .dir), (["jail", "sub"], .dir), (["jail", "sub", "x"], .file (.bytes []) 420),
    (["jail", "loop"], .link "..")]⟩

private theorem proper_yard : yard.Proper := by
  refine FileTree.WellFormed.proper (FileTree.wellFormed_of_forall_mem ?_) ?_ <;> decide

private theorem resolve_yard : (Jail.mk ["jail"]).resolve yard "." = .ok ["jail"] :=
  Jail.resolve_root proper_yard.toWellFormed rfl (by decide) (by decide)

/-- A link that leads back to the jail is listed, and nothing is reached through it. -/
theorem execute_list_exact_of_loop : ∃ found : List (List String),
    execute ⟨["jail"]⟩ "list" (.obj [("recursive", .bool true)]) 1000 0 yard =
      (.completed (.obj [("count", .nat found.length),
        ("entries", .arr (found.map fun names => .str ("/".intercalate names))),
        ("root", .str "")]), yard) ∧
      ["sub", "x"] ∈ found ∧ ["loop"] ∈ found ∧ ["loop", "jail"] ∉ found := by
  have hshort : ∀ names, Jail.normalize "." = some names →
      Path.byteLength (["jail"] ++ names) ≤ maxPath := by
    rintro names hnames
    obtain rfl : [] = names := Option.some.inj hnames
    decide
  have hdirs : ∀ l, ["jail"] <+: l → yard.get? l = some .dir → Path.byteLength l ≤ maxPath := by
    intro l hl hdir
    have hentries : ∀ x ∈ yard.entries, Path.byteLength x.1 ≤ maxPath := by decide
    refine hentries _ (FileTree.mem_entries_of_get? ?_ hdir)
    rintro rfl
    cases List.prefix_nil.mp hl
  have hargs : readArgs .list ListArgs.decoder (.obj [("recursive", .bool true)]) =
      .ok ⟨".", [], true⟩ := rfl
  have hpatterns : ([] : List String).mapM readPattern = .ok [] := rfl
  obtain ⟨found, hexecute, hmem, -⟩ := (execute_list_exact proper_yard (by decide) hargs hpatterns
    resolve_yard hshort hdirs 1000 0).1 rfl
  refine ⟨found, hexecute, ?_, ?_, ?_⟩
  · exact (hmem _).mpr ⟨proper_yard.rooted.listed_true_iff.mpr ⟨by decide, _, rfl⟩, .inl rfl⟩
  · exact (hmem _).mpr ⟨proper_yard.rooted.listed_true_iff.mpr ⟨by decide, _, rfl⟩, .inl rfl⟩
  · intro hmember
    obtain ⟨-, e, he⟩ := ((hmem _).mp hmember).1.exists_entry
    cases he

end Yard

end Job

end MeshNode
