import MeshNode.Files.Operations
import MeshNode.Proofs.Digest
import MeshNode.Proofs.Files.Lookup

/-!
# What is below a directory

The entries below a directory are reached from it through directories alone (`Listed`). A link is an
entry like others, but nothing is reached through it. In a well-formed tree whatever has a location
below a directory is reached from it, and through fewer directories than the location has names
(`mem_belowWithin`), so that a search which goes as many levels down as the longest location leaves
nothing out and comes to an end, wherever links lead. Reading directory after directory by their
paths finds the same locations as long as each directory can be looked up
(`WellFormed.pathsWithin_eq`).
-/

namespace MeshNode

namespace FileTree

open MeshNode.Path (IsName)

/-- The names that lead from a directory to its entries, and to those of the directories below it if
the listing is recursive. -/
inductive Listed (t : FileTree) (d : Location) (recursive : Bool) : List String → Prop
  | entry {c : String} {e : Entry} (he : t.get? (d ++ [c]) = some e) : Listed t d recursive [c]
  | deeper {names : List String} {c : String} {e : Entry} (hrecursive : recursive = true)
      (habove : Listed t d recursive names) (hdir : t.get? (d ++ names) = some .dir)
      (he : t.get? (d ++ names ++ [c]) = some e) : Listed t d recursive (names ++ [c])

variable {t : FileTree} {d : Location} {recursive : Bool} {names : List String}

/-- What is listed is there. -/
theorem Listed.exists_entry (h : t.Listed d recursive names) :
    names ≠ [] ∧ ∃ e, t.get? (d ++ names) = some e := by
  induction h with
  | entry he => exact ⟨List.cons_ne_nil _ _, _, he⟩
  | deeper _ _ _ he _ => exact ⟨List.concat_ne_nil _ _, _, by rwa [← List.append_assoc]⟩

/-- A listing that is not recursive is of the entries of the directory. -/
theorem listed_false_iff :
    t.Listed d false names ↔ ∃ c e, names = [c] ∧ t.get? (d ++ [c]) = some e := by
  constructor
  · intro h
    cases h with
    | entry he => exact ⟨_, _, rfl, he⟩
    | deeper hrecursive => cases hrecursive
  · rintro ⟨c, e, rfl, he⟩
    exact .entry he

/-- **A recursive listing leaves nothing out** that has a location below the directory. -/
theorem Rooted.listed_true_iff (h : t.Rooted) :
    t.Listed d true names ↔ names ≠ [] ∧ ∃ e, t.get? (d ++ names) = some e := by
  refine ⟨Listed.exists_entry, ?_⟩
  rintro ⟨hne, e, he⟩
  induction names using List.reverseRecOn generalizing e with
  | nil => exact absurd rfl hne
  | append_singleton names c ih =>
    rw [← List.append_assoc] at he
    have hdir := h _ c e he
    by_cases hnil : names = []
    · rw [hnil, List.append_nil] at he
      rw [hnil]
      exact .entry he
    · exact .deeper rfl (ih hnil .dir hdir) hdir he

/-! ### Directories -/

/-- The names in a directory are those that something is at. -/
theorem mem_children {c : String} : c ∈ t.children d ↔ ∃ e, t.get? (d ++ [c]) = some e := by
  have hget : t.get? (d ++ [c]) = t.entries.lookup (d ++ [c]) := if_neg (List.concat_ne_nil c d)
  rw [children, NameSet.mem_ofList, List.mem_filterMap, hget, ← Option.isSome_iff_exists,
    List.lookup_isSome_iff]
  constructor
  · rintro ⟨⟨l, e⟩, hmem, hname⟩
    rcases List.eq_nil_or_concat l with rfl | ⟨l, c', rfl⟩
    · cases hname
    rw [List.concat_eq_append] at hmem hname
    simp only [List.getLast?_concat, List.dropLast_concat] at hname
    split_ifs at hname with hl
    obtain rfl := Option.some.inj hname
    exact ⟨_, hmem, by simp [hl]⟩
  · rintro ⟨⟨l, e⟩, hmem, heq⟩
    obtain rfl : d ++ [c] = l := by simpa using heq
    exact ⟨_, hmem, by simp⟩

/-- The locations below a directory, down to some level, are those of what is there. -/
theorem Rooted.mem_belowWithin (h : t.Rooted) {levels : Nat} {l : Location} :
    l ∈ t.belowWithin levels d ↔
      ∃ names, l = d ++ names ∧ names ≠ [] ∧ names.length ≤ levels ∧ ∃ e, t.get? l = some e := by
  induction levels generalizing d with
  | zero =>
    refine iff_of_false List.not_mem_nil ?_
    rintro ⟨names, -, hne, hlength, -⟩
    exact hne (List.eq_nil_of_length_eq_zero (Nat.le_zero.mp hlength))
  | succ levels ih =>
    rw [belowWithin, List.mem_flatMap]
    constructor
    · rintro ⟨c, hc, hl⟩
      rcases List.mem_cons.mp hl with rfl | hl
      · exact ⟨[c], rfl, List.cons_ne_nil c [], Nat.succ_le_succ (Nat.zero_le _), mem_children.mp hc⟩
      · split at hl
        · obtain ⟨names, rfl, -, hlength, he⟩ := ih.mp hl
          exact ⟨c :: names, by simp, List.cons_ne_nil c names, Nat.succ_le_succ hlength, he⟩
        · exact absurd hl List.not_mem_nil
    · rintro ⟨names, rfl, hne, hlength, e, he⟩
      obtain ⟨c, names, rfl⟩ := List.exists_cons_of_ne_nil hne
      have happend : d ++ c :: names = (d ++ [c]) ++ names := by simp
      by_cases hnil : names = []
      · rw [hnil] at he ⊢
        exact ⟨c, mem_children.mpr ⟨e, he⟩, List.mem_cons_self⟩
      · -- More names follow, so the first one leads to a directory.
        have hdir : t.get? (d ++ [c]) = some .dir := h.get?_eq_dir he
          (happend ▸ List.prefix_append _ _) fun heq =>
            hnil (List.append_right_eq_self.mp (heq.trans happend).symm)
        refine ⟨c, mem_children.mpr ⟨_, hdir⟩, List.mem_cons_of_mem _ ?_⟩
        rw [if_pos (show t.isDirAt (d ++ [c]) = true from decide_eq_true hdir)]
        exact ih.mpr ⟨names, happend, hnil, Nat.le_of_succ_le_succ hlength, e, he⟩

/-- No location is longer than the tree is deep. -/
theorem length_le_depth {l : Location} {e : Entry} (he : t.get? l = some e) :
    l.length ≤ t.depth := by
  have hfold (entries : List (Location × Entry)) (n : Nat) :
      n ≤ entries.foldl (fun d e => max d e.1.length) n ∧
        ∀ x ∈ entries, x.1.length ≤ entries.foldl (fun d e => max d e.1.length) n := by
    induction entries generalizing n with
    | nil => exact ⟨Nat.le_refl n, fun x hx => absurd hx List.not_mem_nil⟩
    | cons y entries ih =>
      obtain ⟨hstart, hrest⟩ := ih (max n y.1.length)
      refine ⟨(Nat.le_max_left _ _).trans hstart, fun x hx => ?_⟩
      rcases List.mem_cons.mp hx with rfl | hx
      · exact (Nat.le_max_right _ _).trans hstart
      · exact hrest x hx
  by_cases hroot : l = []
  · rw [hroot]
    exact Nat.zero_le _
  · exact (hfold t.entries 0).2 (l, e) (mem_entries_of_get? hroot he)

/-- A listing goes down as many levels as there can be, or else one. -/
theorem Rooted.mem_belowWithin_iff_listed (h : t.Rooted) {l : Location} :
    l ∈ t.belowWithin (if recursive then t.depth + 1 else 1) d ↔
      ∃ names, l = d ++ names ∧ t.Listed d recursive names := by
  rw [h.mem_belowWithin]
  cases recursive with
  | false =>
    constructor
    · rintro ⟨names, rfl, hne, hlength, e, he⟩
      obtain ⟨c, rfl⟩ := List.length_eq_one_iff.mp
        (Nat.le_antisymm hlength (List.length_pos_iff.mpr hne))
      exact ⟨[c], rfl, .entry he⟩
    · rintro ⟨names, rfl, hlisted⟩
      obtain ⟨c, e, rfl, he⟩ := listed_false_iff.mp hlisted
      exact ⟨[c], rfl, List.cons_ne_nil c [], Nat.le_refl 1, e, he⟩
  | true =>
    constructor
    · rintro ⟨names, rfl, hne, -, e, he⟩
      exact ⟨names, rfl, h.listed_true_iff.mpr ⟨hne, e, he⟩⟩
    · rintro ⟨names, rfl, hlisted⟩
      obtain ⟨hne, e, he⟩ := hlisted.exists_entry
      have hlength := length_le_depth he
      rw [List.length_append] at hlength
      exact ⟨names, rfl, hne, by simp only [if_true]; omega, e, he⟩

/-! ### Reading directories -/

/-- A directory that is not too deep down can be read. -/
theorem WellFormed.readDir_eq (h : t.WellFormed) (hdir : t.get? d = some .dir)
    (hshort : Path.byteLength d ≤ maxPath) : t.readDir d =
      .ok ((t.children d).map fun name => (name, t.isDirAt (d ++ [name]))) := by
  have hlocate : t.locate true d = .ok ⟨d, some .dir⟩ :=
    h.locate_of_get? hdir (fun _ => Entry.noConfusion) hshort
  rw [readDir, stat, hlocate]

private theorem mapM_eq_ok {ε α β : Type} {f : α → Except ε β} {g : α → β} {xs : List α}
    (h : ∀ x ∈ xs, f x = .ok (g x)) : xs.mapM f = .ok (xs.map g) := by
  induction xs with
  | nil => rfl
  | cons x xs ih =>
    rw [List.mapM_cons, h x List.mem_cons_self, ih fun y hy => h y (List.mem_cons_of_mem x hy)]
    rfl

/-- **Reading directory after directory finds what is below**, if each of them can be looked up. -/
theorem WellFormed.pathsWithin_eq (h : t.WellFormed) {levels : Nat} (hdir : t.get? d = some .dir)
    (hshort : ∀ l, d <+: l → t.get? l = some .dir → Path.byteLength l ≤ maxPath) :
    t.pathsWithin levels d = .ok (t.belowWithin levels d) := by
  induction levels generalizing d with
  | zero => rfl
  | succ levels ih =>
    have hparts : ∀ entry ∈ (t.children d).map fun name => (name, t.isDirAt (d ++ [name])),
        (if entry.2 then (t.pathsWithin levels (d ++ [entry.1])).map ((d ++ [entry.1]) :: ·)
          else .ok [d ++ [entry.1]]) =
        (.ok ((d ++ [entry.1]) ::
          if entry.2 then t.belowWithin levels (d ++ [entry.1]) else []) :
            Except FileError (List Path)) := by
      intro entry hentry
      obtain ⟨name, -, rfl⟩ := List.mem_map.mp hentry
      by_cases hname : t.isDirAt (d ++ [name]) = true
      · have hbelow := ih (of_decide_eq_true hname) fun l hl =>
          hshort l ((List.prefix_append d [name]).trans hl)
        simp only [hname, if_true, hbelow]
        rfl
      · simp only [hname]
        rfl
    have hread := h.readDir_eq hdir (hshort d (List.prefix_refl d) hdir)
    simp only [pathsWithin, hread, belowWithin, List.flatMap_def]
    refine (congrArg (· >>= fun parts => .ok parts.flatten) (mapM_eq_ok hparts)).trans ?_
    rw [List.map_map]
    rfl

end FileTree

end MeshNode
