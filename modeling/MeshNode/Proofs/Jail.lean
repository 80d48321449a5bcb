import MeshNode.Jail
import MeshNode.Proofs.Files.Operations

/-!
# Where jails let paths lead

A path that a jail resolves leads into the jail. The way to the location that it resolves to is
straight: what exists of the path is followed to its real location, and nothing stands where the
missing names come first. The exception is a path that is too long to be looked up as a whole. How
much of it exists is then not known, a link may stand among the names that count as missing, and the
location may be reached through that link, out of the jail.
-/

namespace MeshNode

namespace Jail

open FileTree (maxPath)

/-! ### Folding -/

/-- Whatever holds of the names that are folded, two dots apart, holds of those that are left. -/
theorem forall_mem_fold {P : String → Prop} {names rest folded : List String}
    (hfold : fold names rest = some folded) (hnames : ∀ c ∈ names, P c)
    (hrest : ∀ c ∈ rest, c ≠ ".." → P c) : ∀ c ∈ folded, P c := by
  induction rest generalizing names with
  | nil =>
    obtain rfl := Option.some.inj hfold
    exact fun c hc => hnames c (List.mem_reverse.mp hc)
  | cons d rest ih =>
    have hrest' : ∀ c ∈ rest, c ≠ ".." → P c := fun c hc => hrest c (List.mem_cons_of_mem d hc)
    unfold fold at hfold
    split at hfold
    · split at hfold
      · cases hfold
      · exact ih hfold (fun c hc => hnames c (List.mem_cons_of_mem _ hc)) hrest'
    · rename_i hdots
      exact ih hfold (List.forall_mem_cons.mpr ⟨hrest d List.mem_cons_self hdots, hnames⟩) hrest'

theorem forall_mem_normalize {P : String → Prop} {path : String} {names : List String}
    (h : normalize path = some names) (hcomponents : ∀ c ∈ Path.components path, c ≠ ".." → P c) :
    ∀ c ∈ names, P c := by
  unfold normalize at h
  split at h
  · cases h
  · exact forall_mem_fold h (fun c hc => absurd hc List.not_mem_nil) hcomponents

/-- Nothing but plain names is left of a path once it is folded. -/
theorem plain_of_mem_normalize {path : String} {names : List String}
    (h : normalize path = some names) : ∀ c ∈ names, Path.Plain c := by
  refine forall_mem_normalize h fun c hc hdots => ?_
  have hshown : c ≠ "" ∧ c ≠ "." := by simpa [Path.components] using (List.mem_filter.mp hc).2
  exact ⟨hshown.1, hshown.2, hdots⟩

/-- No name that is left of a path holds a slash. -/
theorem slash_of_mem_normalize {path : String} {names : List String}
    (h : normalize path = some names) : ∀ c ∈ names, '/' ∉ c.toList :=
  forall_mem_normalize h fun _ hc _ => Path.slash_of_mem_pieces (List.mem_filter.mp hc).1

theorem fold_of_plain {names rest : List String} (h : ∀ c ∈ rest, Path.Plain c) :
    fold names rest = some (names.reverse ++ rest) := by
  induction rest generalizing names with
  | nil => simp [fold]
  | cons c rest ih =>
    have hdots : c ≠ ".." := (h c List.mem_cons_self).2.2
    unfold fold
    rw [if_neg hdots, ih fun d hd => h d (List.mem_cons_of_mem c hd), List.reverse_cons,
      List.append_assoc, List.singleton_append]

/-- Plain names with slashes between them make up a path that comes to these names. -/
theorem normalize_intercalate {names : List String} (hne : names ≠ [])
    (hplain : ∀ c ∈ names, Path.Plain c) (hslash : ∀ c ∈ names, '/' ∉ c.toList) :
    normalize ("/".intercalate names) = some names := by
  have hpieces := Path.pieces_intercalate hne hslash
  -- A slash in front would leave an empty piece before it, and no name is empty.
  have habsolute : Path.isAbsolute ("/".intercalate names) = false := by
    by_contra hcontra
    rw [Bool.not_eq_false, Path.isAbsolute, decide_eq_true_eq] at hcontra
    obtain ⟨cs, hcs⟩ := List.head?_eq_some_iff.mp hcontra
    have hempty : "" ∈ names := by
      rw [← hpieces, Path.pieces, hcs, List.splitOn_cons_eq_if_modifyHead]
      simp
    exact (hplain "" hempty).1 rfl
  have hcomponents : Path.components ("/".intercalate names) = names := by
    rw [Path.components, hpieces, List.filter_eq_self]
    exact fun c hc => by simpa using ⟨(hplain c hc).1, (hplain c hc).2.1⟩
  rw [normalize, habsolute, hcomponents, if_neg Bool.false_ne_true, fold_of_plain hplain]
  rfl

/-! ### What exists of a path -/

variable {t : FileTree}

theorem existingPart_nil (t : FileTree) : existingPart t [] = ([], []) := by
  rw [existingPart, dif_pos rfl]

theorem existingPart_concat (t : FileTree) (p : Path) (c : String) :
    existingPart t (p ++ [c]) =
      if t.hasEntry (p ++ [c]) then (p ++ [c], [])
      else ((existingPart t p).1, (existingPart t p).2 ++ [c]) := by
  have hne : p ++ [c] ≠ [] := List.concat_ne_nil c p
  rw [existingPart, dif_neg hne]
  split
  · rfl
  · simp

/-- The whole of a path that leads to something exists. -/
theorem existingPart_of_hasEntry {p : Path} (hentry : t.hasEntry p = true) :
    existingPart t p = (p, []) := by
  rcases List.eq_nil_or_concat p with rfl | ⟨p, c, rfl⟩
  · exact existingPart_nil t
  · rw [List.concat_eq_append] at hentry ⊢
    rw [existingPart_concat, if_pos hentry]

/-- A path is made up of what exists and what is missing of it, and the first missing name leads to
nothing. -/
theorem existingPart_spec (t : FileTree) (p : Path) :
    (existingPart t p).1 ++ (existingPart t p).2 = p ∧
      ∀ c rest, (existingPart t p).2 = c :: rest →
        t.hasEntry ((existingPart t p).1 ++ [c]) = false := by
  induction p using List.reverseRecOn with
  | nil =>
    rw [existingPart_nil]
    exact ⟨rfl, fun c rest heq => absurd heq.symm (List.cons_ne_nil c rest)⟩
  | append_singleton p d ih =>
    obtain ⟨happend, hmissing⟩ := ih
    rw [existingPart_concat]
    split
    · exact ⟨List.append_nil _, fun c rest heq => absurd heq.symm (List.cons_ne_nil c rest)⟩
    · rename_i hentry
      refine ⟨by rw [← List.append_assoc, happend], fun c rest hrest => ?_⟩
      -- With all the names before it there, the last one is the first that is missing.
      cases hnames : (existingPart t p).2 with
      | nil =>
        rw [hnames, List.append_nil] at happend
        simp only [hnames, List.nil_append, List.cons.injEq] at hrest
        rw [happend, ← hrest.1]
        exact Bool.eq_false_iff.mpr hentry
      | cons c' rest' =>
        simp only [hnames, List.cons_append, List.cons.injEq] at hrest
        exact hmissing c rest' (by rw [hnames, hrest.1])

/-- Nothing is taken to exist beyond a name with which a path is too long. -/
theorem existingPart_of_long {p : Path} {c : String} (hentry : t.hasEntry p = true)
    (hlong : maxPath < Path.byteLength (p ++ [c])) (rest : Path) :
    existingPart t (p ++ c :: rest) = (p, c :: rest) := by
  have hmissing (rest : Path) : t.hasEntry (p ++ c :: rest) = false := by
    have hle := Path.byteLength_le_append (p ++ [c]) rest
    rw [List.append_assoc, List.singleton_append] at hle
    exact (FileTree.hasEntry_of_long (Nat.lt_of_lt_of_le hlong hle)).1
  induction rest using List.reverseRecOn with
  | nil =>
    rw [existingPart_concat, hmissing [], if_neg Bool.false_ne_true,
      existingPart_of_hasEntry hentry]
    rfl
  | append_singleton rest d ih =>
    have happend : p ++ c :: (rest ++ [d]) = (p ++ c :: rest) ++ [d] := by simp
    rw [happend, existingPart_concat, ← happend, hmissing, if_neg Bool.false_ne_true, ih]
    rfl

variable {jail : Jail}

/-- The path to some names in a jail is made up of what exists and what is missing of it. -/
theorem existingInside_append (jail : Jail) (t : FileTree) (names : List String) :
    (jail.existingInside t names).1 ++ (jail.existingInside t names).2 = jail.root ++ names := by
  unfold existingInside
  split
  · rename_i hnone
    have happend := (existingPart_spec t jail.root.dropLast).1
    have hroot : jail.root.dropLast ++ jail.root.getLast?.toList = jail.root := by
      rcases List.eq_nil_or_concat jail.root with hnil | ⟨l, c, hconcat⟩
      · rw [hnil]; rfl
      · rw [hconcat]; simp
    rw [hnone.1, List.append_nil, ← List.append_assoc, happend, hroot]
  · exact (existingPart_spec t _).1

/-- Unless a path stands for a jail that is no directory, what exists of it is looked for along the
whole of it. -/
theorem existingInside_eq {names : List String} (h : ¬ (names = [] ∧ !t.isDir jail.root)) :
    jail.existingInside t names = existingPart t (jail.root ++ names) := if_neg h

/-- What exists of a jail that is no directory is what exists of the way to it. -/
theorem existingInside_of_not_isDir (hdir : t.isDir jail.root = false) :
    ∃ c, jail.root = jail.root.dropLast ++ [c] ∧ jail.existingInside t [] =
      ((existingPart t jail.root.dropLast).1, (existingPart t jail.root.dropLast).2 ++ [c]) := by
  rcases List.eq_nil_or_concat jail.root with hnil | ⟨l, c, hconcat⟩
  · rw [hnil] at hdir
    cases hdir
  · rw [List.concat_eq_append] at hconcat
    refine ⟨c, by rw [hconcat, List.dropLast_concat], ?_⟩
    have hlast : jail.root.getLast? = some c := by rw [hconcat, List.getLast?_concat]
    rw [existingInside, if_pos ⟨rfl, by rw [hdir]; rfl⟩, hlast]
    rfl

/-! ### Resolving -/

/-- What a path resolves to: the real location of what exists, and behind it what is missing. -/
theorem exists_of_resolve {path : String} {l : Location} (h : jail.resolve t path = .ok l) :
    ∃ names found, normalize path = some names ∧
      t.realLocation (jail.existingInside t names).1 = .ok found ∧
      l = found ++ (jail.existingInside t names).2 ∧ jail.root <+: l := by
  unfold resolve at h
  split at h
  · cases h
  · rename_i names hnames
    simp only at h
    split at h
    · cases h
    · cases h
    · rename_i found hfound
      split at h
      · cases h
      · rename_i hbegins
        split at h
        · cases h
        · obtain rfl := Except.ok.inj h
          exact ⟨names, found, hnames, hfound, rfl, by simpa using hbegins⟩

/-- A path resolves to what is missing of it behind the real location of what exists, if that is
inside and the path names no link. -/
theorem resolve_of_existing {path : String} {names missing : List String} {p : Path}
    {found : Location} (hnames : normalize path = some names)
    (hexisting : jail.existingInside t names = (p, missing))
    (hfound : t.realLocation p = .ok found) (hbelow : jail.root <+: found ++ missing)
    (hlink : t.isLink (jail.root ++ names) = false) :
    jail.resolve t path = .ok (found ++ missing) := by
  have hbegins : jail.root.isPrefixOf (found ++ missing) = true := by simpa using hbelow
  rw [resolve, hnames]
  simp only [hexisting, hfound, hbegins, hlink]
  simp

/-- There is nothing where the missing names of a path come first, if it can be looked up. -/
theorem straight_append (hrooted : t.Rooted) {p missing : Path} {found : Location}
    (hfound : t.realLocation p = .ok found)
    (hmissing : ∀ c rest, missing = c :: rest → t.get? (found ++ [c]) = none) :
    t.Straight (found ++ missing) := by
  have hstraight := (hrooted.straight_of_realLocation hfound).1
  cases missing with
  | nil => rwa [List.append_nil]
  | cons c rest =>
    have hnone := hmissing c rest rfl
    -- At the first missing name there is nothing, so there is no link there or below.
    have hfirst : found ++ [c] <+: found ++ c :: rest := ⟨rest, by simp⟩
    intro p hp target
    rcases List.prefix_or_prefix_of_prefix hp hfirst with hp | hp
    · rcases List.prefix_concat_iff.mp hp with rfl | hp
      · rw [hnone]
        exact (Option.some_ne_none _).symm
      · exact hstraight p hp target
    · rw [hrooted.get?_eq_none hnone hp]
      exact (Option.some_ne_none _).symm

/-- Whatever holds of the names of entries, of the jail and of the path, holds of the names of the
location that the path resolves to. -/
theorem forall_mem_resolve {P : String → Prop} (hrooted : t.Rooted)
    (hentries : ∀ l e, t.get? l = some e → ∀ c ∈ l, P c) (hroot : ∀ c ∈ jail.root, P c)
    {path : String} (hpath : ∀ names, normalize path = some names → ∀ c ∈ names, P c)
    {l : Location} (h : jail.resolve t path = .ok l) : ∀ c ∈ l, P c := by
  obtain ⟨names, found, hnames, hfound, rfl, -⟩ := exists_of_resolve h
  obtain ⟨e, he⟩ := (hrooted.straight_of_realLocation hfound).2
  intro c hc
  rcases List.mem_append.mp hc with hc | hc
  · exact hentries found e he c hc
  · have hmem : c ∈ jail.root ++ names :=
      jail.existingInside_append t names ▸ List.mem_append_right _ hc
    rcases List.mem_append.mp hmem with hmem | hmem
    · exact hroot c hmem
    · exact hpath names hnames c hmem

/-- The location that a path resolves to is made up of names if the jail is. -/
theorem plain_of_resolve_of_plain (hformed : t.WellFormed) (hroot : ∀ c ∈ jail.root, Path.Plain c)
    {path : String} {l : Location} (h : jail.resolve t path = .ok l) : ∀ c ∈ l, Path.Plain c :=
  forall_mem_resolve hformed.rooted (fun _ _ he _ hc => (hformed.isName_of_mem he hc).1) hroot
    (fun _ hnames => plain_of_mem_normalize hnames) h

/-- No name of the location that a path resolves to holds a slash. -/
theorem slash_of_resolve (hproper : t.Proper) (hroot : ∀ c ∈ jail.root, '/' ∉ c.toList)
    {path : String} {l : Location} (h : jail.resolve t path = .ok l) : ∀ c ∈ l, '/' ∉ c.toList :=
  forall_mem_resolve hproper.rooted (fun _ _ he _ hc => hproper.slash_of_mem he hc) hroot
    (fun _ hnames => slash_of_mem_normalize hnames) h

/-- The location that a path resolves to is made up of names. -/
theorem plain_of_resolve (hformed : t.WellFormed) (hroot : t.get? jail.root = some .dir)
    {path : String} {l : Location} (h : jail.resolve t path = .ok l) : ∀ c ∈ l, Path.Plain c :=
  plain_of_resolve_of_plain hformed (fun _ hc => (hformed.isName_of_mem hroot hc).1) h

/-- The way to what is missing behind what exists of a path is straight, if the path is not too long
to be looked up. -/
theorem straight_of_missing (hformed : t.WellFormed) {p existing : Path} {missing : List String}
    (happend : existing ++ missing = p) (hshort : Path.byteLength p ≤ maxPath)
    (hmissing : ∀ c rest, missing = c :: rest → t.hasEntry (existing ++ [c]) = false)
    {found : Location} (hfound : t.realLocation existing = .ok found) :
    t.Straight (found ++ missing) := by
  -- The path up to its first missing name is short enough too, so it is not its length that kept
  -- the name from being found.
  refine straight_append hformed.rooted hfound fun c rest hrest => ?_
  refine hformed.get?_eq_none_of_not_hasEntry hfound ?_ (hmissing c rest hrest)
  have hlength := Path.byteLength_le_append (existing ++ [c]) rest
  have hwhole : existing ++ [c] ++ rest = p := by
    rw [List.append_assoc, List.singleton_append, ← hrest, happend]
  rw [hwhole] at hlength
  exact Nat.le_trans hlength hshort

/-- A jail resolves a path to the end of a straight way if the path is not too long to be looked up,
unless it stands for the jail and that is no directory. -/
theorem straight_of_resolve_of_counts (hformed : t.WellFormed) {path : String}
    {names : List String} (hnames : normalize path = some names)
    (hcounts : ¬ (names = [] ∧ !t.isDir jail.root))
    (hshort : Path.byteLength (jail.root ++ names) ≤ maxPath) {l : Location}
    (h : jail.resolve t path = .ok l) : t.Straight l := by
  obtain ⟨names', found, hnames', hfound, rfl, -⟩ := exists_of_resolve h
  obtain rfl : names = names' := Option.some.inj (hnames.symm.trans hnames')
  obtain ⟨happend, hmissing⟩ := existingPart_spec t (jail.root ++ names)
  rw [existingInside_eq hcounts] at hfound ⊢
  exact straight_of_missing hformed happend hshort hmissing hfound

/-- **A jail resolves a path to the end of a straight way** if the path is not too long to be looked
up. -/
theorem straight_of_resolve (hformed : t.WellFormed) (hroot : t.get? jail.root = some .dir)
    {path : String} {names : List String} (hnames : normalize path = some names)
    (hshort : Path.byteLength (jail.root ++ names) ≤ maxPath) {l : Location}
    (h : jail.resolve t path = .ok l) : t.Straight l := by
  refine straight_of_resolve_of_counts hformed hnames ?_ hshort h
  rintro ⟨-, hdir⟩
  rw [hformed.isDir_of_get? hroot (Nat.le_trans (Path.byteLength_le_append _ names) hshort)] at hdir
  exact Bool.noConfusion hdir

/-- A path that stands for the jail resolves to its root, if to anything. -/
theorem eq_root_of_resolve (hformed : t.WellFormed) {path : String} (hnames : normalize path = some [])
    {l : Location} (h : jail.resolve t path = .ok l) : l = jail.root := by
  obtain ⟨names, found, hnames', hfound, rfl, hbelow⟩ := exists_of_resolve h
  obtain rfl : [] = names := Option.some.inj (hnames.symm.trans hnames')
  have happend := jail.existingInside_append t []
  rw [List.append_nil] at happend
  obtain ⟨hstraight, e, he⟩ := hformed.rooted.straight_of_realLocation hfound
  -- What exists of the jail begins its real location, so it is its own real location.
  have hbegins : (jail.existingInside t []).1 <+: found := by
    refine List.prefix_of_prefix_length_le ((List.prefix_append _ _).trans (happend ▸ hbelow))
      (List.prefix_append _ _) ?_
    have hlength := hbelow.length_le
    rw [← happend, List.length_append, List.length_append] at hlength
    omega
  obtain ⟨e', hlocate⟩ := FileTree.exists_of_realLocation hfound
  have hlocation := FileTree.locate_of_straight (hstraight.beginning hbegins)
    (fun c hc => (hformed.isName_of_mem he (hbegins.subset hc)).1) hlocate
  rw [(Found.mk.inj hlocation).1, happend]

/-- A path that stands for the jail resolves to its root while that is a directory. -/
theorem resolve_root (hformed : t.WellFormed) (hroot : t.get? jail.root = some .dir)
    (hshort : Path.byteLength jail.root ≤ maxPath) {path : String}
    (hnames : normalize path = some []) : jail.resolve t path = .ok jail.root := by
  have hlocate (follow : Bool) : t.locate follow jail.root = .ok ⟨jail.root, some .dir⟩ :=
    hformed.locate_of_get? hroot (fun _ => Entry.noConfusion) hshort
  have hexisting : jail.existingInside t [] = (jail.root, []) := by
    rw [existingInside_eq (by simp [hformed.isDir_of_get? hroot hshort]), List.append_nil]
    refine existingPart_of_hasEntry ?_
    rw [FileTree.hasEntry, FileTree.stat, hlocate]
    rfl
  have hfound : t.realLocation jail.root = .ok jail.root := by
    rw [FileTree.realLocation, FileTree.stat, hlocate]
    rfl
  have hlink : t.isLink (jail.root ++ []) = false := by
    rw [List.append_nil, FileTree.isLink, FileTree.stat, hlocate]
  rw [resolve_of_existing hnames hexisting hfound (List.prefix_append _ _) hlink, List.append_nil]

/-- Whatever stands at the root of a jail, only at the end of a location that a path resolves to can
there be a link. -/
theorem straight_dropLast_of_resolve (hformed : t.WellFormed) {path : String} {names : List String}
    (hnames : normalize path = some names)
    (hshort : Path.byteLength (jail.root ++ names) ≤ maxPath) {l : Location}
    (h : jail.resolve t path = .ok l) : t.Straight l.dropLast := by
  by_cases hcounts : names = [] ∧ !t.isDir jail.root
  · obtain ⟨names', found, hnames', hfound, rfl, -⟩ := exists_of_resolve h
    obtain rfl : names = names' := Option.some.inj (hnames.symm.trans hnames')
    obtain ⟨rfl, hdir⟩ := hcounts
    have hdir' : t.isDir jail.root = false := by simpa using hdir
    obtain ⟨c, hroot, hexisting⟩ := existingInside_of_not_isDir hdir'
    obtain ⟨happend, hmissing⟩ := existingPart_spec t jail.root.dropLast
    rw [List.append_nil, hroot] at hshort
    rw [hexisting] at hfound ⊢
    simp only [← List.append_assoc, List.dropLast_concat]
    exact straight_of_missing hformed happend
      (Nat.le_trans (Path.byteLength_le_append _ [c]) hshort) hmissing hfound
  · exact (straight_of_resolve_of_counts hformed hnames hcounts hshort h).beginning
      (List.dropLast_prefix l)

end Jail

end MeshNode
