import Mathlib.Tactic.SplitIfs
import MeshNode.Proofs.Files.Tree

/-!
# Where lookups end

A lookup goes from component to component, and what a component comes to depends on the entry of its
name (`step`). A location on the way to which no link stands is where looking it up ends, if looking
it up ends anywhere. And a lookup that ends at a directory goes on from there with whatever follows
in its path, however many links it took: so if a path leads to a directory and the path with one
more name leads to nothing, there is nothing of that name in the directory, unless the longer path
is too long to be looked up at all.

A file that is to be written is found where it is found otherwise (`locate_of_locateToWrite`), and a
place for it where the path ends with a name that is no link (`locateToWrite_of_name`). A link may
lead to a place that only a directory could take.
-/

namespace MeshNode

namespace Path

/-- A path is at least as long as what it begins with. -/
theorem byteLength_le_append (p q : Path) : byteLength p ≤ byteLength (p ++ q) := by
  have hfold (p : Path) : p.foldr (fun c n => c.utf8ByteSize + 1 + n) 0 ≤
      (p ++ q).foldr (fun c n => c.utf8ByteSize + 1 + n) 0 := by
    induction p with
    | nil => exact Nat.zero_le _
    | cons c p ih =>
      rw [List.cons_append, List.foldr_cons, List.foldr_cons]
      exact Nat.add_le_add_left ih _
  have hle := hfold p
  unfold byteLength
  omega

end Path

namespace FileTree

open MeshNode.Path (Plain IsName)

variable {t : FileTree}

/-! ### Steps of lookups -/

/-- What a component of a path comes to in a directory. -/
inductive Step where
  | stay
  | up
  | tooLong
  | missing
  | dir
  | file (content : Content) (mode : Nat)
  | link (target : String)

/-- A name comes to what is there. -/
def Step.ofEntry : Option Entry → Step
  | none => missing
  | some .dir => dir
  | some (.file content mode) => file content mode
  | some (.link target) => link target

/-- What a component of a path comes to. -/
def step (t : FileTree) (dir : Location) (c : String) : Step :=
  if c = "" ∨ c = "." then .stay
  else if c = ".." then .up
  else if maxName < c.utf8ByteSize then .tooLong
  else .ofEntry (t.get? (dir ++ [c]))

/-- A name has nothing but slashes after it. -/
def Slashed (c : String) (rest : Path) : Prop :=
  ¬ (c = "" ∨ c = ".") ∧ c ≠ ".." ∧ rest ≠ [] ∧ rest.all (· = "") = true

instance (c : String) (rest : Path) : Decidable (Slashed c rest) :=
  inferInstanceAs (Decidable (_ ∧ _))

theorem Slashed.getLast?_eq {c : String} {rest : Path} (h : Slashed c rest) :
    rest.getLast? = some "" := by
  have hne := h.2.2.1
  have hlast := List.all_eq_true.mp h.2.2.2 _ (List.getLast_mem hne)
  rw [List.getLast?_eq_some_getLast hne, of_decide_eq_true hlast]

/-- How a lookup goes on after a link, with the links that are left. -/
def jump (t : FileTree) (follow writing : Bool) : Nat → Location → Path → Except FileError Found
  | 0 => fun _ _ => .error .tooManyLinks
  | links + 1 => t.walkThrough follow writing links

/-- What holds of all lookups can be shown component by component, and after a link with one link
less. -/
theorem walk_induction {P : Nat → Location → Path → Prop} (nil : ∀ links dir, P links dir [])
    (cons : ∀ links dir c rest, (∀ dir, P links dir rest) →
      (∀ n, links = n + 1 → ∀ dir p, P n dir p) → P links dir (c :: rest))
    (links : Nat) (dir : Location) (p : Path) : P links dir p := by
  induction links generalizing dir p with
  | zero =>
    induction p generalizing dir with
    | nil => exact nil 0 dir
    | cons c rest ih =>
      exact cons 0 dir c rest ih fun n hlinks => absurd hlinks (Nat.succ_ne_zero n).symm
  | succ links ihlinks =>
    induction p generalizing dir with
    | nil => exact nil (links + 1) dir
    | cons c rest ih =>
      exact cons (links + 1) dir c rest ih fun _ hlinks => Nat.succ.inj hlinks ▸ ihlinks

section Steps

variable {follow : Bool} {links : Nat} {dir : Location} {c : String} {p rest : Path} {f : Found}

theorem walk_nil : t.walk follow links dir [] = .ok ⟨dir, t.get? dir⟩ := by cases links <;> rfl

/-- A lookup goes from component to component, unless it is for a file to be written and comes to a
name that only a directory could have. -/
theorem walkThrough_cons {writing : Bool} : t.walkThrough follow writing links dir (c :: rest) =
    if writing ∧ Slashed c rest then .error .isADirectory
    else
      match t.step dir c with
      | .stay => t.walkThrough follow writing links dir rest
      | .up => t.walkThrough follow writing links dir.dropLast rest
      | .tooLong => .error .nameTooLong
      | .missing => if rest.all (· = "") then .ok ⟨dir ++ [c], none⟩ else .error .notFound
      | .dir => t.walkThrough follow writing links (dir ++ [c]) rest
      | .file content mode =>
        if rest = [] then .ok ⟨dir ++ [c], some (.file content mode)⟩ else .error .notADirectory
      | .link target =>
        if rest = [] ∧ !follow then .ok ⟨dir ++ [c], some (.link target)⟩
        else t.jump follow writing links (if Path.isAbsolute target then [] else dir)
          (Path.pieces target ++ rest) := by
  have hwalk : t.walkThrough follow writing links =
      t.walkWith follow writing (t.jump follow writing links) := by
    cases links <;> rfl
  rw [hwalk, walkWith, step]
  by_cases hblank : c = "" ∨ c = "."
  · simp [Slashed, hblank]
  by_cases hdots : c = ".."
  · simp [Slashed, hdots]
  have hslashed : Slashed c rest ↔ rest ≠ [] ∧ rest.all (· = "") = true :=
    ⟨fun h => h.2.2, fun h => ⟨hblank, hdots, h⟩⟩
  by_cases hbarred : writing = true ∧ rest ≠ [] ∧ rest.all (· = "") = true
  · simp only [if_neg hblank, if_neg hdots, hslashed, if_pos hbarred]
  by_cases hlong : maxName < c.utf8ByteSize
  · simp only [if_neg hblank, if_neg hdots, hslashed, if_neg hbarred, if_pos hlong]
  simp only [if_neg hblank, if_neg hdots, hslashed, if_neg hbarred, if_neg hlong]
  rcases t.get? (dir ++ [c]) with _ | ⟨_ | _ | _⟩ <;> rfl

/-- A lookup goes from component to component. -/
theorem walk_cons : t.walk follow links dir (c :: rest) =
    match t.step dir c with
    | .stay => t.walk follow links dir rest
    | .up => t.walk follow links dir.dropLast rest
    | .tooLong => .error .nameTooLong
    | .missing => if rest.all (· = "") then .ok ⟨dir ++ [c], none⟩ else .error .notFound
    | .dir => t.walk follow links (dir ++ [c]) rest
    | .file content mode =>
      if rest = [] then .ok ⟨dir ++ [c], some (.file content mode)⟩ else .error .notADirectory
    | .link target =>
      if rest = [] ∧ !follow then .ok ⟨dir ++ [c], some (.link target)⟩
      else t.jump follow false links (if Path.isAbsolute target then [] else dir)
        (Path.pieces target ++ rest) :=
  walkThrough_cons.trans (if_neg fun hcontra => Bool.noConfusion hcontra.1)

/-- A link leads on from a directory. -/
theorem get?_base (hdir : t.get? dir = some .dir) (target : String) :
    t.get? (if Path.isAbsolute target then [] else dir) = some .dir := by
  split
  · rfl
  · exact hdir

theorem step_of_short (hc : Plain c) (hlength : c.utf8ByteSize ≤ maxName) :
    t.step dir c = .ofEntry (t.get? (dir ++ [c])) := by
  obtain ⟨hempty, hdot, hdots⟩ := hc
  rw [step, if_neg (not_or.mpr ⟨hempty, hdot⟩), if_neg hdots, if_neg (Nat.not_lt.mpr hlength)]

theorem step_of_isName (hname : IsName c) : t.step dir c = .ofEntry (t.get? (dir ++ [c])) :=
  step_of_short hname.1 hname.2.1

/-- A plain component comes to what is there, unless it is too long. -/
theorem step_of_plain (t : FileTree) (dir : Location) (hc : Plain c) :
    t.step dir c = .tooLong ∨ t.step dir c = .ofEntry (t.get? (dir ++ [c])) := by
  obtain ⟨hempty, hdot, hdots⟩ := hc
  rw [step, if_neg (not_or.mpr ⟨hempty, hdot⟩), if_neg hdots]
  split
  · exact Or.inl rfl
  · exact Or.inr rfl

/-- Only a name can be missing. -/
theorem step_ne_of_missing (hstep : t.step dir c = .missing) :
    ¬ (c = "" ∨ c = ".") ∧ c ≠ ".." := by
  unfold step at hstep
  split_ifs at hstep with hblank hdots
  exact ⟨hblank, hdots⟩

/-- What a component that is a name comes to is there. -/
theorem get?_of_step {o : Option Entry} (h : t.step dir c = .ofEntry o) :
    t.get? (dir ++ [c]) = o := by
  have hentry : Step.ofEntry (t.get? (dir ++ [c])) = .ofEntry o → t.get? (dir ++ [c]) = o := by
    rcases t.get? (dir ++ [c]) with _ | ⟨_ | _ | _⟩ <;> rcases o with _ | ⟨_ | _ | _⟩ <;>
      simp [Step.ofEntry]
  unfold step at h
  split_ifs at h
  · rcases o with _ | ⟨_ | _ | _⟩ <;> cases h
  · rcases o with _ | ⟨_ | _ | _⟩ <;> cases h
  · rcases o with _ | ⟨_ | _ | _⟩ <;> cases h
  · exact hentry h

theorem walk_of_blank (h : c = "" ∨ c = ".") :
    t.walk follow links dir (c :: rest) = t.walk follow links dir rest := by
  rw [walk_cons, step, if_pos h]

theorem walk_of_dir (hname : IsName c) (h : t.get? (dir ++ [c]) = some .dir) :
    t.walk follow links dir (c :: rest) = t.walk follow links (dir ++ [c]) rest := by
  rw [walk_cons, step_of_isName hname, h]
  rfl

theorem walk_of_link (hname : IsName c) {target : String}
    (h : t.get? (dir ++ [c]) = some (.link target)) (hfollow : rest ≠ [] ∨ follow = true) :
    t.walk follow (links + 1) dir (c :: rest) =
      t.walk follow links (if Path.isAbsolute target then [] else dir)
        (Path.pieces target ++ rest) := by
  have hlast : ¬ (rest = [] ∧ (!follow) = true) := by
    rcases hfollow with hrest | rfl
    · exact fun hcontra => hrest hcontra.1
    · exact fun hcontra => Bool.noConfusion hcontra.2
  rw [walk_cons, step_of_isName hname, h]
  exact if_neg hlast

/-- A name in the last place leads to whatever is there, unless it is a link to follow. -/
theorem walk_last (hc : Plain c) (hlength : c.utf8ByteSize ≤ maxName)
    (h : ∀ target, t.get? (dir ++ [c]) = some (.link target) → follow = false) :
    t.walk follow links dir [c] = .ok ⟨dir ++ [c], t.get? (dir ++ [c])⟩ := by
  rw [walk_cons, step_of_short hc hlength]
  cases hhere : t.get? (dir ++ [c]) with
  | none => rfl
  | some e =>
    cases e with
    | dir =>
      have hend : t.walk follow links (dir ++ [c]) [] = .ok ⟨dir ++ [c], some .dir⟩ := by
        rw [walk_nil, hhere]
      exact hend
    | file content mode => rfl
    | link target => simp [Step.ofEntry, h target hhere]

/-- Only the length of a path of names can keep it from being looked up. -/
theorem locate_of_names {p : Path} (hnames : ∀ c ∈ p, IsName c)
    (hshort : Path.byteLength p ≤ maxPath) : t.locate follow p = t.walk follow maxLinks [] p := by
  have hnuls : ¬ (p.any fun c => c.toList.contains '\x00') = true := by
    simp only [List.any_eq_true, not_exists, not_and]
    exact fun c hc => by simpa using (hnames c hc).2.2
  rw [locate, fromRoot, if_neg hnuls, if_neg (Nat.not_lt.mpr hshort)]

/-- A lookup goes down to an entry whose names it follows, unless that is a link to follow. -/
theorem WellFormed.walk_of_get? (h : t.WellFormed) {e : Entry} (he : t.get? (dir ++ p) = some e)
    (hlink : ∀ target, e = .link target → follow = false) :
    t.walk follow links dir p = .ok ⟨dir ++ p, some e⟩ := by
  induction p generalizing dir with
  | nil =>
    rw [List.append_nil] at he ⊢
    rw [walk_nil, he]
  | cons c rest ih =>
    have happend : dir ++ c :: rest = (dir ++ [c]) ++ rest := by simp
    have hname : IsName c := h.isName_of_mem he (by simp)
    rw [happend] at he ⊢
    by_cases hrest : rest = []
    · rw [hrest, List.append_nil] at he ⊢
      rw [walk_last hname.1 hname.2.1 fun target htarget =>
        hlink target (Option.some.inj (he.symm.trans htarget)), he]
    · have hdir : t.get? (dir ++ [c]) = some .dir := h.rooted.get?_eq_dir he (List.prefix_append _ _)
        fun heq => hrest (List.append_right_eq_self.mp heq.symm)
      rw [walk_of_dir hname hdir]
      exact ih he

/-- An entry is found at its location, unless it is a link to follow or too deep down. -/
theorem WellFormed.locate_of_get? (h : t.WellFormed) {l : Location} {e : Entry}
    (he : t.get? l = some e) (hlink : ∀ target, e = .link target → follow = false)
    (hshort : Path.byteLength l ≤ maxPath) : t.locate follow l = .ok ⟨l, some e⟩ := by
  rw [locate_of_names (fun c hc => h.isName_of_mem he hc) hshort]
  exact h.walk_of_get? he hlink

/-- The location of a directory leads to it. -/
theorem WellFormed.isDir_of_get? (h : t.WellFormed) {l : Location} (hl : t.get? l = some .dir)
    (hshort : Path.byteLength l ≤ maxPath) : t.isDir l = true := by
  rw [isDir, stat, h.locate_of_get? hl (fun _ => Entry.noConfusion) hshort]
  rfl

/-- A lookup tells what is at the place where it ended. -/
theorem get?_of_walk (hwalk : t.walk follow links dir p = .ok f) :
    t.get? f.location = f.entry := by
  induction links, dir, p using walk_induction with
  | nil links dir =>
    rw [walk_nil] at hwalk
    obtain rfl := Except.ok.inj hwalk
    rfl
  | cons links dir c rest ih hjump =>
    rw [walk_cons] at hwalk
    cases hstep : t.step dir c <;> simp only [hstep] at hwalk
    case stay => exact ih _ hwalk
    case up => exact ih _ hwalk
    case tooLong => cases hwalk
    case missing =>
      split at hwalk
      · obtain rfl := Except.ok.inj hwalk
        exact get?_of_step (o := none) hstep
      · cases hwalk
    case dir => exact ih _ hwalk
    case file content mode =>
      split at hwalk
      · obtain rfl := Except.ok.inj hwalk
        exact get?_of_step (o := some (.file content mode)) hstep
      · cases hwalk
    case link target =>
      split at hwalk
      · obtain rfl := Except.ok.inj hwalk
        exact get?_of_step (o := some (.link target)) hstep
      · cases links with
        | zero => cases hwalk
        | succ links => exact hjump links rfl _ _ hwalk

/-- What looking a path up means for paths that can be looked up. -/
theorem walk_of_locate (hlocate : t.locate follow p = .ok f) :
    t.walk follow maxLinks [] p = .ok f := by
  unfold locate fromRoot at hlocate
  split_ifs at hlocate
  exact hlocate

theorem get?_of_locate (hlocate : t.locate follow p = .ok f) : t.get? f.location = f.entry :=
  get?_of_walk (walk_of_locate hlocate)

end Steps

/-! ### Straight ways -/

/-- How a lookup comes by a name with nothing but names after it: it ends there, goes down, or jumps
on after a link. -/
theorem of_walk_cons {follow : Bool} {links : Nat} {dir : Location} {c : String} {rest : Path}
    {f : Found} (hplain : ∀ d ∈ c :: rest, Plain d)
    (hwalk : t.walk follow links dir (c :: rest) = .ok f) :
    c.utf8ByteSize ≤ maxName ∧
      (rest = [] ∧ f = ⟨dir ++ [c], t.get? (dir ++ [c])⟩ ∨
      t.get? (dir ++ [c]) = some .dir ∧ t.walk follow links (dir ++ [c]) rest = .ok f ∨
      ∃ target, t.get? (dir ++ [c]) = some (.link target) ∧ (rest ≠ [] ∨ follow = true)) := by
  obtain ⟨hempty, hdot, hdots⟩ := hplain c List.mem_cons_self
  -- Only empty names may follow a missing place, and there are none.
  have hblank (hall : rest.all (· = "") = true) : rest = [] :=
    List.eq_nil_iff_forall_not_mem.mpr fun d hd => (hplain d (List.mem_cons_of_mem c hd)).1
      (by simpa using List.all_eq_true.mp hall d hd)
  rw [walk_cons, step, if_neg (not_or.mpr ⟨hempty, hdot⟩), if_neg hdots] at hwalk
  by_cases hlong : maxName < c.utf8ByteSize
  · simp only [if_pos hlong] at hwalk
    cases hwalk
  refine ⟨Nat.le_of_not_lt hlong, ?_⟩
  rw [if_neg hlong] at hwalk
  rcases hhere : t.get? (dir ++ [c]) with _ | ⟨_ | ⟨content, mode⟩ | target⟩ <;>
    simp only [hhere, Step.ofEntry] at hwalk
  · split at hwalk
    · exact Or.inl ⟨hblank ‹_›, (Except.ok.inj hwalk).symm⟩
    · cases hwalk
  · exact Or.inr (Or.inl ⟨rfl, hwalk⟩)
  · split at hwalk
    · exact Or.inl ⟨‹_›, (Except.ok.inj hwalk).symm⟩
    · cases hwalk
  · by_cases hlast : rest = [] ∧ (!follow) = true
    · rw [if_pos hlast] at hwalk
      exact Or.inl ⟨hlast.1, (Except.ok.inj hwalk).symm⟩
    · refine Or.inr (Or.inr ⟨target, rfl, ?_⟩)
      by_contra hcontra
      obtain ⟨hrest, hfollow⟩ := not_or.mp hcontra
      exact hlast ⟨not_not.mp hrest, by simpa using hfollow⟩

/-- A lookup ends where its way ends, if there is a link at most at the end and not followed. -/
theorem location_of_way {follow : Bool} {links : Nat} {dir : Location} {p : Path} {f : Found}
    (hway : ∀ q target, q <+: dir ++ p → t.get? q = some (.link target) →
      q = dir ++ p ∧ follow = false)
    (hplain : ∀ c ∈ p, Plain c) (hwalk : t.walk follow links dir p = .ok f) :
    f.location = dir ++ p ∧ ∀ c ∈ p, c.utf8ByteSize ≤ maxName := by
  induction p generalizing dir with
  | nil =>
    rw [walk_nil] at hwalk
    obtain rfl := Except.ok.inj hwalk
    exact ⟨(List.append_nil dir).symm, fun c hc => absurd hc List.not_mem_nil⟩
  | cons c rest ih =>
    have happend : dir ++ c :: rest = (dir ++ [c]) ++ rest := by simp
    rw [happend] at hway ⊢
    obtain ⟨hlength, ⟨rfl, rfl⟩ | ⟨-, hwalk⟩ | ⟨target, hlink, hfollow⟩⟩ := of_walk_cons hplain hwalk
    · exact ⟨(List.append_nil _).symm, fun d hd => List.mem_singleton.mp hd ▸ hlength⟩
    · obtain ⟨hlocation, hlengths⟩ :=
        ih hway (fun d hd => hplain d (List.mem_cons_of_mem c hd)) hwalk
      exact ⟨hlocation, List.forall_mem_cons.mpr ⟨hlength, hlengths⟩⟩
    · -- The link would be at the end and not followed.
      obtain ⟨hend, hlast⟩ := hway _ target (List.prefix_append _ _) hlink
      rcases hfollow with hrest | hfollow
      · exact absurd (List.append_right_eq_self.mp hend.symm) hrest
      · rw [hlast] at hfollow
        cases hfollow

/-- Looking up a location ends there, if it ends anywhere and the way there is straight up to a link
at the end that is not followed. -/
theorem locate_false_of_straight {p : Location} {f : Found} (hstraight : t.Straight p.dropLast)
    (hplain : ∀ c ∈ p, Plain c) (hlocate : t.locate false p = .ok f) : f = ⟨p, t.get? p⟩ := by
  have hway : ∀ q target, q <+: [] ++ p → t.get? q = some (.link target) →
      q = [] ++ p ∧ false = false := by
    refine fun q target hq htarget => ⟨?_, rfl⟩
    by_contra hne
    rw [List.nil_append] at hq hne
    rcases List.eq_nil_or_concat p with rfl | ⟨p, c, rfl⟩
    · exact hne (List.prefix_nil.mp hq)
    · rw [List.concat_eq_append] at *
      rw [List.dropLast_concat] at hstraight
      rcases List.prefix_concat_iff.mp hq with heq | hq
      · exact hne heq
      · exact hstraight q hq target htarget
  have hlocation : f.location = p := (location_of_way hway hplain (walk_of_locate hlocate)).1
  rw [← hlocation, get?_of_locate hlocate]

/-- Looking up a location along a straight way ends there, if it ends anywhere. Then the location is
made up of names. -/
theorem of_locate_straight {follow : Bool} {p : Location} {f : Found} (hstraight : t.Straight p)
    (hplain : ∀ c ∈ p, Plain c) (hlocate : t.locate follow p = .ok f) :
    f = ⟨p, t.get? p⟩ ∧ (∀ c ∈ p, IsName c) ∧ Path.byteLength p ≤ maxPath := by
  have hway : ∀ q target, q <+: [] ++ p → t.get? q = some (.link target) →
      q = [] ++ p ∧ follow = false :=
    fun q target hq htarget => absurd htarget (hstraight q hq target)
  obtain ⟨hlocation, hlengths⟩ := location_of_way hway hplain (walk_of_locate hlocate)
  have hentry : f = ⟨p, t.get? p⟩ := by
    rw [List.nil_append] at hlocation
    rw [← hlocation, get?_of_locate hlocate]
  unfold locate fromRoot at hlocate
  split_ifs at hlocate with hnuls hlong
  refine ⟨hentry, fun c hc => ⟨hplain c hc, hlengths c hc, fun hnul => hnuls ?_⟩,
    Nat.le_of_not_lt hlong⟩
  exact List.any_eq_true.mpr ⟨c, hc, by simpa using hnul⟩

theorem locate_of_straight {follow : Bool} {p : Location} {f : Found} (hstraight : t.Straight p)
    (hplain : ∀ c ∈ p, Plain c) (hlocate : t.locate follow p = .ok f) : f = ⟨p, t.get? p⟩ :=
  (of_locate_straight hstraight hplain hlocate).1

/-! ### Longer paths -/

/-- How a lookup of a path that led to an entry goes on with more components. -/
structure GoesOn (t : FileTree) (follow : Bool) (lookup : Path → Except FileError Found)
    (l : Location) (e : Entry) : Prop where
  entry : t.get? l = some e
  ne_link : ∀ target, e ≠ .link target
  dir : e = .dir → ∃ links, ∀ rest, rest ≠ [] → lookup rest = t.walk follow links l rest

theorem GoesOn.congr {follow : Bool} {lookup lookup' : Path → Except FileError Found}
    {l : Location} {e : Entry} (h : t.GoesOn follow lookup l e)
    (heq : ∀ rest, rest ≠ [] → lookup' rest = lookup rest) : t.GoesOn follow lookup' l e := by
  refine ⟨h.entry, h.ne_link, fun hdir => ?_⟩
  obtain ⟨links, hlookup⟩ := h.dir hdir
  exact ⟨links, fun rest hrest => (heq rest hrest).trans (hlookup rest hrest)⟩

/-- **A lookup that ends at an entry goes on from there** with a longer path. -/
theorem walk_goesOn (h : t.Rooted) (follow : Bool) {links : Nat} {dir : Location}
    (hdir : t.get? dir = some .dir) {p : Path} {l : Location} {e : Entry}
    (hwalk : t.walk true links dir p = .ok ⟨l, some e⟩) :
    t.GoesOn follow (fun rest => t.walk follow links dir (p ++ rest)) l e := by
  induction links, dir, p using walk_induction with
  | nil links dir =>
    rw [walk_nil] at hwalk
    obtain ⟨rfl, he⟩ := Found.mk.inj (Except.ok.inj hwalk)
    obtain rfl : Entry.dir = e := Option.some.inj (hdir.symm.trans he)
    exact ⟨hdir, fun _ => Entry.noConfusion, fun _ => ⟨links, fun _ _ => rfl⟩⟩
  | cons links dir c p ih hjump =>
    simp only [List.cons_append, walk_cons] at hwalk ⊢
    cases hstep : t.step dir c <;> simp only [hstep] at hwalk ⊢
    case stay => exact ih _ hdir hwalk
    case up => exact ih _ (h.get?_dropLast hdir) hwalk
    case tooLong => cases hwalk
    case missing => split at hwalk <;> cases hwalk
    case dir => exact ih _ (get?_of_step hstep) hwalk
    case file content mode =>
      split at hwalk
      · obtain ⟨rfl, he⟩ := Found.mk.inj (Except.ok.inj hwalk)
        obtain rfl := Option.some.inj he
        exact ⟨get?_of_step hstep, fun _ => Entry.noConfusion,
          fun hcontra => Entry.noConfusion hcontra⟩
      · cases hwalk
    case link target =>
      -- The link is followed in either case: there is more of the path after it.
      rw [if_neg fun hcontra => Bool.noConfusion hcontra.2] at hwalk
      cases links with
      | zero => cases hwalk
      | succ links =>
        refine (hjump links rfl _ _ (get?_base hdir target) hwalk).congr fun rest hrest => ?_
        rw [if_neg fun hcontra => hrest (List.append_eq_nil_iff.mp hcontra.1).2, List.append_assoc]
        rfl

/-- What is found of a path is found by looking the path up. -/
theorem locate_of_stat {follow : Bool} {p : Path} {f : Found} (hstat : t.stat follow p = .ok f) :
    t.locate follow p = .ok f ∧ f.entry ≠ none := by
  unfold stat at hstat
  split at hstat
  · cases hstat
  · cases hstat
  · rename_i found hne hlocate
    obtain rfl := Except.ok.inj hstat
    obtain ⟨location, entry⟩ := found
    refine ⟨hlocate, ?_⟩
    rintro rfl
    exact hne location rfl

/-- What a path leads to is found by looking the path up. -/
theorem exists_of_realLocation {p : Path} {l : Location} (hreal : t.realLocation p = .ok l) :
    ∃ e, t.locate true p = .ok ⟨l, some e⟩ := by
  unfold realLocation at hreal
  cases hstat : t.stat true p with
  | error e =>
    rw [hstat] at hreal
    cases hreal
  | ok f =>
    rw [hstat] at hreal
    obtain ⟨location, entry⟩ := f
    obtain rfl : location = l := Except.ok.inj hreal
    obtain ⟨hlocate, hne⟩ := locate_of_stat hstat
    obtain ⟨e, rfl⟩ := Option.ne_none_iff_exists'.mp hne
    exact ⟨e, hlocate⟩

/-- What a path leads to stands at the end of a straight way. -/
theorem Rooted.straight_of_realLocation (h : t.Rooted) {p : Path} {l : Location}
    (hreal : t.realLocation p = .ok l) : t.Straight l ∧ ∃ e, t.get? l = some e := by
  obtain ⟨e, hlocate⟩ := exists_of_realLocation hreal
  have hgoes := walk_goesOn h true (get?_root t) (walk_of_locate hlocate)
  exact ⟨h.straight hgoes.entry hgoes.ne_link, e, hgoes.entry⟩

/-- If a path leads to some place, and with one more name, with which it is not too long, to
nothing, then there is nothing of that name in the place. -/
theorem WellFormed.get?_eq_none_of_not_hasEntry (h : t.WellFormed) {p : Path} {l : Location}
    (hreal : t.realLocation p = .ok l) {c : String} (hshort : Path.byteLength (p ++ [c]) ≤ maxPath)
    (hentry : t.hasEntry (p ++ [c]) = false) : t.get? (l ++ [c]) = none := by
  -- Something there would be found: its name is one, and what it stands in is a directory.
  by_contra hne
  obtain ⟨e', he'⟩ := Option.ne_none_iff_exists'.mp hne
  obtain ⟨hplain, hlength, hnul⟩ := h.name l c e' he'
  obtain ⟨e, hlocate⟩ := exists_of_realLocation hreal
  unfold locate fromRoot at hlocate
  split_ifs at hlocate with hnuls
  have hgoes := walk_goesOn h.rooted false (get?_root t) hlocate
  obtain rfl : e = .dir := Option.some.inj (hgoes.entry.symm.trans (h.rooted l c e' he'))
  obtain ⟨links, hlookup⟩ := hgoes.dir rfl
  have hlocate' : t.locate false (p ++ [c]) = t.walk false links l [c] := by
    have hnuls' : ¬ ((p ++ [c]).any fun c => c.toList.contains '\x00') = true := by
      simp only [List.any_append, Bool.or_eq_true, not_or]
      exact ⟨hnuls, by simpa using hnul⟩
    rw [locate, fromRoot, if_neg hnuls', if_neg (Nat.not_lt.mpr hshort)]
    exact hlookup [c] (List.cons_ne_nil c [])
  have hwalk : t.walk false links l [c] = .ok ⟨l ++ [c], some e'⟩ := by
    rw [walk_last hplain hlength fun _ _ => rfl, he']
  rw [hasEntry, stat, hlocate', hwalk] at hentry
  exact Bool.noConfusion hentry

/-! ### Missing places -/

/-- A component that came to something comes to the same when a directory is made elsewhere. -/
theorem step_put {q dir : Location} {c : String} (hq : t.get? q = none)
    (hstep : t.step dir c ≠ .missing) : (t.put q .dir).step dir c = t.step dir c := by
  unfold step at hstep ⊢
  split_ifs at hstep ⊢
  · rfl
  · rfl
  · rfl
  · cases hhere : t.get? (dir ++ [c]) with
    | none =>
      rw [hhere] at hstep
      exact absurd rfl hstep
    | some e => rw [get?_put_of_some hq hhere]

theorem step_put_self {dir : Location} {c : String} (hstep : t.step dir c = .missing) :
    (t.put (dir ++ [c]) .dir).step dir c = .dir := by
  unfold step at hstep ⊢
  split_ifs at hstep ⊢
  rw [get?_put, if_neg (List.concat_ne_nil c dir), if_pos rfl]
  rfl

theorem walk_blank_append {follow : Bool} {links : Nat} {dir : Location} {p : Path}
    (hblank : p.all (· = "") = true) (rest : Path) :
    t.walk follow links dir (p ++ rest) = t.walk follow links dir rest := by
  induction p with
  | nil => rfl
  | cons c p ih =>
    rw [List.all_cons, Bool.and_eq_true, decide_eq_true_eq] at hblank
    rw [List.cons_append, walk_of_blank (Or.inl hblank.1), ih hblank.2]

/-- How a lookup of a path that led to nothing goes on once there is a directory. -/
structure Continues (t : FileTree) (follow : Bool) (lookup : Path → Except FileError Found)
    (q : Location) : Prop where
  parent : t.get? q.dropLast = some .dir
  lookup : ∃ links, ∀ rest, rest ≠ [] → lookup rest = (t.put q .dir).walk follow links q rest

/-- **A lookup that ends at a missing place goes on from there** once a directory is made. -/
theorem walk_continues (h : t.Rooted) (follow : Bool) {links : Nat} {dir q : Location}
    (hdir : t.get? dir = some .dir) (hq : t.get? q = none) {p : Path}
    (hwalk : t.walk false links dir p = .ok ⟨q, none⟩) :
    t.Continues follow (fun rest => (t.put q .dir).walk follow links dir (p ++ rest)) q := by
  induction links, dir, p using walk_induction with
  | nil links dir =>
    rw [walk_nil] at hwalk
    obtain ⟨rfl, -⟩ := Found.mk.inj (Except.ok.inj hwalk)
    rw [hq] at hdir
    cases hdir
  | cons links dir c p ih hjump =>
    rw [walk_cons] at hwalk
    simp only [List.cons_append, walk_cons]
    -- The missing place is the only one at which the trees differ.
    by_cases hmissing : t.step dir c = .missing
    · simp only [hmissing] at hwalk
      split at hwalk
      · rename_i hall
        obtain ⟨rfl, -⟩ := Found.mk.inj (Except.ok.inj hwalk)
        refine ⟨by rwa [List.dropLast_concat], links, fun rest _ => ?_⟩
        rw [step_put_self hmissing]
        exact walk_blank_append hall rest
      · cases hwalk
    simp only [step_put hq hmissing]
    cases hstep : t.step dir c <;> simp only [hstep] at hwalk ⊢
    case stay => exact ih _ hdir hwalk
    case up => exact ih _ (h.get?_dropLast hdir) hwalk
    case tooLong => cases hwalk
    case missing => exact absurd hstep hmissing
    case dir => exact ih _ (get?_of_step hstep) hwalk
    case file content mode => split at hwalk <;> cases hwalk
    case link target =>
      split at hwalk
      · cases hwalk
      cases links with
      | zero => cases hwalk
      | succ links =>
        obtain ⟨hparent, links', hlookup⟩ :=
          hjump links rfl _ _ (get?_base hdir target) hwalk
        refine ⟨hparent, links', fun rest hrest => ?_⟩
        rw [if_neg fun hcontra => hrest (List.append_eq_nil_iff.mp hcontra.1).2,
          ← hlookup rest hrest, List.append_assoc]
        rfl

/-- A path that is too long to be looked up leads to nothing. -/
theorem hasEntry_of_long {p : Path} (hlong : maxPath < Path.byteLength p) :
    t.hasEntry p = false ∧ t.isLink p = false := by
  have hstat : ∃ e, t.stat false p = .error e := by
    unfold stat locate fromRoot
    rw [if_pos hlong]
    split_ifs <;> exact ⟨_, rfl⟩
  obtain ⟨e, hstat⟩ := hstat
  rw [hasEntry, isLink, hstat]
  exact ⟨rfl, rfl⟩

/-! ### Links in the last place -/

theorem exists_walk_false {links : Nat} {dir : Location} {p : Path} {l : Location} {e : Entry}
    (hwalk : t.walk true links dir p = .ok ⟨l, some e⟩) :
    ∃ l e, t.walk false links dir p = .ok ⟨l, some e⟩ := by
  induction links, dir, p using walk_induction with
  | nil links dir =>
    rw [walk_nil] at hwalk ⊢
    exact ⟨l, e, hwalk⟩
  | cons links dir c p ih hjump =>
    rw [walk_cons] at hwalk ⊢
    cases hstep : t.step dir c <;> simp only [hstep] at hwalk ⊢
    case stay => exact ih _ hwalk
    case up => exact ih _ hwalk
    case tooLong => cases hwalk
    case missing => split at hwalk <;> cases hwalk
    case dir => exact ih _ hwalk
    case file content mode => exact ⟨l, e, hwalk⟩
    -- A link at the end of the path is itself what the path leads to.
    case link target =>
      rw [if_neg fun hcontra => Bool.noConfusion hcontra.2] at hwalk
      split
      · exact ⟨_, _, rfl⟩
      cases links with
      | zero => cases hwalk
      | succ links => exact hjump links rfl _ _ hwalk

/-- A path that leads to an entry leads to one as well when a final link counts by itself. -/
theorem exists_locate_false {p : Path} {l : Location} {e : Entry}
    (hlocate : t.locate true p = .ok ⟨l, some e⟩) :
    ∃ l e, t.locate false p = .ok ⟨l, some e⟩ := by
  unfold locate fromRoot at hlocate ⊢
  split_ifs at hlocate ⊢
  exact exists_walk_false hlocate

/-- A path that leads to what is no link leads there as well when links are followed. -/
theorem walk_true_of_walk_false {links : Nat} {dir : Location} {p : Path} {l : Location} {e : Entry}
    (hlink : ∀ target, e ≠ .link target) (hwalk : t.walk false links dir p = .ok ⟨l, some e⟩) :
    t.walk true links dir p = .ok ⟨l, some e⟩ := by
  induction links, dir, p using walk_induction with
  | nil links dir =>
    rw [walk_nil] at hwalk ⊢
    exact hwalk
  | cons links dir c p ih hjump =>
    rw [walk_cons] at hwalk ⊢
    cases hstep : t.step dir c <;> simp only [hstep] at hwalk ⊢
    case stay => exact ih _ hwalk
    case up => exact ih _ hwalk
    case tooLong => cases hwalk
    case missing => split at hwalk <;> cases hwalk
    case dir => exact ih _ hwalk
    case file content mode => exact hwalk
    case link target =>
      rw [if_neg fun hcontra => Bool.noConfusion hcontra.2]
      split at hwalk
      · -- The lookup would have ended at the link.
        obtain ⟨-, hentry⟩ := Found.mk.inj (Except.ok.inj hwalk)
        exact absurd (Option.some.inj hentry).symm (hlink target)
      cases links with
      | zero => cases hwalk
      | succ links => exact hjump links rfl _ _ hwalk

/-! ### Files to be written -/

section Writing

variable {links : Nat} {dir q : Location} {p : Path} {c : String} {o : Option Entry}

@[simp] theorem walkToWrite_nil : t.walkToWrite links dir [] = .ok ⟨dir, t.get? dir⟩ := by
  cases links <;> rfl

/-- What is found to be written is found in any case. -/
theorem walk_of_walkToWrite {f : Found} (hwalk : t.walkToWrite links dir p = .ok f) :
    t.walk true links dir p = .ok f := by
  induction links, dir, p using walk_induction with
  | nil links dir => cases links <;> exact hwalk
  | cons links dir c p ih hjump =>
    rw [walkToWrite, walkThrough_cons] at hwalk
    rw [walk_cons]
    split at hwalk
    · cases hwalk
    cases hstep : t.step dir c <;> simp only [hstep] at hwalk ⊢
    case stay => exact ih _ hwalk
    case up => exact ih _ hwalk
    case tooLong => cases hwalk
    case missing => exact hwalk
    case dir => exact ih _ hwalk
    case file content mode => exact hwalk
    case link target =>
      rw [if_neg fun hcontra => Bool.noConfusion hcontra.2] at hwalk ⊢
      cases links with
      | zero => cases hwalk
      | succ links => exact hjump links rfl _ _ hwalk

theorem locate_of_locateToWrite {f : Found} (hlocate : t.locateToWrite p = .ok f) :
    t.locate true p = .ok f := by
  unfold locateToWrite fromRoot at hlocate
  unfold locate fromRoot
  split_ifs at hlocate ⊢
  exact walk_of_walkToWrite hlocate

/-- Where a slash ends a path, only a directory is found. -/
theorem eq_dir_of_slash (h : t.Rooted) (hdir : t.get? dir = some .dir) {e : Entry}
    (hslash : p.getLast? = some "") (hwalk : t.walk true links dir p = .ok ⟨q, some e⟩) :
    e = .dir := by
  induction links, dir, p using walk_induction with
  | nil links dir => cases hslash
  | cons links dir c p ih hjump =>
    rcases List.eq_nil_or_concat p with rfl | ⟨front, last, rfl⟩
    · obtain rfl : c = "" := Option.some.inj hslash
      rw [walk_of_blank (Or.inl rfl), walk_nil, hdir] at hwalk
      exact (Option.some.inj (Found.mk.inj (Except.ok.inj hwalk)).2).symm
    · rw [List.concat_eq_append] at *
      have hrest : (front ++ [last]).getLast? = some "" := by
        rw [← hslash, List.getLast?_concat, ← List.cons_append, List.getLast?_concat]
      have hne : front ++ [last] ≠ [] := List.concat_ne_nil last front
      rw [walk_cons] at hwalk
      cases hstep : t.step dir c <;> simp only [hstep] at hwalk
      case stay => exact ih _ hdir hrest hwalk
      case up => exact ih _ (h.get?_dropLast hdir) hrest hwalk
      case tooLong => cases hwalk
      case missing => split at hwalk <;> cases hwalk
      case dir => exact ih _ (get?_of_step hstep) hrest hwalk
      case file content mode =>
        rw [if_neg hne] at hwalk
        cases hwalk
      case link target =>
        rw [if_neg fun hcontra => hne hcontra.1] at hwalk
        cases links with
        | zero => cases hwalk
        | succ links =>
          refine hjump links rfl _ _ (get?_base hdir target) ?_ hwalk
          rw [List.getLast?_append, hrest]
          rfl

/-- A file that is found is found to be written. -/
theorem walkToWrite_of_file (h : t.Rooted) (hdir : t.get? dir = some .dir) {content : Content}
    {mode : Nat} (hwalk : t.walk true links dir p = .ok ⟨q, some (.file content mode)⟩) :
    t.walkToWrite links dir p = .ok ⟨q, some (.file content mode)⟩ := by
  induction links, dir, p using walk_induction with
  | nil links dir => cases links <;> exact hwalk
  | cons links dir c p ih hjump =>
    have hfree : ¬ Slashed c p := by
      intro hslashed
      have hslash : (c :: p).getLast? = some "" := by
        rw [List.getLast?_cons, hslashed.getLast?_eq]
        rfl
      cases eq_dir_of_slash h hdir hslash hwalk
    rw [walkToWrite, walkThrough_cons, if_neg fun hcontra => hfree hcontra.2]
    rw [walk_cons] at hwalk
    cases hstep : t.step dir c <;> simp only [hstep] at hwalk ⊢
    case stay => exact ih _ hdir hwalk
    case up => exact ih _ (h.get?_dropLast hdir) hwalk
    case tooLong => cases hwalk
    case missing => exact hwalk
    case dir => exact ih _ (get?_of_step hstep) hwalk
    case file content mode => exact hwalk
    case link target =>
      rw [if_neg fun hcontra => Bool.noConfusion hcontra.2] at hwalk ⊢
      cases links with
      | zero => cases hwalk
      | succ links => exact hjump links rfl _ _ (get?_base hdir target) hwalk

theorem locateToWrite_of_file (h : t.Rooted) {content : Content} {mode : Nat}
    (hlocate : t.locate true p = .ok ⟨q, some (.file content mode)⟩) :
    t.locateToWrite p = .ok ⟨q, some (.file content mode)⟩ := by
  unfold locate fromRoot at hlocate
  unfold locateToWrite fromRoot
  split_ifs at hlocate ⊢
  exact walkToWrite_of_file h (get?_root t) hlocate

/-- What a path that ends with a name leads to is found to be written, if it is no link. -/
theorem walkToWrite_of_name (hc : c ≠ "") (hlast : p.getLast? = some c)
    (hlink : ∀ target, o ≠ some (.link target)) (hwalk : t.walk false links dir p = .ok ⟨q, o⟩) :
    t.walkToWrite links dir p = .ok ⟨q, o⟩ := by
  induction links, dir, p using walk_induction with
  | nil links dir => cases hlast
  | cons links dir b p ih hjump =>
    have hrest (hne : p ≠ []) : p.getLast? = some c := by
      rw [← hlast, List.getLast?_cons, List.getLast?_eq_some_getLast hne]
      rfl
    have hfree : ¬ Slashed b p := fun hslashed =>
      hc (Option.some.inj ((hrest hslashed.2.2.1).symm.trans hslashed.getLast?_eq))
    rw [walkToWrite, walkThrough_cons, if_neg fun hcontra => hfree hcontra.2]
    rw [walk_cons] at hwalk
    by_cases hnil : p = []
    · -- Whatever stands at the end ends the lookup.
      subst hnil
      cases hstep : t.step dir b <;> simp only [hstep] at hwalk ⊢
      case stay => exact walkToWrite_nil.trans (walk_nil.symm.trans hwalk)
      case up => exact walkToWrite_nil.trans (walk_nil.symm.trans hwalk)
      case tooLong => cases hwalk
      case missing => exact hwalk
      case dir => exact walkToWrite_nil.trans (walk_nil.symm.trans hwalk)
      case file content mode => exact hwalk
      case link target =>
        rw [if_pos ⟨trivial, rfl⟩] at hwalk
        exact absurd (Found.mk.inj (Except.ok.inj hwalk)).2.symm (hlink target)
    · cases hstep : t.step dir b <;> simp only [hstep] at hwalk ⊢
      case stay => exact ih _ (hrest hnil) hwalk
      case up => exact ih _ (hrest hnil) hwalk
      case tooLong => cases hwalk
      case missing => exact hwalk
      case dir => exact ih _ (hrest hnil) hwalk
      case file content mode => exact hwalk
      case link target =>
        rw [if_neg fun hcontra => hnil hcontra.1] at hwalk
        rw [if_neg fun hcontra => hnil hcontra.1]
        cases links with
        | zero => cases hwalk
        | succ links =>
          refine hjump links rfl _ _ ?_ hwalk
          rw [List.getLast?_append, hrest hnil]
          rfl

theorem locateToWrite_of_name (hc : c ≠ "") (hlink : ∀ target, o ≠ some (.link target))
    (hlocate : t.locate false (p ++ [c]) = .ok ⟨q, o⟩) :
    t.locateToWrite (p ++ [c]) = .ok ⟨q, o⟩ := by
  unfold locate fromRoot at hlocate
  unfold locateToWrite fromRoot
  split_ifs at hlocate ⊢
  exact walkToWrite_of_name hc List.getLast?_concat hlink hlocate

end Writing

/-! ### Failures -/

/-- Why a lookup of components fails. -/
theorem error_of_walk {follow : Bool} {links : Nat} {dir : Location} {p : Path} {error : FileError}
    (hwalk : t.walk follow links dir p = .error error) :
    error = .notFound ∨ error = .tooManyLinks ∨ error = .notADirectory ∨ error = .nameTooLong := by
  induction links, dir, p using walk_induction with
  | nil links dir =>
    rw [walk_nil] at hwalk
    cases hwalk
  | cons links dir c p ih hjump =>
    rw [walk_cons] at hwalk
    cases hstep : t.step dir c <;> simp only [hstep] at hwalk
    case stay => exact ih _ hwalk
    case up => exact ih _ hwalk
    case tooLong => exact Or.inr (Or.inr (Or.inr (Except.error.inj hwalk).symm))
    case missing =>
      split at hwalk
      · cases hwalk
      · exact Or.inl (Except.error.inj hwalk).symm
    case dir => exact ih _ hwalk
    case file content mode =>
      split at hwalk
      · cases hwalk
      · exact Or.inr (Or.inr (Or.inl (Except.error.inj hwalk).symm))
    case link target =>
      split at hwalk
      · cases hwalk
      cases links with
      | zero => exact Or.inr (Or.inl (Except.error.inj hwalk).symm)
      | succ links => exact hjump links rfl _ _ hwalk

theorem exists_of_hasEntry {p : Path} (hentry : t.hasEntry p = true) :
    ∃ l e, t.locate false p = .ok ⟨l, some e⟩ ∧ t.stat false p = .ok ⟨l, some e⟩ := by
  unfold hasEntry at hentry
  cases hstat : t.stat false p with
  | error e =>
    rw [hstat] at hentry
    cases hentry
  | ok f =>
    obtain ⟨hlocate, hne⟩ := locate_of_stat hstat
    obtain ⟨l, o⟩ := f
    obtain ⟨e, rfl⟩ := Option.ne_none_iff_exists'.mp hne
    exact ⟨l, e, hlocate, rfl⟩

/-- **What leads to something and has no real location is a link** that is followed to nothing, too
often, through what is no directory, or along a name that is too long. -/
theorem of_realLocation_error {p : Path} (hentry : t.hasEntry p = true) {error : FileError}
    (hreal : t.realLocation p = .error error) : t.isLink p = true ∧
      (error = .notFound ∨ error = .tooManyLinks ∨ error = .notADirectory ∨
        error = .nameTooLong) := by
  obtain ⟨l, e, hlocate, hstat⟩ := exists_of_hasEntry hentry
  have hwalk := walk_of_locate hlocate
  have hsame : t.locate true p = t.walk true maxLinks [] p := by
    unfold locate fromRoot at hlocate ⊢
    split_ifs at hlocate ⊢
    rfl
  have hfails : ∀ f, t.locate true p = .ok f → f.entry = none := by
    intro f hf
    by_contra hne
    obtain ⟨l', o⟩ := f
    obtain ⟨e', rfl⟩ := Option.ne_none_iff_exists'.mp hne
    rw [realLocation, stat, hf] at hreal
    cases hreal
  constructor
  · unfold isLink
    rw [hstat]
    cases e with
    | link target => rfl
    | dir =>
      cases hfails _ (hsame.trans (walk_true_of_walk_false (fun _ => Entry.noConfusion) hwalk))
    | file content mode =>
      cases hfails _ (hsame.trans (walk_true_of_walk_false (fun _ => Entry.noConfusion) hwalk))
  · cases htrue : t.locate true p with
    | error e' =>
      rw [realLocation, stat, htrue] at hreal
      obtain rfl : e' = error := Except.error.inj hreal
      exact error_of_walk (hsame.symm.trans htrue)
    | ok f =>
      have hnone := hfails f htrue
      obtain ⟨l', o⟩ := f
      obtain rfl : o = none := hnone
      rw [realLocation, stat, htrue] at hreal
      exact Or.inl (Except.error.inj hreal).symm

end FileTree

end MeshNode
