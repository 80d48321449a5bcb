import Mathlib.Data.List.Induction
import Mathlib.Tactic.SplitIfs
import MeshNode.Files.Lookup

/-!
# Well-formed trees

In a well-formed tree every entry stands in a directory and has a name that can be looked up. So
there are directories on the way to whatever is there, and nothing is below what is not there.

In a proper tree no name holds a slash either, so that the text of a path tells its names.

What an operation changes is told by the directory below which all of it is (`SameOutside`).
-/

namespace MeshNode

namespace Path

/-- Not one of the components with a meaning of their own. -/
def Plain (c : String) : Prop := c ≠ "" ∧ c ≠ "." ∧ c ≠ ".."

/-- A name that an entry can have. -/
def IsName (c : String) : Prop :=
  Plain c ∧ c.utf8ByteSize ≤ FileTree.maxName ∧ '\x00' ∉ c.toList

instance (c : String) : Decidable (Plain c) := inferInstanceAs (Decidable (_ ∧ _))

instance (c : String) : Decidable (IsName c) := inferInstanceAs (Decidable (_ ∧ _))

/-- Names without slashes are the pieces of the text that slashes make of them. -/
theorem pieces_intercalate {names : List String} (hne : names ≠ [])
    (hslash : ∀ c ∈ names, '/' ∉ c.toList) : pieces ("/".intercalate names) = names := by
  have hsplit : ("/".intercalate names).toList.splitOn '/' = names.map String.toList := by
    rw [String.toList_intercalate]
    refine List.splitOn_intercalate '/' (fun cs hcs => ?_) (by simpa using hne)
    obtain ⟨c, hc, rfl⟩ := List.mem_map.mp hcs
    exact hslash c hc
  rw [pieces, hsplit, List.map_map]
  exact (List.map_congr_left fun c _ => String.ofList_toList).trans (List.map_id names)

private theorem not_mem_of_mem_splitOn {cs part : List Char} (h : part ∈ cs.splitOn '/') :
    '/' ∉ part := by
  induction cs generalizing part with
  | nil =>
    obtain rfl := List.mem_singleton.mp h
    exact List.not_mem_nil
  | cons c cs ih =>
    rw [List.splitOn_cons_eq_if_modifyHead] at h
    split_ifs at h with hc
    · rcases List.mem_cons.mp h with rfl | h
      · exact List.not_mem_nil
      · exact ih h
    · rcases hparts : cs.splitOn '/' with _ | ⟨first, rest⟩
      · rw [hparts] at h
        exact absurd h List.not_mem_nil
      rw [hparts] at ih h
      rcases List.mem_cons.mp h with rfl | h
      · intro hmem
        rcases List.mem_cons.mp hmem with rfl | hmem
        · exact hc (beq_self_eq_true _)
        · exact ih List.mem_cons_self hmem
      · exact ih (List.mem_cons_of_mem first h)

/-- No piece of a text holds a slash. -/
theorem slash_of_mem_pieces {text c : String} (hc : c ∈ pieces text) : '/' ∉ c.toList := by
  obtain ⟨cs, hcs, rfl⟩ := List.mem_map.mp hc
  rw [String.toList_ofList]
  exact not_mem_of_mem_splitOn hcs

theorem textBelow_append (base names : Path) :
    textBelow base (base ++ names) = "/".intercalate names := by
  have hbegins : base.isPrefixOf (base ++ names) = true := by simp
  rw [textBelow, if_pos hbegins, List.drop_left]

end Path

namespace FileTree

open MeshNode.Path (Plain IsName)

/-- Every entry stands in a directory. -/
def Rooted (t : FileTree) : Prop := ∀ l c e, t.get? (l ++ [c]) = some e → t.get? l = some .dir

/-- Every entry stands in a directory and has a name. -/
structure WellFormed (t : FileTree) : Prop where
  rooted : t.Rooted
  name : ∀ l c e, t.get? (l ++ [c]) = some e → IsName c

/-- A well-formed tree in which no name holds a slash, so that names can be told apart in the text
of a path. -/
structure Proper (t : FileTree) : Prop extends t.WellFormed where
  slash : ∀ l c e, t.get? (l ++ [c]) = some e → '/' ∉ c.toList

/-- No link stands at the location or on the way to it. -/
def Straight (t : FileTree) (l : Location) : Prop :=
  ∀ p, p <+: l → ∀ target, t.get? p ≠ some (.link target)

variable {t t' : FileTree} {root q : Location}

@[simp] theorem get?_root (t : FileTree) : t.get? [] = some .dir := rfl

/-- What is not a directory is not at the root. -/
theorem ne_root_of_get?_ne {t : FileTree} {l : Location} (h : t.get? l ≠ some .dir) : l ≠ [] := by
  rintro rfl
  exact h (get?_root t)

/-- What is found below the root is one of the entries that the tree is made of. -/
theorem mem_entries_of_get? {l : Location} {e : Entry} (hne : l ≠ []) (h : t.get? l = some e) :
    (l, e) ∈ t.entries := by
  rw [get?, if_neg hne, List.lookup_eq_some_iff] at h
  obtain ⟨before, after, hentries, -⟩ := h
  rw [hentries]
  exact List.mem_append_right before List.mem_cons_self

/-! ### Well-formed trees -/

/-- There are directories on the way to an entry. -/
theorem Rooted.get?_eq_dir (h : t.Rooted) {p l : Location} {e : Entry}
    (hl : t.get? l = some e) (hbegins : p <+: l) (hne : p ≠ l) : t.get? p = some .dir := by
  induction l using List.reverseRecOn generalizing e with
  | nil => exact absurd (List.prefix_nil.mp hbegins) hne
  | append_singleton l c ih =>
    have hdir := h l c e hl
    rcases List.prefix_concat_iff.mp hbegins with heq | hbegins
    · exact absurd heq hne
    · by_cases heq : p = l
      · exact heq ▸ hdir
      · exact ih hdir hbegins heq

/-- An entry that is no link stands at the end of a straight way. -/
theorem Rooted.straight (h : t.Rooted) {l : Location} {e : Entry}
    (hl : t.get? l = some e) (hlink : ∀ target, e ≠ .link target) : t.Straight l := by
  intro p hbegins target htarget
  by_cases heq : p = l
  · rw [heq, hl] at htarget
    exact hlink target (Option.some.inj htarget)
  · rw [h.get?_eq_dir hl hbegins heq] at htarget
    cases htarget

/-- Every name on the way to an entry is one that an entry can have. -/
theorem WellFormed.isName_of_mem (h : t.WellFormed) {l : Location} {e : Entry}
    (hl : t.get? l = some e) {c : String} (hc : c ∈ l) : IsName c := by
  induction l using List.reverseRecOn generalizing e with
  | nil => cases hc
  | append_singleton l d ih =>
    rcases List.mem_append.mp hc with hc | hc
    · exact ih (h.rooted l d e hl) hc
    · exact List.mem_singleton.mp hc ▸ h.name l d e hl

/-- No name on the way to an entry holds a slash. -/
theorem Proper.slash_of_mem (h : t.Proper) {l : Location} {e : Entry} (hl : t.get? l = some e)
    {c : String} (hc : c ∈ l) : '/' ∉ c.toList := by
  induction l using List.reverseRecOn generalizing e with
  | nil => cases hc
  | append_singleton l d ih =>
    rcases List.mem_append.mp hc with hc | hc
    · exact ih (h.rooted l d e hl) hc
    · exact List.mem_singleton.mp hc ▸ h.slash l d e hl

/-- There is nothing below what is not there. -/
theorem Rooted.get?_eq_none (h : t.Rooted) {p l : Location} (hp : t.get? p = none)
    (hbegins : p <+: l) : t.get? l = none := by
  by_contra hne
  obtain ⟨e, he⟩ := Option.ne_none_iff_exists'.mp hne
  have heq : p ≠ l := fun heq => hne (heq ▸ hp)
  rw [h.get?_eq_dir he hbegins heq] at hp
  cases hp

/-- The directory that holds a directory is one. -/
theorem Rooted.get?_dropLast (h : t.Rooted) {l : Location} (hl : t.get? l = some .dir) :
    t.get? l.dropLast = some .dir := by
  induction l using List.reverseRecOn with
  | nil => exact hl
  | append_singleton l c =>
    rw [List.dropLast_concat]
    exact h l c _ hl

/-- A tree is well-formed if each of the entries it is made of stands in a directory and has a
name. -/
theorem wellFormed_of_forall_mem (h : ∀ x ∈ t.entries, t.get? x.1.dropLast = some .dir ∧
    ∀ c ∈ x.1.getLast?, IsName c) : t.WellFormed := by
  have hentry (l : Location) (c : String) (e : Entry) (hl : t.get? (l ++ [c]) = some e) :
      t.get? l = some .dir ∧ IsName c := by
    obtain ⟨hdir, hname⟩ := h _ (mem_entries_of_get? (List.concat_ne_nil c l) hl)
    rw [List.dropLast_concat] at hdir
    exact ⟨hdir, hname c (by simp)⟩
  exact ⟨fun l c e hl => (hentry l c e hl).1, fun l c e hl => (hentry l c e hl).2⟩

/-- A well-formed tree is proper if no name of its entries holds a slash. -/
theorem WellFormed.proper (h : t.WellFormed)
    (hslash : ∀ x ∈ t.entries, ∀ c ∈ x.1, '/' ∉ c.toList) : t.Proper := by
  exact ⟨h, fun l c e hl => hslash _ (mem_entries_of_get? (List.concat_ne_nil c l) hl) c (by simp)⟩

theorem Straight.beginning {p l : Location} (h : t.Straight l) (hbegins : p <+: l) :
    t.Straight p := fun q hq => h q (hq.trans hbegins)

/-! ### Changes -/

/-- The trees differ at most at a location and below it. -/
def SameOutside (root : Location) (t t' : FileTree) : Prop :=
  ∀ k, ¬ root <+: k → t'.get? k = t.get? k

theorem SameOutside.refl (root : Location) (t : FileTree) : SameOutside root t t := fun _ _ => rfl

theorem SameOutside.trans {t'' : FileTree} (h : SameOutside root t t')
    (h' : SameOutside root t' t'') : SameOutside root t t'' := fun k hk =>
  (h' k hk).trans (h k hk)

theorem SameOutside.mono (h : SameOutside q t t') (hbegins : root <+: q) :
    SameOutside root t t' := fun k hk =>
  h k fun hq => hk (hbegins.trans hq)

theorem get?_put_of_ne (t : FileTree) {q k : Location} (hne : k ≠ q) (e : Entry) :
    (t.put q e).get? k = t.get? k := by
  rw [get?_put, if_neg hne]
  split
  · rename_i hroot
    rw [hroot, get?_root]
  · rfl

/-- What is put where nothing was hides nothing. -/
theorem get?_put_of_some {q k : Location} {e e' : Entry} (hq : t.get? q = none)
    (hk : t.get? k = some e) : (t.put q e').get? k = some e := by
  have hne : k ≠ q := fun heq => by rw [heq, hq] at hk; cases hk
  rw [get?_put_of_ne t hne, hk]

/-- A directory that is made in a directory stands in one. -/
theorem Rooted.put (h : t.Rooted) {q : Location} (hq : t.get? q = none)
    (hdir : t.get? q.dropLast = some .dir) : (t.put q .dir).Rooted := by
  intro l c e hl
  refine get?_put_of_some hq ?_
  rw [get?_put, if_neg (List.concat_ne_nil c l)] at hl
  split at hl
  · rename_i heq
    rw [← heq, List.dropLast_concat] at hdir
    exact hdir
  · exact h l c e hl

theorem sameOutside_put (t : FileTree) (q : Location) (e : Entry) :
    SameOutside q t (t.put q e) := by
  intro k hk
  have hne : k ≠ q := fun heq => hk (heq ▸ List.prefix_refl q)
  exact get?_put_of_ne t hne e

theorem get?_put_self (hq : q ≠ []) (e : Entry) : (t.put q e).get? q = some e := by
  rw [get?_put, if_neg hq, if_pos rfl]

end FileTree

end MeshNode
