import MeshNode.Files.Tree

/-!
# Changes of a file tree

What has to be done to a file tree to make another one of it: every location at which the two
differ, with what the newer one has there. What is gone is named first, and new directories come
before what is in them, since a tree lists what was put last first.
-/

namespace MeshNode.FileTree

/-- The locations at which a newer tree differs from an older one, and what is there now. -/
def changes (older newer : FileTree) : List (Location × Option Entry) :=
  let gone := older.entries.filterMap fun e =>
    if newer.get? e.1 = none then some (e.1, none) else none
  let there := newer.entries.reverse.filterMap fun e =>
    if older.get? e.1 = newer.get? e.1 then none else some (e.1, newer.get? e.1)
  gone ++ there

private theorem exists_of_lookup {entries : List (Location × Entry)} {l : Location} {e : Entry}
    (h : entries.lookup l = some e) : (l, e) ∈ entries := by
  induction entries with
  | nil => simp at h
  | cons p rest ih =>
    obtain ⟨k, v⟩ := p
    by_cases heq : l = k
    · subst heq
      simp at h
      simp [h]
    · have hne : (l == k) = false := by simpa using heq
      simp only [List.lookup_cons, hne] at h
      exact List.mem_cons_of_mem _ (ih h)

/-- Every difference is named. -/
theorem mem_changes {older newer : FileTree} {l : Location} (h : older.get? l ≠ newer.get? l) :
    (l, newer.get? l) ∈ older.changes newer := by
  have hroot : l ≠ [] := by rintro rfl; simp [get?] at h
  rw [changes, List.mem_append]
  cases hn : newer.get? l with
  | some e =>
    have hmem : (l, e) ∈ newer.entries := exists_of_lookup (by simpa [get?, hroot] using hn)
    refine Or.inr (List.mem_filterMap.2 ⟨(l, e), List.mem_reverse.2 hmem, ?_⟩)
    rw [hn] at h
    simp [hn, h]
  | none =>
    cases ho : older.get? l with
    | none => exact absurd (ho.trans hn.symm) h
    | some e =>
      have hmem : (l, e) ∈ older.entries := exists_of_lookup (by simpa [get?, hroot] using ho)
      exact Or.inl (List.mem_filterMap.2 ⟨(l, e), hmem, by simp [hn]⟩)

end MeshNode.FileTree
