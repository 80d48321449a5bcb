import MeshNode.Proofs.Files.Replacement
import MeshNode.Proofs.Trust.Document

/-!
# Saving and opening a trust store

A save that succeeds leaves the document of the new records in the file, wherever links lead on the
way to it (`read_of_save`). A file that holds the document of records is opened as these records
(`open_of_read`), and whatever a file holds, what is known of a document is known of a store that is
opened from it (`of_open`).
-/

namespace MeshNode

open MeshNode.Path (Plain)

namespace TrustStore

/-- The names of the file and of its draft. -/
def names (path : Path) : List String := [path, draft path].filterMap List.getLast?

/-- The draft stands beside the file, under a name of its own. -/
theorem exists_draft_eq (p : Path) {c : String} (hc : Plain c) :
    ∃ d, Plain d ∧ draft (p ++ [c]) = p ++ [d] := by
  have hdraft : ∃ stem, draft (p ++ [c]) = p ++ [stem ++ "." ++ "json.tmp"] := by
    rw [draft, Path.withExtension, List.getLast?_concat]
    simp only [if_neg hc.2.2, List.dropLast_concat]
    exact ⟨_, rfl⟩
  obtain ⟨stem, hdraft⟩ := hdraft
  have hne {d : String} (hd : d.length < 9) : stem ++ "." ++ "json.tmp" ≠ d := by
    rintro rfl
    have hdot : ".".length = 1 := rfl
    have hextension : "json.tmp".length = 8 := rfl
    rw [String.length_append, String.length_append] at hd
    omega
  exact ⟨_, ⟨hne (by decide), hne (by decide), hne (by decide)⟩, hdraft⟩

/-- A flush that succeeds has written the draft and moved it. -/
theorem exists_of_flush {path : Path} {records : Keyed TrustRecord} {t t' : FileTree}
    (h : (flush path records).run t = (.ok (), t')) :
    ∃ t₁ t₂, Files.run (Files.makeDirs path.dropLast) t = (.ok (), t₁) ∧
      t₁.write (draft path) (.bytes (document records)) = .ok t₂ ∧
      t₂.rename (draft path) path = .ok t' := by
  unfold flush at h
  rw [Files.run_bind] at h
  rcases hdirs : Files.run (Files.makeDirs path.dropLast) t with ⟨_ | ⟨⟩, t₁⟩
  · rw [hdirs] at h
    cases h
  simp only [hdirs, Files.run_bind, Files.run_writeBytes, Files.run_perform] at h
  cases hwrite : t₁.write (draft path) (.bytes (document records)) with
  | error e =>
    rw [hwrite] at h
    cases h
  | ok t₂ =>
    simp only [hwrite] at h
    cases hrename : t₂.rename (draft path) path with
    | error e =>
      rw [hrename] at h
      cases h
    | ok t₃ =>
      rw [hrename] at h
      obtain rfl : t₃ = t' := (Prod.mk.inj h).2
      exact ⟨t₁, t₂, rfl, hwrite, hrename⟩

/-- After a flush the file holds the document of the records. -/
theorem read_of_flush {path : Path} (hname : ∀ c ∈ path.getLast?, Plain c)
    {records : Keyed TrustRecord} {t t' : FileTree} (h : t.Tidy (names path))
    (hflush : (flush path records).run t = (.ok (), t')) :
    t'.Tidy (names path) ∧ t'.read path = .ok (.bytes (document records)) := by
  obtain ⟨t₁, t₂, hdirs, hwrite, hrename⟩ := exists_of_flush hflush
  have htidy := h.run_makeDirs path.dropLast
  rw [hdirs] at htidy
  rcases List.eq_nil_or_concat path with rfl | ⟨p, c, rfl⟩
  · -- The root is a directory, so that nothing is written there.
    cases hwrite
  rw [List.concat_eq_append] at *
  have hc : Plain c := hname c (by simp)
  obtain ⟨d, hd, hdraft⟩ := exists_draft_eq p hc
  have hnames : names (p ++ [c]) = [c, d] := by simp [names, hdraft]
  rw [hdraft] at hwrite hrename
  rw [hnames] at htidy ⊢
  exact FileTree.read_of_rename htidy hd hc (List.mem_cons_of_mem c List.mem_cons_self)
    List.mem_cons_self hwrite hrename

/-- A save over a file is a flush of the records with the new one. -/
theorem run_save {s : TrustStore} {path : Path} (hpath : s.path = some path) (node : String)
    (record : TrustRecord) (t : FileTree) :
    (s.save node record).run t =
      match (flush path (s.records.insert node record)).run t with
      | (.ok (), t') => (.ok { s with records := s.records.insert node record }, t')
      | (.error e, t') => (.error (.file e), t') := by
  unfold save
  simp only [hpath, Files.run_bind, Files.run_mapError]
  rcases (flush path (s.records.insert node record)).run t with ⟨_ | ⟨⟩, t'⟩ <;> rfl

/-- After a save the file holds the document of the records. -/
theorem read_of_save {path : Path} (hname : ∀ c ∈ path.getLast?, Plain c) {s store : TrustStore}
    (hpath : s.path = some path) {node : String} {record : TrustRecord} {t t' : FileTree}
    (h : t.Tidy (names path)) (hsave : (s.save node record).run t = (.ok store, t')) :
    t'.Tidy (names path) ∧ t'.read path = .ok (.bytes (document store.records)) := by
  rw [run_save hpath] at hsave
  rcases hflush : Files.run (flush path (s.records.insert node record)) t with ⟨_ | ⟨⟩, t₁⟩
  · rw [hflush] at hsave
    cases hsave
  · rw [hflush] at hsave
    obtain ⟨hstore, rfl⟩ := Prod.mk.inj hsave
    obtain rfl := Except.ok.inj hstore
    exact read_of_flush hname h hflush

/-- What is known of a store that was opened. -/
theorem of_open {path : Path} {t : FileTree} {store : TrustStore}
    (h : TrustStore.open path t = .ok store) :
    store.path = some path ∧ store.records.Sorted ∧ ∀ p ∈ store.records, p.2.Timed ∧ p.2.Counted ∧
      (p.2.firstSeen.runtimeInfo.Integral → p.2.firstSeen.runtimeInfo.Readable 124) := by
  unfold TrustStore.open at h
  split at h
  · rename_i content hread
    cases hrecords : ofDocument content.toBytes with
    | error e =>
      rw [hrecords] at h
      cases h
    | ok records =>
      rw [hrecords] at h
      obtain rfl := Except.ok.inj h
      exact ⟨rfl, of_ofDocument hrecords⟩
  · obtain rfl := Except.ok.inj h
    exact ⟨rfl, List.Pairwise.nil, fun _ hp => absurd hp List.not_mem_nil⟩
  · cases h

/-- A file that holds the document of records is opened as these records. -/
theorem open_of_read {path : Path} {t : FileTree} {records : Keyed TrustRecord}
    (hread : t.read path = .ok (.bytes (document records))) (hsorted : records.Sorted)
    (h : ∀ p ∈ records, p.2.Writable) : TrustStore.open path t = .ok ⟨records, some path⟩ := by
  have hrecords := ofDocument_document hsorted h
  simp only [TrustStore.open, hread, Content.toBytes, hrecords]
  rfl

end TrustStore

end MeshNode
