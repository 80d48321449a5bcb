import MeshNode.Proofs.Files.Listing
import MeshNode.Proofs.Keys.Creation

/-!
# Keys of different nodes

Two nodes that ask for keys in an empty directory, one after the other, get keys of their own that
are loaded from then on, as long as their records have different files and the paths of these are
not too long (`separation`). The file is named after the node, with `_` for every character that
does not stand in file names, so different nodes may share one. Then the first of them gets its
keys, and the second is refused: the record that it finds belongs to a different node
(`not_forall_ownKeys`).
-/

namespace MeshNode.KeyCall

open FileTree (maxName maxPath)
open KeyRecord (fileName)

variable {c c' : KeyCall} {dir : Path} {d : Location} {t t' : FileTree}

/-! ### The path of a record -/

/-- The path of the record is short enough to be looked up. -/
def Fits (c : KeyCall) (dir : Path) : Prop := Path.byteLength (c.path dir) ≤ maxPath

instance (c : KeyCall) (dir : Path) : Decidable (c.Fits dir) := inferInstanceAs (Decidable (_ ≤ _))

/-- A path that is too long leads nowhere in any tree. -/
theorem exists_error_of_not_fits (hfits : ¬ c.Fits dir) (t : FileTree) :
    ∃ error, t.locate true (c.path dir) = .error error := by
  rw [FileTree.locate, FileTree.fromRoot, if_pos (Nat.lt_of_not_le hfits)]
  split_ifs <;> exact ⟨_, rfl⟩

/-- A record that is missing is looked for in the directory. -/
theorem locate_of_missing (h : t.Rooted) (hdir : t.locate true dir = .ok ⟨d, some .dir⟩)
    (hlength : c.nodeId.length ≤ 250) (hfits : c.Fits dir)
    (hmissing : t.get? (d ++ [fileName c.nodeId]) = none) (follow : Bool) :
    t.locate follow (c.path dir) = .ok ⟨d ++ [fileName c.nodeId], none⟩ := by
  have hsize : (fileName c.nodeId).utf8ByteSize ≤ maxName := by
    rw [KeyRecord.utf8ByteSize_fileName]
    exact Nat.add_le_add_right hlength 5
  have hlink (target : String) : t.get? (d ++ [fileName c.nodeId]) ≠ some (.link target) := by
    rw [hmissing]
    rintro ⟨⟩
  rw [← hmissing]
  refine FileTree.locate_concat_of_walk h (KeyRecord.plain_fileName c.nodeId) hsize
    (FileTree.walk_of_locate hdir) (fun target htarget => absurd htarget (hlink target)) ?_
  have hnuls : ¬ ((dir ++ [fileName c.nodeId]).any fun x => x.toList.contains '\x00') = true := by
    unfold FileTree.locate FileTree.fromRoot at hdir
    split_ifs at hdir with hnuls
    rw [List.any_append, Bool.or_eq_true, not_or]
    exact ⟨hnuls, by simpa using KeyRecord.nul_fileName c.nodeId⟩
  exact (if_neg hnuls).trans (if_neg (Nat.not_lt.mpr hfits))

/-! ### First calls -/

/-- No keys are answered for a record whose path is too long. -/
theorem answer_of_not_fits (h : t.Rooted) (hfits : ¬ c.Fits dir) (k : NodeKeys) :
    c.answer dir t ≠ .ok k := by
  intro hanswer
  have hexists := (of_load (rooted_tree h c dir) (load_tree h hanswer)).1
  obtain ⟨l, e, hlocate⟩ := FileTree.exists_iff.mp hexists
  obtain ⟨error, herror⟩ := exists_error_of_not_fits hfits (c.tree dir t)
  rw [herror] at hlocate
  cases hlocate

/-- **Keys are made where there is no record yet**, and the record is put in the directory. -/
theorem answer_of_missing (h : t.Rooted) (hdir : t.locate true dir = .ok ⟨d, some .dir⟩)
    (hlength : c.nodeId.length ≤ 250) (hfits : c.Fits dir)
    (hmissing : t.get? (d ++ [fileName c.nodeId]) = none) :
    c.answer dir t = .ok c.made ∧ t.Stored (c.path dir) (d ++ [fileName c.nodeId])
      (KeyRecord.entry c.made) (c.tree dir t) := by
  have hlocate := locate_of_missing h hdir hlength hfits hmissing
  have hexists : t.exists (c.path dir) = false := by
    refine Bool.eq_false_iff.mpr fun hexists => ?_
    obtain ⟨l, e, hfound⟩ := FileTree.exists_iff.mp hexists
    rw [hlocate] at hfound
    cases hfound
  have hdirs : Files.run (Files.makeDirs (c.path dir).dropLast) t = (.ok (), t) := by
    rw [show (c.path dir).dropLast = dir from List.dropLast_concat]
    exact Files.run_makeDirs_of_isDir (FileTree.isDir_of_locate hdir)
  have hplace : t.locateToWrite (c.path dir) = .ok ⟨d ++ [fileName c.nodeId], none⟩ :=
    FileTree.locateToWrite_of_name (KeyRecord.plain_fileName c.nodeId).1 (fun _ => nofun)
      (hlocate false)
  have hwrite : t.write (c.path dir) (KeyRecord.content c.made) =
      .ok (t.put (d ++ [fileName c.nodeId]) (.file (KeyRecord.content c.made) Entry.fileMode)) := by
    rw [FileTree.write, hplace]
  have hstored := h.stored_put (hmissing.symm ▸ hplace) (fun e he => by rw [hmissing] at he; cases he)
    (KeyRecord.content c.made) Entry.fileMode
  obtain ⟨t', hpersist, hstored⟩ := NodeKeys.run_persist_of_stored hdirs hwrite hstored
  obtain ⟨htree, hanswer⟩ := run_of_persist hexists hpersist
  exact ⟨hanswer, htree ▸ hstored⟩

/-! ### Second calls -/

/-- A node whose record has the file of another node's is refused. -/
theorem answer_of_shared (hnode : c.nodeId ≠ c'.nodeId)
    (hname : fileName c.nodeId = fileName c'.nodeId) {q : Location}
    (hstored : t.Stored (c.path dir) q (KeyRecord.entry c.made) t') :
    c'.answer dir t' = .error (.corrupt c'.nodeId "record belongs to a different node id") ∧
      c'.tree dir t' = t' := by
  have hpath : c.path dir = c'.path dir := by
    simp only [path, KeyRecord.path_eq, hname]
  have hfound := hstored.found
  rw [hpath] at hfound
  obtain ⟨htree, hanswer⟩ := run_of_exists (c := c') (FileTree.exists_iff.mpr ⟨q, _, hfound⟩)
  refine ⟨?_, htree⟩
  rw [hanswer, KeyRecord.load_of_entry hfound]
  exact KeyRecord.keys_of_ne hnode

/-- Two calls, one after the other, have answered keys of their own, which are loaded from then
on. -/
structure OwnKeys (dir : Path) (t : FileTree) (c c' : KeyCall) (k k' : NodeKeys) : Prop where
  answers : c.answer dir t = .ok k ∧ c'.answer dir (c.tree dir t) = .ok k'
  nodes : k.nodeId = c.nodeId ∧ k'.nodeId = c'.nodeId
  loads : NodeKeys.load (c.path dir) c.nodeId (after dir t [c, c']) = .ok k ∧
    NodeKeys.load (c'.path dir) c'.nodeId (after dir t [c, c']) = .ok k'

/-- What comes of two calls for different nodes. -/
structure Separation (dir : Path) (t : FileTree) (c c' : KeyCall) : Prop where
  /-- Both get keys of their own exactly if their paths can be looked up and their names stay
  different in names of files. -/
  ownKeys_iff : (∃ k k', OwnKeys dir t c c' k k') ↔ (c.Fits dir ∧ c'.Fits dir) ∧
    c.nodeId.toList.map KeyRecord.fileChar ≠ c'.nodeId.toList.map KeyRecord.fileChar
  /-- If their names become the same, the first gets its keys and the second is refused. -/
  shared : c.Fits dir →
    c.nodeId.toList.map KeyRecord.fileChar = c'.nodeId.toList.map KeyRecord.fileChar →
      c.answer dir t = .ok c.made ∧ c'.tree dir (c.tree dir t) = c.tree dir t ∧
      c'.answer dir (c.tree dir t) =
        .error (.corrupt c'.nodeId "record belongs to a different node id")

/-- **Nodes get keys of their own exactly if their records have different files**, in an empty
directory with a path that leaves room for their names. -/
theorem separation (h : t.Rooted) (hdir : t.isDir dir = true) (hempty : t.readDir dir = .ok [])
    (hnode : c.nodeId ≠ c'.nodeId) (hlength : c.nodeId.length ≤ 250)
    (hlength' : c'.nodeId.length ≤ 250) : Separation dir t c c' := by
  obtain ⟨d, hlocate⟩ := FileTree.exists_of_isDir hdir
  have hmissing (name : String) : t.get? (d ++ [name]) = none := by
    by_contra hne
    obtain ⟨e, he⟩ := Option.ne_none_iff_exists'.mp hne
    have hmem : name ∈ t.children d := FileTree.mem_children.mpr ⟨e, he⟩
    rw [FileTree.readDir, FileTree.stat_of_locate hlocate] at hempty
    rw [List.map_eq_nil_iff.mp (Except.ok.inj hempty)] at hmem
    cases hmem
  have hfirst (hfits : c.Fits dir) := answer_of_missing h hlocate hlength hfits (hmissing _)
  have hshared (hfits : c.Fits dir) (hname : c.nodeId.toList.map KeyRecord.fileChar =
      c'.nodeId.toList.map KeyRecord.fileChar) :=
    answer_of_shared hnode (KeyRecord.fileName_eq_iff.mpr hname) (hfirst hfits).2
  refine ⟨⟨?_, ?_⟩, fun hfits hname => ⟨(hfirst hfits).1, (hshared hfits hname).2,
    (hshared hfits hname).1⟩⟩
  · rintro ⟨k, k', ⟨hanswer, hanswer'⟩, -, -⟩
    have hfits : c.Fits dir := by
      by_contra hfits
      exact answer_of_not_fits h hfits k hanswer
    have hfits' : c'.Fits dir := by
      by_contra hfits'
      exact answer_of_not_fits (rooted_tree h c dir) hfits' k' hanswer'
    refine ⟨⟨hfits, hfits'⟩, fun hname => ?_⟩
    rw [(hshared hfits hname).1] at hanswer'
    cases hanswer'
  · rintro ⟨⟨hfits, hfits'⟩, hname⟩
    obtain ⟨hanswer, hstored⟩ := hfirst hfits
    -- The first call has put nothing at the place of the second.
    have hgrows : t.Grows (c.tree dir t) := hstored.grows (hmissing _)
    have hmissing' : (c.tree dir t).get? (d ++ [fileName c'.nodeId]) = none := by
      rw [hstored.others, hmissing]
      intro heq
      refine hname (KeyRecord.fileName_eq_iff.mp ?_)
      simpa using heq.symm
    obtain ⟨hanswer', -⟩ := answer_of_missing hstored.rooted (hgrows.locate hlocate) hlength' hfits'
      hmissing'
    exact ⟨c.made, c'.made, ⟨hanswer, hanswer'⟩, ⟨rfl, rfl⟩,
      load_after hstored.rooted (load_tree h hanswer) [c'], load_tree hstored.rooted hanswer'⟩

/-! ### An empty directory -/

private def emptyDir : FileTree := ⟨[(["keys"], .dir)]⟩

private theorem wellFormed_emptyDir : emptyDir.WellFormed :=
  FileTree.wellFormed_of_forall_mem (by decide)

/-- A call with secrets of which every byte is the length of the name. -/
private def calling (nodeId : String) : KeyCall where
  nodeId := nodeId
  fresh := ⟨nodeId, List.replicate 32 (UInt8.ofNat nodeId.length), List.replicate 32 1⟩
  sized := ⟨List.length_replicate, List.length_replicate⟩

/-- Two nodes whose names differ in a letter. -/
theorem separation_of_letters : Separation ["keys"] emptyDir (calling "node-a") (calling "node-b") ∧
    ∃ k k', OwnKeys ["keys"] emptyDir (calling "node-a") (calling "node-b") k k' := by
  have hseparation : Separation ["keys"] emptyDir (calling "node-a") (calling "node-b") :=
    separation wellFormed_emptyDir.rooted (by decide) rfl (by decide) (by decide) (by decide)
  exact ⟨hseparation, hseparation.ownKeys_iff.mpr ⟨by decide, by decide⟩⟩

/-- A slash becomes the character that the other name has in its place. -/
theorem not_forall_ownKeys :
    ¬ ∀ (dir : Path) (t : FileTree) (c c' : KeyCall), t.WellFormed → t.isDir dir = true →
      t.readDir dir = .ok [] → c.nodeId ≠ c'.nodeId → c.nodeId.length ≤ 250 →
        c'.nodeId.length ≤ 250 → ∃ k k', OwnKeys dir t c c' k k' := by
  intro hall
  obtain ⟨k, k', ⟨-, hanswer⟩, -, -⟩ := hall ["keys"] emptyDir (calling "a/b") (calling "a_b")
    wellFormed_emptyDir (by decide) rfl (by decide) (by decide) (by decide)
  have hlocate : emptyDir.locate true ["keys"] = .ok ⟨["keys"], some .dir⟩ := rfl
  have hfits : (calling "a/b").Fits ["keys"] := by decide
  have hstored :=
    (answer_of_missing wellFormed_emptyDir.rooted hlocate (by decide) hfits rfl).2
  rw [(answer_of_shared (by decide) (by decide) hstored).1] at hanswer
  cases hanswer

end MeshNode.KeyCall
