import MeshNode.Proofs.Keys.Record

/-!
# Keys are created once

A call for the keys of a node looks whether something is at the path of their record. If so, the
keys are loaded or the call fails, and the tree stays as it is; nothing but a record that holds keys
of the node is accepted. If not, the directories on the way are made, the record is written and its
permissions are set. So a call comes out in one of three ways (`Outcome`).

What a call writes, it writes where it found nothing. But it looks before the directories are made.
If one is missing and the path leads out of it again by double dots, the path leads nowhere at
first, and then it may lead to a file that has been there all the time (`Hides`). This file is
overwritten (`not_forall_kept`). It is the only thing that a call can take away, and if the
directory is there, or if there are no double dots in its path, there is no such file, so that calls
lose nothing however many there are (`grows_after`). Once a call has succeeded the directory is
there, and the record is there to be loaded by the calls that follow (`created_once`).
-/

namespace MeshNode

open MeshNode.Path (Plain)

namespace NodeKeys

variable {t t₁ t₂ : FileTree} {p : Path} {k : NodeKeys}

/-! ### Writing a record -/

theorem run_persist (k : NodeKeys) (p : Path) (t : FileTree) : Files.run (k.persist p) t =
    match Files.run (Files.makeDirs p.dropLast) t with
    | (.error e, t₁) => (.error e, t₁)
    | (.ok (), t₁) =>
      match t₁.write p (KeyRecord.content k) with
      | .error e => (.error e, t₁)
      | .ok t₂ =>
        match t₂.setMode p KeyRecord.fileMode with
        | .error e => (.error e, t₂)
        | .ok t₃ => (.ok (), t₃) := by
  rw [persist, Files.run_bind]
  rcases Files.run (Files.makeDirs p.dropLast) t with ⟨_ | ⟨⟩, t₁⟩
  · rfl
  simp only [Files.run_bind, Files.run_writeBytes, Files.run_perform, KeyRecord.content]
  cases t₁.write p (.bytes (KeyRecord.ofKeys k).toJson.pretty) with
  | error e => rfl
  | ok t₂ =>
    simp only
    cases t₂.setMode p KeyRecord.fileMode <;> rfl

/-- A record that is written has its permissions set. -/
theorem run_persist_of_stored {q : Location} {mode : Nat}
    (hdirs : Files.run (Files.makeDirs p.dropLast) t = (.ok (), t₁))
    (hwrite : t₁.write p (KeyRecord.content k) = .ok t₂)
    (hstored : t₁.Stored p q (.file (KeyRecord.content k) mode) t₂) :
    ∃ t', Files.run (k.persist p) t = (.ok (), t') ∧ t₁.Stored p q (KeyRecord.entry k) t' := by
  obtain ⟨hmode, hstored⟩ := hstored.setMode KeyRecord.fileMode
  refine ⟨_, ?_, hstored⟩
  simp only [run_persist, hdirs, hwrite, hmode]

/-- **Writing a record fails and takes nothing away, or the record is written** once the directories
on the way are made. -/
theorem persist_cases (h : t.Rooted) (k : NodeKeys) (p : Path) :
    (∃ error t', Files.run (k.persist p) t = (.error error, t') ∧ t'.Rooted ∧ t.Grows t') ∨
      ∃ t₁ q t', Files.run (Files.makeDirs p.dropLast) t = (.ok (), t₁) ∧
        Files.run (k.persist p) t = (.ok (), t') ∧ t₁.Stored p q (KeyRecord.entry k) t' := by
  have hgrows := FileTree.grows_run_makeDirs p.dropLast t
  have hrooted := h.run_makeDirs p.dropLast
  rcases hdirs : Files.run (Files.makeDirs p.dropLast) t with ⟨error | ⟨⟩, t₁⟩ <;>
    rw [hdirs] at hgrows hrooted
  · exact Or.inl ⟨error, t₁, by rw [run_persist, hdirs], hrooted, hgrows⟩
  cases hwrite : t₁.write p (KeyRecord.content k) with
  | error error =>
    exact Or.inl ⟨error, t₁, by simp only [run_persist, hdirs, hwrite], hrooted, hgrows⟩
  | ok t₂ =>
    obtain ⟨q, o, mode, hlocate, hfile, rfl⟩ := FileTree.exists_put_of_write hwrite
    obtain rfl : t₁.get? q = o := FileTree.get?_of_locate (FileTree.locate_of_locateToWrite hlocate)
    obtain ⟨t', hrun, hstored⟩ := run_persist_of_stored hdirs hwrite
      (hrooted.stored_put hlocate hfile (KeyRecord.content k) mode)
    exact Or.inr ⟨t₁, q, t', rfl, hrun, hstored⟩

end NodeKeys

/-- A call for the keys of a node, with those that are made if there is no record. -/
structure KeyCall where
  nodeId : String
  fresh : NodeKeys
  sized : fresh.Sized

namespace KeyCall

/-- The keys that a call makes. -/
def made (c : KeyCall) : NodeKeys := { c.fresh with nodeId := c.nodeId }

/-- What a call answers. -/
def answer (c : KeyCall) (dir : Path) (t : FileTree) : Except StoreError NodeKeys :=
  (Files.run (NodeKeys.loadOrGenerate dir c.nodeId c.fresh) t).1

/-- What a call leaves. -/
def tree (c : KeyCall) (dir : Path) (t : FileTree) : FileTree :=
  (Files.run (NodeKeys.loadOrGenerate dir c.nodeId c.fresh) t).2

/-- What some calls leave, one after the other. -/
def after (dir : Path) (t : FileTree) (calls : List KeyCall) : FileTree :=
  calls.foldl (fun t c => c.tree dir t) t

variable {c c' : KeyCall} {dir : Path} {t t' : FileTree}

theorem sized_made (c : KeyCall) : c.made.Sized := ⟨c.sized.sign, c.sized.kx⟩

/-! ### Single calls -/

/-- The path of the record that a call is about. -/
abbrev path (c : KeyCall) (dir : Path) : Path := KeyRecord.path dir c.nodeId

theorem run_eq (c : KeyCall) (dir : Path) (t : FileTree) :
    Files.run (NodeKeys.loadOrGenerate dir c.nodeId c.fresh) t =
      if t.exists (c.path dir) then (NodeKeys.load (c.path dir) c.nodeId t, t)
      else
        match Files.run (c.made.persist (c.path dir)) t with
        | (.ok (), t') => (.ok c.made, t')
        | (.error e, t') => (.error (.file e), t') := by
  rw [NodeKeys.loadOrGenerate, Files.run_bind, Files.run_get]
  simp only
  by_cases hexists : t.exists (c.path dir) = true
  · rw [if_pos hexists, if_pos hexists, Files.run_inspect]
  · rw [if_neg hexists, if_neg hexists, Files.run_bind, Files.run_mapError, made]
    rcases Files.run (NodeKeys.persist _ (c.path dir)) t with ⟨_ | ⟨⟩, t'⟩ <;> rfl

/-- Something at the path is loaded or refused. -/
theorem run_of_exists (hexists : t.exists (c.path dir) = true) : c.tree dir t = t ∧
    c.answer dir t = NodeKeys.load (c.path dir) c.nodeId t := by
  rw [tree, answer, run_eq, if_pos hexists]
  exact ⟨rfl, rfl⟩

/-- If nothing is there, the keys are those whose record can be written. -/
theorem run_of_persist (hexists : t.exists (c.path dir) = false)
    (hpersist : Files.run (c.made.persist (c.path dir)) t = (.ok (), t')) :
    c.tree dir t = t' ∧ c.answer dir t = .ok c.made := by
  rw [tree, answer, run_eq, if_neg (Bool.eq_false_iff.mp hexists), hpersist]
  exact ⟨rfl, rfl⟩

/-- How a call can come out. -/
inductive Outcome (c : KeyCall) (dir : Path) (t : FileTree) : Prop
  /-- Something is at the path, and is loaded or refused. -/
  | loaded (hexists : t.exists (c.path dir) = true) (htree : c.tree dir t = t)
      (hanswer : c.answer dir t = NodeKeys.load (c.path dir) c.nodeId t)
  /-- Nothing is there and no record can be written. -/
  | failed {error : FileError} (hrooted : (c.tree dir t).Rooted) (hgrows : t.Grows (c.tree dir t))
      (hanswer : c.answer dir t = .error (.file error))
  /-- Nothing is there, and the record of the keys is written once the directories are made. -/
  | written {t₁ : FileTree} {q : Location} (hexists : t.exists (c.path dir) = false)
      (hdirs : Files.run (Files.makeDirs dir) t = (.ok (), t₁))
      (hstored : t₁.Stored (c.path dir) q (KeyRecord.entry c.made) (c.tree dir t))
      (hanswer : c.answer dir t = .ok c.made)

theorem outcome (h : t.Rooted) (c : KeyCall) (dir : Path) : c.Outcome dir t := by
  by_cases hexists : t.exists (c.path dir) = true
  · exact .loaded hexists (run_of_exists hexists).1 (run_of_exists hexists).2
  have hmissing : t.exists (c.path dir) = false := Bool.eq_false_iff.mpr hexists
  have hdrop : (c.path dir).dropLast = dir := List.dropLast_concat
  rcases NodeKeys.persist_cases h c.made (c.path dir) with
    ⟨error, t', hrun, hrooted, hgrows⟩ | ⟨t₁, q, t', hdirs, hrun, hstored⟩
  · have htree : c.tree dir t = t' := by rw [tree, run_eq, if_neg hexists, hrun]
    have hanswer : c.answer dir t = .error (.file error) := by
      rw [answer, run_eq, if_neg hexists, hrun]
    exact .failed (htree ▸ hrooted) (htree ▸ hgrows) hanswer
  · obtain ⟨htree, hanswer⟩ := run_of_persist hmissing hrun
    exact .written hmissing (hdrop ▸ hdirs) (htree ▸ hstored) hanswer

theorem rooted_tree (h : t.Rooted) (c : KeyCall) (dir : Path) : (c.tree dir t).Rooted := by
  rcases outcome h c dir with ⟨-, htree, -⟩ | ⟨hrooted, -, -⟩ | ⟨-, -, hstored, -⟩
  · exact htree.symm ▸ h
  · exact hrooted
  · exact hstored.rooted

theorem rooted_after (h : t.Rooted) (dir : Path) (calls : List KeyCall) :
    (after dir t calls).Rooted :=
  List.foldlRecOn calls _ h fun _ h c _ => rooted_tree h c dir

/-! ### Hidden files -/

/-- A file that the path of a record leads to only once the missing directories are made. -/
structure Hides (t : FileTree) (dir : Path) (nodeId : String) (l : Location) : Prop where
  missed : t.exists (KeyRecord.path dir nodeId) = false
  uncovered : ∃ t₁ content mode, Files.run (Files.makeDirs dir) t = (.ok (), t₁) ∧
    t₁.locate true (KeyRecord.path dir nodeId) = .ok ⟨l, some (.file content mode)⟩

/-- Nothing is hidden if the directory is there, or if its path does not lead out of directories. -/
theorem not_hides (h : t.Rooted) (hsight : t.isDir dir = true ∨ ∀ x ∈ dir, Plain x)
    (nodeId : String) (l : Location) : ¬ Hides t dir nodeId l := by
  rintro ⟨hmissed, t₁, content, mode, hdirs, hlocate⟩
  have hthere (hdir : t.isDir dir = true) : False := by
    rw [Files.run_makeDirs_of_isDir hdir] at hdirs
    obtain rfl : t = t₁ := congrArg Prod.snd hdirs
    rw [FileTree.exists_iff.mpr ⟨_, _, hlocate⟩] at hmissed
    cases hmissed
  rcases hsight with hdir | hplain
  · exact hthere hdir
  by_cases hmissing : ∃ q, t.MissingFrom q dir
  · -- What was made is empty.
    obtain ⟨q, hq⟩ := hmissing
    obtain ⟨-, -, hleads⟩ := Files.run_makeDirs_of_missing h hplain hq
    rw [hdirs] at hleads
    obtain ⟨d, -, hempty⟩ := hleads rfl
    have hfound := hempty.eq_of_locate (KeyRecord.plain_fileName nodeId) hlocate
    cases congrArg Found.entry hfound
  · obtain ⟨-, hdir⟩ := Files.run_makeDirs_of_not_missing (not_exists.mp hmissing)
    rw [hdirs] at hdir
    exact hthere (hdir rfl)

/-- **Nothing is lost but a hidden file.** -/
theorem get?_tree (h : t.Rooted) (c : KeyCall) {l : Location} {e : Entry} (hl : t.get? l = some e)
    (hhides : ¬ Hides t dir c.nodeId l) : (c.tree dir t).get? l = some e := by
  rcases outcome h c dir with
    ⟨-, htree, -⟩ | ⟨-, hgrows, -⟩ | @⟨t₁, q, hmissing, hdirs, hstored, -⟩
  · rw [htree, hl]
  · exact hgrows l e hl
  · have hgrows := FileTree.grows_run_makeDirs dir t
    rw [hdirs] at hgrows
    have hl₁ := hgrows l e hl
    have hne : l ≠ q := by
      rintro rfl
      obtain ⟨content, mode, rfl⟩ := hstored.file e hl₁
      have hplace := hstored.place
      rw [hl₁] at hplace
      exact hhides ⟨hmissing, t₁, content, mode, hdirs, hplace⟩
    rw [hstored.others l hne, hl₁]

/-- A hidden file is overwritten. -/
theorem Hides.overwritten {l : Location} (hhides : Hides t dir c.nodeId l) (h : t.Rooted) :
    (∃ content mode, t.get? l = some (.file content mode)) ∧ c.answer dir t = .ok c.made ∧
      (c.tree dir t).get? l = some (KeyRecord.entry c.made) := by
  obtain ⟨hmissed, t₁, content, mode, hdirs, hlocate⟩ := hhides
  have hrooted := h.run_makeDirs dir
  have hthere : (Files.run (Files.makeDirs dir) t).2.get? l = some (.file content mode) := by
    rw [hdirs]
    exact FileTree.get?_of_locate hlocate
  rw [hdirs] at hrooted
  have hdirs' : Files.run (Files.makeDirs (c.path dir).dropLast) t = (.ok (), t₁) := by
    rwa [show (c.path dir).dropLast = dir from List.dropLast_concat]
  have hwrite : t₁.write (c.path dir) (KeyRecord.content c.made) =
      .ok (t₁.put l (.file (KeyRecord.content c.made) mode)) := by
    rw [FileTree.write, FileTree.locateToWrite_of_file hrooted hlocate]
  obtain ⟨t', hpersist, hstored⟩ := NodeKeys.run_persist_of_stored hdirs' hwrite
    (hrooted.stored_put_of_file hlocate _ mode)
  obtain ⟨htree, hanswer⟩ := run_of_persist hmissed hpersist
  exact ⟨⟨content, mode, FileTree.get?_of_run_makeDirs hthere⟩, hanswer,
    htree ▸ FileTree.get?_of_locate hstored.found⟩

/-! ### Sequences of calls -/

/-- **Calls lose nothing if nothing can be hidden**, however many there are. -/
theorem grows_after (h : t.Rooted) (hsight : t.isDir dir = true ∨ ∀ x ∈ dir, Plain x)
    (calls : List KeyCall) : t.Grows (after dir t calls) := by
  have hall : (after dir t calls).Rooted ∧ t.Grows (after dir t calls) := by
    refine List.foldlRecOn (motive := fun t' => t'.Rooted ∧ t.Grows t') calls _ ⟨h, .refl t⟩ ?_
    rintro t' ⟨h', hgrows⟩ c -
    have hsight' := hsight.imp_left hgrows.isDir
    have hstep : t'.Grows (c.tree dir t') := fun l _ hl =>
      get?_tree h' c hl (not_hides h' hsight' c.nodeId l)
    exact ⟨rooted_tree h' c dir, hgrows.trans hstep⟩
  exact hall.2

/-- Keys that can be loaded can be loaded from a tree that has grown. -/
theorem load_of_grows {p : Path} {nodeId : String} {k : NodeKeys} (h : t.Grows t')
    (hload : NodeKeys.load p nodeId t = .ok k) : NodeKeys.load p nodeId t' = .ok k := by
  obtain ⟨content, record, hread, hrecord⟩ := KeyRecord.load_eq_ok_iff.mp hload
  obtain ⟨l, mode, hlocate⟩ := FileTree.exists_file_of_read hread
  exact KeyRecord.load_eq_ok_iff.mpr
    ⟨content, record, FileTree.read_of_file (h.locate hlocate), hrecord⟩

/-- Keys that can be loaded are at the path of their record, and its directory is there. -/
theorem of_load (h : t.Rooted) {nodeId : String} {k : NodeKeys}
    (hload : NodeKeys.load (KeyRecord.path dir nodeId) nodeId t = .ok k) :
    t.exists (KeyRecord.path dir nodeId) = true ∧ t.isDir dir = true := by
  obtain ⟨content, record, hread, -⟩ := KeyRecord.load_eq_ok_iff.mp hload
  obtain ⟨l, mode, hlocate⟩ := FileTree.exists_file_of_read hread
  exact ⟨FileTree.exists_iff.mpr ⟨l, _, hlocate⟩,
    FileTree.isDir_of_locate_concat h (KeyRecord.plain_fileName nodeId).1 hlocate⟩

/-- The keys that a call answers can be loaded from what it leaves. -/
theorem load_tree (h : t.Rooted) {k : NodeKeys} (hanswer : c.answer dir t = .ok k) :
    NodeKeys.load (c.path dir) c.nodeId (c.tree dir t) = .ok k := by
  rcases outcome h c dir with
    ⟨-, htree, hload⟩ | ⟨-, -, herror⟩ | ⟨-, -, hstored, hmade⟩
  · rw [htree, ← hload, hanswer]
  · rw [herror] at hanswer
    cases hanswer
  · rw [hmade] at hanswer
    obtain rfl := Except.ok.inj hanswer
    rw [KeyRecord.load_of_entry hstored.found]
    exact KeyRecord.keys_eq_ok_iff.mpr (KeyRecord.holds_ofKeys c.sized_made)

/-- **Keys that can be loaded can be loaded after any calls.** -/
theorem load_after (h : t.Rooted) {nodeId : String} {k : NodeKeys}
    (hload : NodeKeys.load (KeyRecord.path dir nodeId) nodeId t = .ok k) (calls : List KeyCall) :
    NodeKeys.load (KeyRecord.path dir nodeId) nodeId (after dir t calls) = .ok k :=
  load_of_grows (grows_after h (Or.inl (of_load h hload).2) calls) hload

/-- What a call does to what was there, and what calls after it find. -/
structure CreatedOnce (dir : Path) (t : FileTree) (c : KeyCall) : Prop where
  /-- Whatever was there is there after it, unless it was hidden. -/
  kept : ∀ l e, t.get? l = some e → ¬ Hides t dir c.nodeId l → (c.tree dir t).get? l = some e
  /-- What was hidden was a file, and the record of the keys that the call makes has replaced it. -/
  replaced : ∀ l, Hides t dir c.nodeId l → (∃ content mode, t.get? l = some (.file content mode)) ∧
    c.answer dir t = .ok c.made ∧ (c.tree dir t).get? l = some (KeyRecord.entry c.made)
  /-- Nothing is hidden if the directory is there or if no double dots lead out of it, so that
  neither the call nor any after it takes anything away. -/
  inSight : t.isDir dir = true ∨ (∀ x ∈ dir, Plain x) →
    (∀ l, ¬ Hides t dir c.nodeId l) ∧ ∀ later, t.Grows (after dir t (c :: later))
  /-- If it succeeds, every later call for the node succeeds with the same keys. -/
  again : ∀ k, c.answer dir t = .ok k → ∀ (between : List KeyCall) (c' : KeyCall),
    c'.nodeId = c.nodeId → c'.answer dir (after dir (c.tree dir t) between) = .ok k
  /-- If nothing is at the path, it answers the keys that it makes, or no record can be written. -/
  missing : t.exists (c.path dir) = false →
    c.answer dir t = .ok c.made ∨ ∃ error, c.answer dir t = .error (.file error)
  /-- If something is at the path, it stays as it is, and it is accepted exactly if it is a record
  that holds keys of the node. -/
  found : t.exists (c.path dir) = true → c.tree dir t = t ∧ ∀ k, c.answer dir t = .ok k ↔
    ∃ content record, t.read (c.path dir) = .ok content ∧
      KeyRecord.decoder.ofBytes content.toBytes = .ok record ∧ record.Holds c.nodeId k

/-- **Keys are created once.** After any calls, a call takes nothing away but a hidden file, and if
it answers keys, these are the keys of the node from then on. -/
theorem created_once (h : t.Rooted) (dir : Path) (calls : List KeyCall) (c : KeyCall) :
    CreatedOnce dir (after dir t calls) c := by
  have h := rooted_after h dir calls
  refine { kept := fun l e hl hhides => get?_tree h c hl hhides
           replaced := fun l hhides => hhides.overwritten h
           inSight := fun hsight =>
             ⟨not_hides h hsight c.nodeId, fun later => grows_after h hsight (c :: later)⟩
           again := fun k hanswer between c' hnode => ?_
           missing := fun hmissing => ?_
           found := fun hexists => ?_ }
  · have hload := load_after (rooted_tree h c dir) (load_tree h hanswer) between
    have hrooted := rooted_after (rooted_tree h c dir) dir between
    rw [← hnode] at hload
    rw [(run_of_exists (of_load hrooted hload).1).2, hload]
  · rcases outcome h c dir with ⟨hexists, -, -⟩ | ⟨-, -, herror⟩ | ⟨-, -, -, hmade⟩
    · rw [hmissing] at hexists
      cases hexists
    · exact Or.inr ⟨_, herror⟩
    · exact Or.inl hmade
  · obtain ⟨htree, hanswer⟩ := run_of_exists hexists
    exact ⟨htree, fun k => by rw [hanswer, KeyRecord.load_eq_ok_iff]⟩

/-! ### Two key directories -/

/-- A call of which both secrets are one byte over and over. -/
private def asking (nodeId : String) (byte : UInt8) : KeyCall where
  nodeId := nodeId
  fresh := ⟨nodeId, List.replicate 32 byte, List.replicate 32 byte⟩
  sized := ⟨List.length_replicate, List.length_replicate⟩

private theorem answer_asking :
    (asking "a/b" 1).answer ["keys"] .empty = .ok (asking "a/b" 1).made := by
  have hpersist :
      Files.run ((asking "a/b" 1).made.persist ((asking "a/b" 1).path ["keys"])) .empty = (.ok (),
        ⟨[(["keys", "a_b.json"], KeyRecord.entry (asking "a/b" 1).made), (["keys"], .dir)]⟩) := by
    rw [NodeKeys.run_persist, Files.run_makeDirs]
    rfl
  exact (run_of_persist (by decide) hpersist).2

/-- The keys of a node are there again after another node has been refused its record. -/
theorem created_once_of_two :
    CreatedOnce ["keys"] (after ["keys"] .empty [asking "a/b" 1, asking "a_b" 2]) (asking "a/b" 3) ∧
      (asking "a/b" 3).answer ["keys"]
        (after ["keys"] .empty [asking "a/b" 1, asking "a_b" 2]) = .ok (asking "a/b" 1).made := by
  have hempty : FileTree.empty.Rooted := (FileTree.wellFormed_of_forall_mem (by decide)).rooted
  exact ⟨created_once hempty ["keys"] [asking "a/b" 1, asking "a_b" 2] (asking "a/b" 3),
    (created_once hempty ["keys"] [] (asking "a/b" 1)).again _ answer_asking [asking "a_b" 2]
      (asking "a/b" 3) rfl⟩

/-- A directory with a file where the record of a node would be. -/
private def kept : FileTree :=
  ⟨[(["keys"], .dir), (["keys", "n.json"], .file (.bytes []) KeyRecord.fileMode)]⟩

private theorem run_makeDirs_gone :
    Files.run (Files.makeDirs ["gone", "..", "keys"]) kept =
      (.ok (), ⟨(["gone"], .dir) :: kept.entries⟩) := by
  rw [Files.run_makeDirs, Files.run_makeDirs, Files.run_makeDirs]
  rfl

/-- A directory that is missing and that the path leads out of again hides the file: the record of
new keys is written over it. -/
theorem not_forall_kept :
    ¬ ∀ (t : FileTree) (dir : Path) (c : KeyCall) (l : Location) (content : Content) (mode : Nat),
      t.WellFormed → t.get? l = some (.file content mode) →
        ∃ mode', (c.tree dir t).get? l = some (.file content mode') := by
  intro hall
  have hformed : kept.WellFormed := FileTree.wellFormed_of_forall_mem (by decide)
  have hhides : Hides kept ["gone", "..", "keys"] "n" ["keys", "n.json"] :=
    ⟨by decide, _, _, _, run_makeDirs_gone, rfl⟩
  have hwritten := (hhides.overwritten (c := asking "n" 1) hformed.rooted).2.2
  obtain ⟨mode, hkept⟩ := hall kept ["gone", "..", "keys"] (asking "n" 1) ["keys", "n.json"]
    (.bytes []) KeyRecord.fileMode hformed rfl
  rw [hwritten] at hkept
  -- An empty text is not the record that was written.
  have hcontent : KeyRecord.content (asking "n" 1).made = .bytes [] :=
    (Entry.file.inj (Option.some.inj hkept)).1
  have hread : KeyRecord.decoder.ofBytes (KeyRecord.content (asking "n" 1).made).toBytes =
      .ok (KeyRecord.ofKeys (asking "n" 1).made) := Json.Decoder.ofBytes_pretty (KeyRecord.reads _)
  have hempty : (KeyRecord.decoder.ofBytes []).toOption = none := by decide
  rw [hcontent, Content.toBytes] at hread
  rw [hread] at hempty
  cases hempty

end KeyCall

end MeshNode
