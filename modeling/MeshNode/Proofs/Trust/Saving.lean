import MeshNode.Proofs.Files.Safety
import MeshNode.Proofs.Trust.Service
import MeshNode.Proofs.Trust.Store

/-!
# Saves that are all or nothing

A save puts the record into memory, makes the directories that are missing on the way to the file,
writes the document into the draft and moves the draft to the name of the file. A step may fail, and
the program may stop between two steps or while it writes, which leaves a beginning of the document
in the draft; a save that fails takes the record out of memory again (`undone`). `Drafting` collects
what can be left before the move and `After` what can be left by any number of saves, with changes
of others in between that leave the file alone.

`all_or_nothing` is for files that are clear of their drafts (`Clear`). A draft that is a link is
written through, so that a save can destroy the file that it is to replace
(`not_forall_read_of_save`).
-/

namespace MeshNode

open MeshNode.Path (Plain)

namespace TrustStore

/-! ### The draft -/

/-- The draft has another name than the file. -/
theorem draft_ne (p : Path) {c : String} (hc : Plain c) : draft (p ++ [c]) ≠ p ++ [c] := by
  intro heq
  rw [draft, Path.withExtension, List.getLast?_concat] at heq
  simp only [if_neg hc.2.2, List.dropLast_concat, List.append_cancel_left_eq, List.cons.injEq,
    and_true] at heq
  obtain ⟨stem, hname, hstem⟩ : ∃ stem, stem ++ "." ++ "json.tmp" = c ∧
      ∀ dot c' rest, c.toList.reverse.dropWhile (· ≠ '.') = dot :: c' :: rest →
        stem = String.ofList (c' :: rest).reverse :=
    ⟨_, heq, fun dot c' rest hdrop => by rw [hdrop]⟩
  -- The draft of a draft would have a longer stem.
  have hdrop : c.toList.reverse.dropWhile (· ≠ '.') =
      '.' :: 'n' :: 'o' :: 's' :: 'j' :: '.' :: stem.toList.reverse := by
    simp [← hname, String.toList_append]
  have hlength := congrArg String.length (hstem _ _ _ hdrop)
  simp only [String.length_ofList, List.length_reverse, List.length_cons, String.length_toList]
    at hlength
  omega

/-! ### One save -/

/-- What can be left of a save before the draft is moved: directories on the way to the file, and a
beginning of the document in the draft. -/
inductive Drafting (path : Path) (document : Bytes) (t : FileTree) : FileTree → Prop where
  | start : Drafting path document t t
  | makeDir {t' t'' : FileTree} {q : Path} : Drafting path document t t' → q <+: path.dropLast →
      t'.makeDir q = .ok t'' → Drafting path document t t''
  | write {t' t'' : FileTree} {part : Bytes} : Drafting path document t t' → part <+: document →
      t'.write (draft path) (.bytes part) = .ok t'' → Drafting path document t t''

/-- What is left of a save that came to its end: the whole document was written into the draft, and
that was moved. -/
def Moved (path : Path) (document : Bytes) (t t' : FileTree) : Prop :=
  ∃ t₁ t₂, Drafting path document t t₁ ∧ t₁.write (draft path) (.bytes document) = .ok t₂ ∧
    t₂.rename (draft path) path = .ok t'

section Flush

variable {path : Path} {t t' : FileTree}

/-- A flush either fails before the draft is moved, or comes to its end. -/
theorem flush_cases {records : Keyed TrustRecord} {r : Except FileError Unit}
    (h : (flush path records).run t = (r, t')) :
    (∃ error, r = .error error ∧ Drafting path (document records) t t') ∨
      r = .ok () ∧ Moved path (document records) t t' := by
  have hdirs : Drafting path (document records) t
      (Files.run (Files.makeDirs path.dropLast) t).2 :=
    Files.run_makeDirs_keeps (fun _ _ _ hdrafting hq hmake => hdrafting.makeDir hq hmake) .start
  unfold flush at h
  rw [Files.run_bind] at h
  rcases hrun : Files.run (Files.makeDirs path.dropLast) t with ⟨e | ⟨⟩, t₁⟩
  · rw [hrun] at h hdirs
    obtain ⟨rfl, rfl⟩ := Prod.mk.inj h
    exact Or.inl ⟨e, rfl, hdirs⟩
  rw [hrun] at hdirs
  simp only [hrun, Files.run_bind, Files.run_writeBytes, Files.run_perform] at h
  cases hwrite : t₁.write (draft path) (.bytes (document records)) with
  | error e =>
    rw [hwrite] at h
    obtain ⟨rfl, rfl⟩ := Prod.mk.inj h
    exact Or.inl ⟨e, rfl, hdirs⟩
  | ok t₂ =>
    simp only [hwrite] at h
    cases hrename : t₂.rename (draft path) path with
    | error e =>
      rw [hrename] at h
      obtain ⟨rfl, rfl⟩ := Prod.mk.inj h
      exact Or.inl ⟨e, rfl, hdirs.write (List.prefix_refl _) hwrite⟩
    | ok t₃ =>
      rw [hrename] at h
      obtain ⟨rfl, rfl⟩ := Prod.mk.inj h
      exact Or.inr ⟨rfl, t₁, t₂, hdirs, hwrite, hrename⟩

/-- So does a save. -/
theorem save_cases {s : TrustStore} (hpath : s.path = some path) {node : String}
    {record : TrustRecord} {r : Except StoreError TrustStore}
    (h : (s.save node record).run t = (r, t')) :
    (∃ error, r = .error error ∧
        Drafting path (document (s.records.insert node record)) t t') ∨
      r = .ok { s with records := s.records.insert node record } ∧
        Moved path (document (s.records.insert node record)) t t' := by
  rw [run_save hpath] at h
  rcases hflush : (flush path (s.records.insert node record)).run t with ⟨r', t₁⟩
  rw [hflush] at h
  rcases flush_cases hflush with ⟨error, rfl, hdrafting⟩ | ⟨rfl, hmoved⟩
  · obtain ⟨rfl, rfl⟩ := Prod.mk.inj h
    exact Or.inl ⟨_, rfl, hdrafting⟩
  · obtain ⟨rfl, rfl⟩ := Prod.mk.inj h
    exact Or.inr ⟨rfl, hmoved⟩

end Flush

/-! ### Files that are clear of their drafts -/

/-- The draft is no link, the path does not lead to it, and the directory of the file is there or
can be made without coming by double dots. -/
structure Clear (path : Path) (t : FileTree) : Prop where
  rooted : t.Rooted
  way : t.isDir path.dropLast = true ∨ ∀ c ∈ path.dropLast, Plain c
  unlinked : t.isLink (draft path) = false
  apart : ∀ f g, t.locate true path = .ok f → t.locate true (draft path) = .ok g →
    f.location ≠ g.location

section Save

variable {dir : Path} {name d : String} {document : Bytes} {t t' : FileTree}

/-- Until the draft is moved, the path leads to what it led to before. -/
theorem Drafting.read_eq (hdraft : draft (dir ++ [name]) = dir ++ [d])
    (h : t.Replaceable dir name d) (hdrafting : Drafting (dir ++ [name]) document t t') :
    t'.Replaceable dir name d ∧
      (t'.read (dir ++ [name])).toOption = (t.read (dir ++ [name])).toOption := by
  induction hdrafting with
  | start => exact ⟨h, rfl⟩
  | makeDir _ hq hmake ih =>
    rw [List.dropLast_concat] at hq
    obtain ⟨hthere, hread⟩ := ih.1.makeDir hq hmake
    exact ⟨hthere, hread.trans ih.2⟩
  | write _ _ hwrite ih =>
    rw [hdraft] at hwrite
    obtain ⟨hthere, hread, -⟩ := ih.1.write hwrite
    exact ⟨hthere, hread.trans ih.2⟩

/-- Once the draft is moved, the path leads to the document. -/
theorem Moved.read_eq (hdraft : draft (dir ++ [name]) = dir ++ [d])
    (h : t.Replaceable dir name d) (hmoved : Moved (dir ++ [name]) document t t') :
    t'.Replaceable dir name d ∧ t'.read (dir ++ [name]) = .ok (.bytes document) := by
  obtain ⟨t₁, t₂, hdrafting, hwrite, hrename⟩ := hmoved
  rw [hdraft] at hwrite hrename
  obtain ⟨hready, -, l, mode, hwalk, hfile⟩ := (hdrafting.read_eq hdraft h).1.write hwrite
  exact hready.read_of_rename hwalk hfile hrename

/-- A file that is clear of its draft can be replaced, if a store could be opened over it. -/
theorem Clear.replaceable (hname : Plain name) (hd : Plain d)
    (hdraft : draft (dir ++ [name]) = dir ++ [d]) (h : Clear (dir ++ [name]) t)
    (hopens : t.read (dir ++ [name]) ≠ .error .isADirectory ∧
      t.read (dir ++ [name]) ≠ .error .tooManyLinks) : t.Replaceable dir name d where
  rooted := h.rooted
  plain := ⟨hname, hd⟩
  ne := by
    rintro rfl
    exact draft_ne dir hname hdraft
  way := by
    have hway := h.way
    rwa [List.dropLast_concat] at hway
  unlinked := hdraft ▸ h.unlinked
  apart := hdraft ▸ h.apart
  opens := hopens

/-- A store is opened only over a file or over nothing. -/
theorem read_ne_of_open {path : Path} {s : TrustStore} (h : TrustStore.open path t = .ok s) :
    t.read path ≠ .error .isADirectory ∧ t.read path ≠ .error .tooManyLinks := by
  unfold TrustStore.open at h
  split at h
  · rename_i hread
    rw [hread]
    exact ⟨nofun, nofun⟩
  · rename_i hread
    rw [hread]
    exact ⟨nofun, nofun⟩
  · cases h

end Save

/-! ### Any number of saves -/

/-- The records in memory after a save that failed: what the node had before is put back. -/
def undone (records : Keyed TrustRecord) (node : String) (record : TrustRecord) :
    Keyed TrustRecord :=
  match records.get? node with
  | some previous => (records.insert node record).insert node previous
  | none => (records.insert node record).erase node

/-- The map that a store presents: its nodes, each with the record that is loaded for it. -/
def presented (s : TrustStore) : Keyed TrustRecord :=
  s.nodeIds.filterMap fun node => (s.load node).map (node, ·)

theorem undone_eq {records : Keyed TrustRecord} (h : records.Sorted) (node : String)
    (record : TrustRecord) : undone records node record = records := by
  have hinsert := h.insert node record
  unfold undone
  cases hprevious : records.get? node with
  | none =>
    refine (hinsert.erase node).eq_of_get? h fun k => ?_
    rw [Keyed.get?_erase, Keyed.get?_insert]
    by_cases hk : k = node
    · rw [if_pos hk, hk, hprevious]
    · rw [if_neg hk, if_neg hk]
  | some previous =>
    refine (hinsert.insert node previous).eq_of_get? h fun k => ?_
    rw [Keyed.get?_insert, Keyed.get?_insert]
    by_cases hk : k = node
    · rw [if_pos hk, hk, hprevious]
    · rw [if_neg hk, if_neg hk]

theorem presented_eq {s : TrustStore} (h : s.records.Sorted) : s.presented = s.records :=
  h.filterMap_keys

/-- What a store and the tree can be after any number of saves, of which the list tells those that
came to their end. Others may change the tree in between, but leave the file as it is and clear of
its draft. -/
inductive After (path : Path) (t₀ : FileTree) :
    List (String × TrustRecord) → TrustStore → FileTree → Prop where
  | opened {s : TrustStore} : TrustStore.open path t₀ = .ok s → After path t₀ [] s t₀
  | saved {saves : List (String × TrustRecord)} {s : TrustStore} {t t' : FileTree} {node : String}
      {record : TrustRecord} : After path t₀ saves s t →
      Moved path (document (s.records.insert node record)) t t' →
      After path t₀ (saves ++ [(node, record)])
        { s with records := s.records.insert node record } t'
  | failed {saves : List (String × TrustRecord)} {s : TrustStore} {t t' : FileTree} {node : String}
      {record : TrustRecord} : After path t₀ saves s t →
      Drafting path (document (s.records.insert node record)) t t' →
      After path t₀ saves { s with records := undone s.records node record } t'
  | elsewhere {saves : List (String × TrustRecord)} {s : TrustStore} {t t' : FileTree} :
      After path t₀ saves s t → t'.read path = t.read path → Clear path t' →
      After path t₀ saves s t'

/-- What every save keeps up: the file holds what it held when the store was opened, or the records
of the last save that came to its end. -/
structure Faithful (dir : Path) (name d : String) (t₀ : FileTree)
    (saves : List (String × TrustRecord)) (s : TrustStore) (t : FileTree) : Prop where
  path : s.path = some (dir ++ [name])
  sorted : s.records.Sorted
  ready : t.Replaceable dir name d
  records : ∃ opened, TrustStore.open (dir ++ [name]) t₀ = .ok opened ∧
    s.records = saves.foldl (fun m r => m.insert r.1 r.2) opened.records
  file : (t.read (dir ++ [name])).toOption =
    if saves = [] then (t₀.read (dir ++ [name])).toOption else some (.bytes (document s.records))

section Runs

variable {dir : Path} {name d : String} {t₀ t t' : FileTree} {saves : List (String × TrustRecord)}
  {s : TrustStore}

theorem Faithful.saved (hdraft : draft (dir ++ [name]) = dir ++ [d])
    (h : Faithful dir name d t₀ saves s t) {node : String} {record : TrustRecord}
    (hmoved : Moved (dir ++ [name]) (document (s.records.insert node record)) t t') :
    Faithful dir name d t₀ (saves ++ [(node, record)])
      { s with records := s.records.insert node record } t' := by
  obtain ⟨hready, hread⟩ := hmoved.read_eq hdraft h.ready
  obtain ⟨opened, hopen, hrecords⟩ := h.records
  refine ⟨h.path, h.sorted.insert node record, hready, ⟨opened, hopen, ?_⟩, ?_⟩
  · rw [List.foldl_concat, ← hrecords]
  · rw [hread, if_neg (List.concat_ne_nil _ saves)]
    rfl

theorem Faithful.failed (hdraft : draft (dir ++ [name]) = dir ++ [d])
    (h : Faithful dir name d t₀ saves s t) {node : String} {record : TrustRecord}
    (hdrafting : Drafting (dir ++ [name]) (document (s.records.insert node record)) t t') :
    Faithful dir name d t₀ saves { s with records := undone s.records node record } t' := by
  obtain ⟨hready, hread⟩ := hdrafting.read_eq hdraft h.ready
  rw [undone_eq h.sorted]
  exact ⟨h.path, h.sorted, hready, h.records, hread.trans h.file⟩

theorem Faithful.elsewhere (hdraft : draft (dir ++ [name]) = dir ++ [d])
    (h : Faithful dir name d t₀ saves s t)
    (hread : t'.read (dir ++ [name]) = t.read (dir ++ [name])) (hclear : Clear (dir ++ [name]) t') :
    Faithful dir name d t₀ saves s t' := by
  have hready := hclear.replaceable h.ready.plain.1 h.ready.plain.2 hdraft (hread ▸ h.ready.opens)
  exact ⟨h.path, h.sorted, hready, h.records, hread ▸ h.file⟩

/-- However many saves there were, and however they ended. -/
theorem After.faithful (hname : Plain name) (hd : Plain d)
    (hdraft : draft (dir ++ [name]) = dir ++ [d]) (hclear : Clear (dir ++ [name]) t₀)
    (h : After (dir ++ [name]) t₀ saves s t) : Faithful dir name d t₀ saves s t := by
  induction h with
  | opened hopen =>
    obtain ⟨hpath, hsorted, -⟩ := of_open hopen
    exact ⟨hpath, hsorted, hclear.replaceable hname hd hdraft (read_ne_of_open hopen),
      ⟨_, hopen, rfl⟩, (if_pos rfl).symm⟩
  | saved _ hmoved ih => exact ih.saved hdraft hmoved
  | failed _ hdrafting ih => exact ih.failed hdraft hdrafting
  | elsewhere _ hread hclear ih => exact ih.elsewhere hdraft hread hclear

/-- What all or nothing means for a store: the map that it presents is what it was opened with and
the records of the saves that came to their end; the file holds the last document that was saved,
or still what it held; until a save moves its draft the path leads to what it led to, and from then
on to the new document; a save that fails has not moved its draft and is undone in memory; a save
that succeeds has, and changes one record. -/
structure AllOrNothing (path : Path) (t₀ : FileTree) (saves : List (String × TrustRecord))
    (s : TrustStore) (t : FileTree) : Prop where
  presented : ∃ opened, TrustStore.open path t₀ = .ok opened ∧
    s.presented = saves.foldl (fun m r => m.insert r.1 r.2) opened.records
  unsaved : saves = [] → (t.read path).toOption = (t₀.read path).toOption
  saved : saves ≠ [] → t.read path = .ok (.bytes (document s.presented))
  before : ∀ node record t', Drafting path (document (s.records.insert node record)) t t' →
    (t'.read path).toOption = (t.read path).toOption
  after : ∀ node record t', Moved path (document (s.records.insert node record)) t t' →
    t'.read path = .ok (.bytes (document (s.records.insert node record)))
  undone : ∀ node record, { s with records := undone s.records node record } = s
  fails : ∀ node record error t', (s.save node record).run t = (.error error, t') →
    Drafting path (document (s.records.insert node record)) t t'
  succeeds : ∀ node record s' t', (s.save node record).run t = (.ok s', t') →
    Moved path (document (s.records.insert node record)) t t' ∧
      s'.load = Function.update s.load node (some record) ∧
      s'.presented = s.records.insert node record

/-- **Saving is all or nothing** over a file that is clear of its draft, whatever else is in the
tree, however many saves there were and wherever they failed. -/
theorem all_or_nothing {dir : Path} {name : String} (hname : Plain name) {t₀ : FileTree}
    (hclear : Clear (dir ++ [name]) t₀) {saves : List (String × TrustRecord)} {s : TrustStore}
    {t : FileTree} (h : After (dir ++ [name]) t₀ saves s t) :
    AllOrNothing (dir ++ [name]) t₀ saves s t := by
  obtain ⟨d, hd, hdraft⟩ := exists_draft_eq dir hname
  have hfaithful := h.faithful hname hd hdraft hclear
  have hpresented := presented_eq hfaithful.sorted
  refine { presented := ?_, unsaved := ?_, saved := ?_, before := ?_, after := ?_, undone := ?_,
           fails := ?_, succeeds := ?_ }
  · rw [hpresented]
    exact hfaithful.records
  · intro hsaves
    rw [hfaithful.file, if_pos hsaves]
  · intro hsaves
    have hfile := hfaithful.file
    rw [if_neg hsaves, ← hpresented] at hfile
    cases hread : t.read (dir ++ [name]) with
    | error error =>
      rw [hread] at hfile
      cases hfile
    | ok content =>
      rw [hread] at hfile
      exact congrArg Except.ok (Option.some.inj hfile)
  · intro node record t' hdrafting
    exact (hdrafting.read_eq hdraft hfaithful.ready).2
  · intro node record t' hmoved
    exact (hmoved.read_eq hdraft hfaithful.ready).2
  · intro node record
    rw [undone_eq hfaithful.sorted]
  · intro node record error t' hsave
    rcases save_cases hfaithful.path hsave with ⟨-, -, hdrafting⟩ | ⟨⟨⟩, -⟩
    exact hdrafting
  · intro node record s' t' hsave
    rcases save_cases hfaithful.path hsave with ⟨-, ⟨⟩, -⟩ | ⟨hs', hmoved⟩
    obtain rfl := Except.ok.inj hs'
    exact ⟨hmoved, load_insert s node record, presented_eq (hfaithful.sorted.insert node record)⟩

end Runs

/-! ### Two trees -/

/-- The record of a node that reported once. -/
private def reported : TrustRecord := .ofFirstReport ⟨"build", "hash", .null⟩ 0

/-- A link leads to the directory of a file that is not there yet. -/
private def linked : FileTree := ⟨[(["data"], .link "srv"), (["srv"], .dir)]⟩

/-- The tree in which the file is there. -/
private def linkedWith (records : Keyed TrustRecord) : FileTree :=
  ⟨(["srv", "trust.json"], .file (.bytes (document records)) Entry.fileMode) :: linked.entries⟩

private theorem flush_linked (records : Keyed TrustRecord) :
    (flush ["data", "trust.json"] records).run linked = (.ok (), linkedWith records) := by
  unfold flush
  rw [Files.run_bind, Files.run_makeDirs]
  rfl

private theorem clear_linked : Clear (["data"] ++ ["trust.json"]) linked where
  rooted := by
    exact (FileTree.wellFormed_of_forall_mem (by decide)).rooted
  way := Or.inl rfl
  unlinked := rfl
  apart := by
    intro f g hf hg
    obtain rfl := Except.ok.inj hf
    obtain rfl := Except.ok.inj hg
    decide

/-- The first save makes the file, where the link leads. -/
theorem all_or_nothing_of_link :
    (TrustStore.save ⟨[], some ["data", "trust.json"]⟩ "a" reported).run linked =
        (.ok ⟨[("a", reported)], some ["data", "trust.json"]⟩, linkedWith [("a", reported)]) ∧
      AllOrNothing ["data", "trust.json"] linked [("a", reported)]
        ⟨[("a", reported)], some ["data", "trust.json"]⟩ (linkedWith [("a", reported)]) := by
  have hsave : (TrustStore.save ⟨[], some ["data", "trust.json"]⟩ "a" reported).run linked =
      (.ok ⟨[("a", reported)], some ["data", "trust.json"]⟩, linkedWith [("a", reported)]) := by
    rw [run_save rfl, flush_linked]
    rfl
  refine ⟨hsave, ?_⟩
  rcases save_cases rfl hsave with ⟨_, ⟨⟩, -⟩ | ⟨-, hmoved⟩
  exact all_or_nothing (by decide) clear_linked (.saved (.opened rfl) hmoved)

/-- A link with the name of the draft leads to the file. -/
private def planted : FileTree := ⟨[(["trust.json.tmp"], .link "trust.json")]⟩

private theorem flush_planted (records : Keyed TrustRecord) :
    (flush ["trust.json"] records).run planted =
      (.ok (), ⟨[(["trust.json"], .link "trust.json")]⟩) := by
  unfold flush
  rw [Files.run_bind, Files.run_makeDirs]
  rfl

/-- A save that follows a link to the file writes the document into the file and then puts the link
in its place, which leads to itself. -/
theorem not_forall_read_of_save :
    ¬ ∀ (path : Path) (t t' : FileTree) (s s' : TrustStore) (node : String) (record : TrustRecord),
      t.WellFormed → TrustStore.open path t = .ok s → (s.save node record).run t = (.ok s', t') →
        t'.read path = .ok (.bytes (document s'.presented)) := by
  intro hall
  have hsave : (TrustStore.save ⟨[], some ["trust.json"]⟩ "a" reported).run planted =
      (.ok ⟨[("a", reported)], some ["trust.json"]⟩, ⟨[(["trust.json"], .link "trust.json")]⟩) := by
    rw [run_save rfl, flush_planted]
    rfl
  have hread := hall ["trust.json"] planted _ _ _ "a" reported
    (FileTree.wellFormed_of_forall_mem (by decide)) rfl hsave
  have hlost : FileTree.read ⟨[(["trust.json"], .link "trust.json")]⟩ ["trust.json"] =
      .error .tooManyLinks := rfl
  rw [hlost] at hread
  cases hread

end TrustStore

end MeshNode
