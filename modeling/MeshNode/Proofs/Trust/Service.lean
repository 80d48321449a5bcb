import Mathlib.Logic.Function.Basic
import MeshNode.Proofs.Files.Operations
import MeshNode.Trust.Service

/-!
# Single calls to the trust service

`effect` is what a call amounts to when no other is under way: its answer, and the record of its
node after it. `Turn` says once what one step of a call can do, to its own stage, to the records and
to the locks. The effect shows in two of the turns: a call that writes nothing is served at once,
and one that holds the lock works the effect out of the record that it finds then.
-/

namespace MeshNode

/-! ### Saving -/

namespace TrustStore

/-- A save that succeeds puts the record into the store. -/
theorem eq_of_save {s store : TrustStore} {node : String} {record : TrustRecord}
    {t t' : FileTree} (h : (s.save node record).run t = (.ok store, t')) :
    store = { s with records := s.records.insert node record } := by
  unfold save at h
  cases hpath : s.path with
  | none =>
    rw [hpath] at h
    exact (Except.ok.inj (Prod.mk.inj h).1).symm
  | some path =>
    simp only [hpath, Files.run_bind] at h
    split at h
    · exact (Except.ok.inj (Prod.mk.inj h).1).symm
    · cases h

theorem load_insert (s : TrustStore) (node : String) (record : TrustRecord) :
    load { s with records := s.records.insert node record } =
      Function.update s.load node (some record) := by
  funext k
  rw [load, Keyed.get?_insert, Function.update_apply]
  rfl

end TrustStore

/-! ### One step -/

namespace TrustCall

/-- What a call answers and which record it leaves, by the record that it finds. -/
def effect (c : TrustCall) (threshold : SpoofThreshold) (record : Option TrustRecord) :
    TrustAnswer × Option TrustRecord :=
  match c with
  | ingest node report now =>
    let (evaluation, after) := evaluate threshold node report record now
    (.evaluated evaluation after, after)
  | setHealth _ health =>
    let after := record.map fun r => { r with health }
    (.health after, after)

/-- A node without a record still has none only if the call writes nothing. -/
theorem eq_none_of_effect {c : TrustCall} {threshold : SpoofThreshold}
    {record : Option TrustRecord} (h : (c.effect threshold record).2 = none) : record = none := by
  cases record with
  | none => rfl
  | some r =>
    cases c with
    | ingest node report now => cases report <;> cases h
    | setHealth node health => cases h

/-- What one step of a call can do, to its stage, to the records and to the locks. -/
inductive Turn (c : TrustCall) (threshold : SpoofThreshold)
    (record record' : String → Option TrustRecord) (locked locked' : List String) :
    Stage → Stage → Prop where
  | serve {answer : TrustAnswer}
      (heffect : c.effect threshold (record c.node) = (answer, record c.node))
      (hrecord : record' = record) (hlocked : locked' = locked) :
      Turn c threshold record record' locked locked' .begun (.done (.ok answer))
  | wait (hrecord : record' = record) (hlocked : locked' = locked) :
      Turn c threshold record record' locked locked' .begun .waiting
  | lock (hfree : c.node ∉ locked) (hrecord : record' = record)
      (hlocked : locked' = c.node :: locked) :
      Turn c threshold record record' locked locked' .waiting .holding
  | decide {after : TrustRecord} {answer : TrustAnswer}
      (heffect : c.effect threshold (record c.node) = (answer, some after))
      (hrecord : record' = record) (hlocked : locked' = locked) :
      Turn c threshold record record' locked locked' .holding (.saving after answer)
  | skip {answer : TrustAnswer}
      (heffect : c.effect threshold (record c.node) = (answer, record c.node))
      (hrecord : record' = record) (hlocked : locked' = locked) :
      Turn c threshold record record' locked locked' .holding (.closing (.ok answer))
  | save {after : TrustRecord} {answer : TrustAnswer}
      (hrecord : record' = Function.update record c.node (some after))
      (hlocked : locked' = locked) :
      Turn c threshold record record' locked locked' (.saving after answer) (.closing (.ok answer))
  | fail {after : TrustRecord} {answer : TrustAnswer} {e : StoreError}
      (hrecord : record' = record) (hlocked : locked' = locked) :
      Turn c threshold record record' locked locked' (.saving after answer) (.closing (.error e))
  | release {answer : Except StoreError TrustAnswer} (hrecord : record' = record)
      (hlocked : locked' = locked.erase c.node) :
      Turn c threshold record record' locked locked' (.closing answer) (.done answer)

variable {c : TrustCall} {s s' : TrustService}

/-- A call is served at once if there is nothing to write. -/
theorem turn_begin (c : TrustCall) (s : TrustService) :
    Turn c s.threshold s.record s.record s.locked s.locked .begun (c.begin s) := by
  cases c with
  | ingest id report now =>
    cases report with
    | some report => exact .wait rfl rfl
    | none =>
      have hsame : (evaluate s.threshold id none (s.record id) now).2 = s.record id := by
        cases s.record id <;> rfl
      exact .serve (Prod.ext rfl hsame) rfl rfl
  | setHealth id health =>
    simp only [begin]
    split
    · rename_i hnone
      have hrecord : s.record id = none := Option.isNone_iff_eq_none.mp hnone
      exact .serve (by simp only [effect, node, hrecord, Option.map_none]) rfl rfl
    · exact .wait rfl rfl

/-- What a call that holds the lock does next is worked out from its effect. -/
theorem decide_eq (c : TrustCall) (s : TrustService) :
    c.decide s =
      match c.effect s.threshold (s.record c.node) with
      | (answer, some after) => .saving after answer
      | (answer, none) => .closing (.ok answer) := by
  cases c with
  | ingest id report now =>
    simp only [decide, effect, node, TrustService.record]
    rcases evaluate s.threshold id report (s.store.load id) now with ⟨evaluation, _ | after⟩ <;> rfl
  | setHealth id health =>
    simp only [decide, effect, node, TrustService.record]
    cases s.store.load id <;> rfl

theorem turn_decide (c : TrustCall) (s : TrustService) :
    Turn c s.threshold s.record s.record s.locked s.locked .holding (c.decide s) := by
  rw [decide_eq]
  rcases heffect : c.effect s.threshold (s.record c.node) with ⟨answer, _ | after⟩
  · have hnone : s.record c.node = none := eq_none_of_effect (congrArg (·.2) heffect)
    exact .skip (heffect.trans (by rw [hnone])) rfl rfl
  · exact .decide heffect rfl rfl

/-- Every step is a turn, and leaves the threshold and the file as they are. -/
theorem turn_of_step {stage stage' : Stage} {t t' : FileTree}
    (h : step c stage s t = some (stage', s', t')) :
    s'.threshold = s.threshold ∧
      Turn c s.threshold s.record s'.record s.locked s'.locked stage stage' := by
  cases stage with
  | begun =>
    cases h
    exact ⟨rfl, turn_begin c s⟩
  | waiting =>
    simp only [step] at h
    split at h
    · cases h
    · cases h
      exact ⟨rfl, .lock ‹_› rfl rfl⟩
  | holding =>
    cases h
    exact ⟨rfl, turn_decide c s⟩
  | saving record answer =>
    simp only [step] at h
    split at h
    · rename_i store t'' hsave
      cases h
      obtain rfl := TrustStore.eq_of_save hsave
      exact ⟨rfl, .save (TrustStore.load_insert s.store c.node record) rfl⟩
    · cases h
      exact ⟨rfl, .fail rfl rfl⟩
  | closing answer =>
    cases h
    exact ⟨rfl, .release rfl rfl⟩
  | done answer => cases h

/-- A call that is not done takes a step, unless another one has the lock that it waits for. -/
theorem exists_step (c : TrustCall) (stage : Stage) (s : TrustService) :
    (∃ answer, stage = .done answer) ∨ (stage = .waiting ∧ c.node ∈ s.locked) ∨
      ∀ t, ∃ next, step c stage s t = some next := by
  cases stage with
  | begun | holding | closing => exact Or.inr (Or.inr fun t => ⟨_, rfl⟩)
  | waiting =>
    by_cases hlocked : c.node ∈ s.locked
    · exact Or.inr (Or.inl ⟨rfl, hlocked⟩)
    · exact Or.inr (Or.inr fun t => ⟨_, if_neg hlocked⟩)
  | saving record answer =>
    refine Or.inr (Or.inr fun t => ?_)
    simp only [step]
    split <;> exact ⟨_, rfl⟩
  | done answer => exact Or.inl ⟨answer, rfl⟩

/-! ### A whole call -/

/-- **A call that runs alone** leaves everything as it is if that is its effect, or else it saves
the record that is its effect and answers when that has succeeded. -/
theorem run_eq (c : TrustCall) (hlocked : s.locked = []) (t : FileTree) :
    (∃ answer, c.effect s.threshold (s.record c.node) = (answer, s.record c.node) ∧
        c.run s t = (.ok answer, s, t)) ∨
      ∃ answer after, c.effect s.threshold (s.record c.node) = (answer, some after) ∧
        c.run s t =
          match (s.store.save c.node after).run t with
          | (.ok store, t') => (.ok answer, { s with store }, t')
          | (.error e, t') => (.error e, s, t') := by
  obtain ⟨threshold, store, locked⟩ := s
  obtain rfl : locked = [] := hlocked
  have hbegin := turn_begin c ⟨threshold, store, []⟩
  generalize hstage : c.begin ⟨threshold, store, []⟩ = stage at hbegin
  cases hbegin with
  | @serve answer heffect =>
    exact Or.inl ⟨answer, heffect, by simp only [run, maxSteps, advance, step, hstage]⟩
  | wait =>
    -- The lock is free and is released in the end, so that the call goes through all its stages.
    have hdecide := decide_eq c ⟨threshold, store, [c.node]⟩
    rcases heffect : c.effect threshold (store.load c.node) with ⟨answer, _ | after⟩
    · have hnone : store.load c.node = none := eq_none_of_effect (congrArg (·.2) heffect)
      simp only [TrustService.record, heffect] at hdecide
      refine Or.inl ⟨answer, heffect.trans (by rw [TrustService.record, hnone]), ?_⟩
      simp only [run, maxSteps, advance, step, hstage, List.not_mem_nil, if_false, hdecide,
        List.erase_cons_head]
    · simp only [TrustService.record, heffect] at hdecide
      refine Or.inr ⟨answer, after, heffect, ?_⟩
      simp only [run, maxSteps, advance, step, hstage, List.not_mem_nil, if_false, hdecide]
      rcases (store.save c.node after).run t with ⟨_ | _, t'⟩ <;>
        simp only [List.erase_cons_head]

/-- A call that runs alone answers with its effect, if it succeeds. -/
theorem answer_of_run {c : TrustCall} (hlocked : s.locked = []) {t : FileTree}
    {answer : TrustAnswer} (h : (c.run s t).1 = .ok answer) :
    (c.effect s.threshold (s.record c.node)).1 = answer := by
  rcases c.run_eq hlocked t with ⟨answer', heffect, hrun⟩ | ⟨answer', after, heffect, hrun⟩
  · rw [hrun] at h
    rw [heffect, Except.ok.inj h]
  · rw [hrun] at h
    rcases hsave : (s.store.save c.node after).run t with ⟨_ | store, t'⟩
    · rw [hsave] at h
      cases h
    · rw [hsave] at h
      rw [heffect, Except.ok.inj h]

end TrustCall

end MeshNode
