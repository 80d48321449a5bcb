import Mathlib.Data.List.Induction
import MeshNode.Proofs.Trust.Service

/-!
# Trust calls under way at once

Any number of calls to one trust service take their atomic steps in any order, and between two steps
anything may happen to the files, so that any save may succeed or fail. What has happened is read
off the history, the list of the steps taken so far: which calls took the lock of a node, which ones
wrote its record, and which ones were served with an answer, a reader when it looked and a writer
when its record was saved.

By `linearizable` the calls about a node are as good as made one after another, in the order in
which they were served. Writers are served in the order in which they took the lock, since a call
that holds a lock holds it alone. The proof has one invariant for each part: the locks
(`Exclusive`), the answers (`Reachable.mem_served_iff`), the records (`Reachable.run_served`), and
the order (`Reachable.writers_sublist`). Each of them uses one fact about the turns of a call.
-/

namespace MeshNode

namespace TrustCall

namespace Stage

/-- Whether a call at the stage has the lock of its node. -/
def holds : Stage → Bool
  | holding | saving .. | closing _ => true
  | _ => false

/-- Whether a call at the stage has the lock and may still save. -/
def unsaved : Stage → Bool
  | holding | saving .. => true
  | _ => false

/-- Whether a call at the stage has not taken the lock yet and may still do so. -/
def early : Stage → Bool
  | begun | waiting => true
  | _ => false

/-- The answer of a call at the stage. -/
def answer? : Stage → Option TrustAnswer
  | closing (.ok answer) | done (.ok answer) => some answer
  | _ => none

theorem holds_of_unsaved {stage : Stage} (h : stage.unsaved = true) : stage.holds = true := by
  cases stage <;> first | rfl | cases h

end Stage

/-- Whether a step between two stages takes the lock. -/
def locks : Stage → Stage → Bool
  | .waiting, .holding => true
  | _, _ => false

/-- Whether a step between two stages has saved a record. -/
def writes : Stage → Stage → Bool
  | .saving .., .closing (.ok _) => true
  | _, _ => false

/-- The answer that a step between two stages serves a call with. -/
def serves? : Stage → Stage → Option TrustAnswer
  | .begun, .done (.ok answer) => some answer
  | .holding, .closing (.ok answer) => some answer
  | .saving .., .closing (.ok answer) => some answer
  | _, _ => none

/-- A call that has saved is served. -/
theorem writes_of_not_serves {stage stage' : Stage} (h : serves? stage stage' = none) :
    writes stage stage' = false := by
  unfold writes
  split
  · cases h
  · rfl

/-! ### What the turns have in common -/

namespace Turn

variable {c : TrustCall} {threshold : SpoofThreshold} {record record' : String → Option TrustRecord}
  {locked locked' : List String} {stage stage' : Stage}

/-- A step keeps the lock, takes it when it is free, or releases it. -/
theorem holds_cases (h : Turn c threshold record record' locked locked' stage stage') :
    (stage'.holds = stage.holds ∧ locked' = locked) ∨
      (stage.holds = false ∧ stage'.holds = true ∧ c.node ∉ locked ∧
        locked' = c.node :: locked) ∨
      (stage.holds = true ∧ stage'.holds = false ∧ locked' = locked.erase c.node) := by
  cases h with
  | serve _ _ hlocked | wait _ hlocked | decide _ _ hlocked | skip _ _ hlocked | save _ hlocked
  | fail _ hlocked => exact Or.inl ⟨rfl, hlocked⟩
  | lock hfree _ hlocked => exact Or.inr (Or.inl ⟨rfl, rfl, hfree, hlocked⟩)
  | release _ hlocked => exact Or.inr (Or.inr ⟨rfl, rfl, hlocked⟩)

/-- A call is served once. -/
theorem answer?_eq (h : Turn c threshold record record' locked locked' stage stage') :
    stage'.answer? = (serves? stage stage').or stage.answer? ∧
      (stage.answer? = none ∨ serves? stage stage' = none) := by
  cases h with
  | @release answer => cases answer <;> exact ⟨rfl, Or.inr rfl⟩
  | serve | wait | lock | decide | skip | save | fail => exact ⟨rfl, Or.inl rfl⟩

/-- A call takes the lock once. -/
theorem early_of_locks (h : Turn c threshold record record' locked locked' stage stage') :
    (stage'.early = true → stage.early = true) ∧
      (locks stage stage' = true → stage.early = true ∧ stage'.early = false) := by
  cases h <;> simp [Stage.early, locks]

/-- A call takes the lock before it saves, and saves once. -/
theorem unsaved_cases (h : Turn c threshold record record' locked locked' stage stage') :
    (locks stage stage' = true ∧ writes stage stage' = false ∧ stage'.unsaved = true) ∨
      (locks stage stage' = false ∧ writes stage stage' = true ∧ stage.unsaved = true ∧
        stage'.unsaved = false) ∨
      (locks stage stage' = false ∧ writes stage stage' = false ∧
        (stage'.unsaved = true → stage.unsaved = true)) := by
  cases h <;> simp [locks, writes, Stage.unsaved]

/-- Only a call that saves changes a record, and only that of its own node. -/
theorem record_eq (h : Turn c threshold record record' locked locked' stage stage') {node : String}
    (hnode : writes stage stage' = false ∨ node ≠ c.node) : record' node = record node := by
  cases h with
  | serve _ hrecord | wait hrecord | lock _ hrecord | decide _ hrecord | skip _ hrecord
  | fail hrecord | release hrecord => rw [hrecord]
  | save hrecord =>
    rw [hrecord, Function.update_of_ne (hnode.resolve_left (by simp [writes]))]

/-- A call is served with the answer that its effect has, and leaves the record that it has, if what
it saves is its effect. -/
theorem effect_eq (h : Turn c threshold record record' locked locked' stage stage')
    (hdecided : ∀ after answer, stage = .saving after answer →
      c.effect threshold (record c.node) = (answer, some after))
    {answer : TrustAnswer} (hserves : serves? stage stage' = some answer) :
    c.effect threshold (record c.node) = (answer, record' c.node) := by
  cases h with
  | serve heffect hrecord | skip heffect hrecord =>
    obtain rfl := Option.some.inj hserves
    rw [hrecord]
    exact heffect
  | @save after _ hrecord =>
    obtain rfl := Option.some.inj hserves
    rw [hrecord, Function.update_self]
    exact hdecided after _ rfl
  | wait | lock | decide | fail => cases hserves
  | @release answer => cases answer <;> cases hserves

end Turn

end TrustCall

/-! ### Runs -/

/-- Calls to one service, and what the service starts with. -/
structure TrustTraffic (ι : Type) where
  threshold : SpoofThreshold
  store : TrustStore
  call : ι → TrustCall

namespace TrustTraffic

open TrustCall (Stage Turn)

/-- A step that a call has taken. -/
structure Move (ι : Type) where
  call : ι
  source : Stage
  target : Stage

/-- The steps taken, first to last. -/
abbrev History (ι : Type) := List (Move ι)

namespace History

variable {ι : Type}

/-- The calls that took the lock, in that order. -/
def owners (h : History ι) : List ι :=
  (h.filter fun m => TrustCall.locks m.source m.target).map (·.call)

/-- The calls that wrote, in that order. -/
def writers (h : History ι) : List ι :=
  (h.filter fun m => TrustCall.writes m.source m.target).map (·.call)

/-- The calls that were served, in that order, with their answers. -/
def served (h : History ι) : List (ι × TrustAnswer) :=
  h.filterMap fun m => (TrustCall.serves? m.source m.target).map (m.call, ·)

theorem owners_concat (h : History ι) (m : Move ι) : owners (h ++ [m]) =
    owners h ++ if TrustCall.locks m.source m.target then [m.call] else [] := by
  by_cases hlocks : TrustCall.locks m.source m.target = true <;> simp [owners, hlocks]

theorem writers_concat (h : History ι) (m : Move ι) : writers (h ++ [m]) =
    writers h ++ if TrustCall.writes m.source m.target then [m.call] else [] := by
  by_cases hwrites : TrustCall.writes m.source m.target = true <;> simp [writers, hwrites]

theorem served_concat (h : History ι) (m : Move ι) : served (h ++ [m]) =
    served h ++ ((TrustCall.serves? m.source m.target).map (m.call, ·)).toList := by
  rw [served, List.filterMap_append]
  cases hserves : TrustCall.serves? m.source m.target <;> simp [served, hserves]

theorem mem_served_concat (h : History ι) (m : Move ι) (i : ι) (answer : TrustAnswer) :
    (i, answer) ∈ served (h ++ [m]) ↔ (i, answer) ∈ served h ∨
      (m.call = i ∧ TrustCall.serves? m.source m.target = some answer) := by
  rw [served_concat, List.mem_append]
  cases TrustCall.serves? m.source m.target <;> simp [eq_comm]

end History

/-- Where the calls and the service stand. -/
structure State (ι : Type) where
  stage : ι → Stage
  service : TrustService
  history : History ι

variable {ι : Type}

/-- The steps of the calls about one node. -/
def on (T : TrustTraffic ι) (h : History ι) (node : String) : History ι :=
  h.filter fun m => (T.call m.call).node = node

/-- The answers of some calls that are made one after another, and the record that they leave. -/
def run (T : TrustTraffic ι) : Option TrustRecord → List ι → List TrustAnswer × Option TrustRecord
  | record, [] => ([], record)
  | record, i :: is =>
    let first := (T.call i).effect T.threshold record
    let further := T.run first.2 is
    (first.1 :: further.1, further.2)

/-- The state before any call has begun. -/
def begin (T : TrustTraffic ι) : State ι :=
  ⟨fun _ => .begun, .ofStore T.threshold T.store, []⟩

variable [DecidableEq ι]

/-- The state after one call has entered a stage and left the service as it is then. -/
def State.enter (s : State ι) (i : ι) (stage : Stage) (service : TrustService) : State ι :=
  ⟨Function.update s.stage i stage, service, s.history ++ [⟨i, s.stage i, stage⟩]⟩

/-- The states that the calls get to, in whatever order they take their steps and whatever becomes
of the files in between. -/
inductive Reachable (T : TrustTraffic ι) : State ι → Prop where
  | start : Reachable T T.begin
  | step {s : State ι} {i : ι} {stage : Stage} {service : TrustService} {t t' : FileTree}
      (hs : Reachable T s)
      (hstep : (T.call i).step (s.stage i) s.service t = some (stage, service, t')) :
      Reachable T (s.enter i stage service)

variable {T : TrustTraffic ι} {s : State ι}

omit [DecidableEq ι] in
theorem run_concat (T : TrustTraffic ι) (record : Option TrustRecord) (is : List ι) (i : ι) :
    T.run record (is ++ [i]) =
      ((T.run record is).1 ++ [((T.call i).effect T.threshold (T.run record is).2).1],
        ((T.call i).effect T.threshold (T.run record is).2).2) := by
  induction is generalizing record with
  | nil => rfl
  | cons j is ih => simp only [List.cons_append, run, ih]

@[simp] theorem State.enter_stage_self (s : State ι) (i : ι) (stage : Stage)
    (service : TrustService) : (s.enter i stage service).stage i = stage := Function.update_self ..

theorem State.enter_stage_of_ne (s : State ι) {i j : ι} (h : j ≠ i) (stage : Stage)
    (service : TrustService) : (s.enter i stage service).stage j = s.stage j :=
  Function.update_of_ne h ..

@[simp] theorem State.enter_service (s : State ι) (i : ι) (stage : Stage)
    (service : TrustService) : (s.enter i stage service).service = service := rfl

theorem on_enter (s : State ι) (i : ι) (stage : Stage) (service : TrustService) (node : String) :
    T.on (s.enter i stage service).history node =
      T.on s.history node ++ if (T.call i).node = node then [⟨i, s.stage i, stage⟩] else [] := by
  by_cases h : (T.call i).node = node <;> simp [on, State.enter, h]

theorem on_enter_self (s : State ι) (i : ι) (stage : Stage) (service : TrustService) :
    T.on (s.enter i stage service).history (T.call i).node =
      T.on s.history (T.call i).node ++ [⟨i, s.stage i, stage⟩] := by
  rw [on_enter, if_pos rfl]

theorem on_enter_of_ne (s : State ι) (i : ι) (stage : Stage) (service : TrustService)
    {node : String} (h : (T.call i).node ≠ node) :
    T.on (s.enter i stage service).history node = T.on s.history node := by
  rw [on_enter, if_neg h, List.append_nil]

/-- The threshold stays, and every step is a turn. -/
theorem Reachable.turn (h : T.Reachable s) {i : ι} {stage : Stage} {service : TrustService}
    {t t' : FileTree}
    (hstep : (T.call i).step (s.stage i) s.service t = some (stage, service, t')) :
    Turn (T.call i) T.threshold s.service.record service.record s.service.locked service.locked
      (s.stage i) stage := by
  have hthreshold : s.service.threshold = T.threshold := by
    clear hstep
    induction h with
    | start => rfl
    | step _ hstep ih => exact (TrustCall.turn_of_step hstep).1.trans ih
  exact hthreshold ▸ (TrustCall.turn_of_step hstep).2

/-! ### Locks -/

/-- The locks are those of the calls that hold one, and no two calls hold the same. -/
structure Exclusive (T : TrustTraffic ι) (s : State ι) : Prop where
  nodup : s.service.locked.Nodup
  mem_locked_iff : ∀ node, node ∈ s.service.locked ↔
    ∃ i, (T.call i).node = node ∧ (s.stage i).holds = true
  alone : ∀ i j, (T.call i).node = (T.call j).node → (s.stage i).holds = true →
    (s.stage j).holds = true → i = j

/-- **No two calls hold the lock of a node.** -/
theorem Reachable.exclusive (h : T.Reachable s) : T.Exclusive s := by
  induction h with
  | start =>
    refine ⟨List.nodup_nil, fun node => ?_, fun i j _ hi => ?_⟩
    · simp [begin, TrustService.ofStore, Stage.holds]
    · cases hi
  | @step s i stage service t t' hs hstep ih =>
    have hother {j : ι} (hj : j ≠ i) : (s.enter i stage service).stage j = s.stage j :=
      s.enter_stage_of_ne hj stage service
    obtain ⟨hholds, hlocked⟩ | ⟨hbefore, hafter, hfree, hlocked⟩ | ⟨hbefore, hafter, hlocked⟩ :=
      (hs.turn hstep).holds_cases
    · have hsame (j : ι) : ((s.enter i stage service).stage j).holds = (s.stage j).holds := by
        by_cases hj : j = i
        · rw [hj, State.enter_stage_self, hholds]
        · rw [hother hj]
      refine ⟨?_, ?_, ?_⟩
      · rw [State.enter_service, hlocked]
        exact ih.nodup
      · simpa only [State.enter_service, hlocked, hsame] using ih.mem_locked_iff
      · simpa only [hsame] using ih.alone
    · have hnone {j : ι} (hj : (s.stage j).holds = true) : (T.call j).node ≠ (T.call i).node :=
        fun heq => hfree ((ih.mem_locked_iff _).mpr ⟨j, heq, hj⟩)
      refine ⟨?_, fun node => ?_, fun j k hnode hj hk => ?_⟩
      · rw [State.enter_service, hlocked]
        exact List.nodup_cons.mpr ⟨hfree, ih.nodup⟩
      · rw [State.enter_service, hlocked, List.mem_cons, ih.mem_locked_iff]
        constructor
        · rintro (rfl | ⟨j, hnode, hj⟩)
          · exact ⟨i, rfl, by rw [State.enter_stage_self, hafter]⟩
          · have hne : j ≠ i := fun heq => by rw [heq, hbefore] at hj; cases hj
            exact ⟨j, hnode, by rw [hother hne, hj]⟩
        · rintro ⟨j, hnode, hj⟩
          by_cases hji : j = i
          · exact Or.inl (hji ▸ hnode.symm)
          · exact Or.inr ⟨j, hnode, by rwa [hother hji] at hj⟩
      · by_cases hji : j = i <;> by_cases hki : k = i
        · rw [hji, hki]
        · rw [hother hki] at hk
          exact absurd (hji ▸ hnode.symm) (hnone hk)
        · rw [hother hji] at hj
          exact absurd (hki ▸ hnode) (hnone hj)
        · rw [hother hji] at hj
          rw [hother hki] at hk
          exact ih.alone j k hnode hj hk
    · have hleft {j : ι} (hj : ((s.enter i stage service).stage j).holds = true) :
          j ≠ i ∧ (s.stage j).holds = true := by
        have hne : j ≠ i := by
          rintro rfl
          rw [State.enter_stage_self, hafter] at hj
          cases hj
        exact ⟨hne, by rwa [hother hne] at hj⟩
      refine ⟨?_, fun node => ?_, fun j k hnode hj hk => ?_⟩
      · rw [State.enter_service, hlocked]
        exact ih.nodup.erase _
      · rw [State.enter_service, hlocked, ih.nodup.mem_erase_iff, ih.mem_locked_iff]
        constructor
        · rintro ⟨hne, j, hnode, hj⟩
          have hji : j ≠ i := fun heq => hne (heq ▸ hnode.symm)
          exact ⟨j, hnode, by rw [hother hji, hj]⟩
        · rintro ⟨j, hnode, hj⟩
          obtain ⟨hji, hj⟩ := hleft hj
          refine ⟨fun heq => hji (ih.alone j i (hnode.trans heq) hj hbefore), j, hnode, hj⟩
      · exact ih.alone j k hnode (hleft hj).2 (hleft hk).2

/-! ### Answers -/

omit [DecidableEq ι] in
private theorem nodup_concat {l : List ι} {i : ι} (h : l.Nodup) (hi : i ∉ l) :
    (l ++ [i]).Nodup := by
  refine List.nodup_append.mpr ⟨h, by simp, fun j hj k hk => ?_⟩
  rintro rfl
  exact hi (List.mem_singleton.mp hk ▸ hj)

/-- The calls that were served are those that have an answer. -/
theorem Reachable.mem_served_iff (h : T.Reachable s) (node : String) (i : ι)
    (answer : TrustAnswer) : (i, answer) ∈ History.served (T.on s.history node) ↔
      (T.call i).node = node ∧ (s.stage i).answer? = some answer := by
  induction h with
  | start => simp [begin, on, History.served, Stage.answer?]
  | @step s j stage service t t' hs hstep ih =>
    obtain ⟨hanswer, honce⟩ := (hs.turn hstep).answer?_eq
    by_cases hij : i = j
    · subst hij
      rw [State.enter_stage_self, hanswer]
      by_cases hnode : (T.call i).node = node
      · rw [on_enter, if_pos hnode, History.mem_served_concat, ih]
        rcases honce with hnone | hnone <;> simp [hnone, hnode]
      · rw [on_enter_of_ne s i stage service hnode, ih]
        simp [hnode]
    · rw [s.enter_stage_of_ne hij, ← ih, on_enter]
      split
      · rw [History.mem_served_concat]
        exact or_iff_left fun hj => hij hj.1.symm
      · rw [List.append_nil]

/-- No call is served twice. -/
theorem Reachable.nodup_served (h : T.Reachable s) (node : String) :
    ((History.served (T.on s.history node)).map (·.1)).Nodup := by
  induction h with
  | start => exact List.nodup_nil
  | @step s i stage service t t' hs hstep ih =>
    rw [on_enter]
    split
    · rw [History.served_concat]
      cases hserves : TrustCall.serves? (s.stage i) stage with
      | none => simpa using ih
      | some answer =>
        have hnone : (s.stage i).answer? = none :=
          (hs.turn hstep).answer?_eq.2.resolve_right (by rw [hserves]; simp)
        have hnew : i ∉ (History.served (T.on s.history node)).map (·.1) := by
          intro hmem
          obtain ⟨⟨j, answer'⟩, hserved, rfl⟩ := List.mem_map.mp hmem
          have hsome : (s.stage j).answer? = some answer' :=
            ((hs.mem_served_iff node j answer').mp hserved).2
          exact Option.some_ne_none _ (hsome.symm.trans hnone)
        rw [Option.map_some, Option.toList_some, List.map_append, List.map_singleton]
        exact nodup_concat ih hnew
    · rwa [List.append_nil]

/-! ### Records -/

/-- What a call is about to save is its effect on the record as it is: since it loaded the record,
nobody else had the lock. -/
theorem Reachable.decided (h : T.Reachable s) {i : ι} {after : TrustRecord} {answer : TrustAnswer}
    (hstage : s.stage i = .saving after answer) :
    (T.call i).effect T.threshold (s.service.record (T.call i).node) = (answer, some after) := by
  induction h with
  | start => cases hstage
  | @step s j stage service t t' hs hstep ih =>
    have hturn := hs.turn hstep
    by_cases hij : i = j
    · subst hij
      rw [State.enter_stage_self] at hstage
      subst hstage
      generalize s.stage i = old at hturn
      cases hturn with
      | decide heffect hrecord =>
        rw [State.enter_service, hrecord]
        exact heffect
    · rw [s.enter_stage_of_ne hij] at hstage
      have hkept : TrustCall.writes (s.stage j) stage = false ∨
          (T.call i).node ≠ (T.call j).node := by
        by_cases hnode : (T.call i).node = (T.call j).node
        · -- A call that saves holds the lock, which `i` does.
          refine Or.inl (Bool.eq_false_iff.mpr fun hwrites => hij ?_)
          have hholds : (s.stage j).holds = true := by
            revert hwrites
            cases s.stage j <;> simp [TrustCall.writes, Stage.holds]
          exact hs.exclusive.alone i j hnode (by rw [hstage]; rfl) hholds
        · exact Or.inr hnode
      rw [State.enter_service, hturn.record_eq hkept]
      exact ih hstage

/-- **The calls of a node could have been made one after another** in the order in which they were
served, with the same answers and the same record in the end. -/
theorem Reachable.run_served (h : T.Reachable s) (node : String) :
    T.run (T.store.load node) ((History.served (T.on s.history node)).map (·.1)) =
      ((History.served (T.on s.history node)).map (·.2), s.service.record node) := by
  induction h with
  | start => rfl
  | @step s i stage service t t' hs hstep ih =>
    have hturn := hs.turn hstep
    rw [on_enter, State.enter_service]
    split
    · rename_i hnode
      subst hnode
      rw [History.served_concat]
      cases hserves : TrustCall.serves? (s.stage i) stage with
      | none =>
        have hsame : service.record (T.call i).node = s.service.record (T.call i).node :=
          hturn.record_eq (Or.inl (TrustCall.writes_of_not_serves hserves))
        simpa [hsame] using ih
      | some answer =>
        have heffect := hturn.effect_eq (fun after answer => hs.decided) hserves
        simp only [Option.map_some, Option.toList_some, List.map_append, List.map_singleton,
          run_concat, ih, heffect]
    · rename_i hnode
      rw [List.append_nil, hturn.record_eq (Or.inr (Ne.symm hnode))]
      exact ih

/-- Calls that only read change nothing: the calls that wrote leave the same record. -/
theorem Reachable.run_writers (h : T.Reachable s) (node : String) :
    (T.run (T.store.load node) (History.writers (T.on s.history node))).2 =
      s.service.record node := by
  induction h with
  | start => rfl
  | @step s i stage service t t' hs hstep ih =>
    have hturn := hs.turn hstep
    rw [on_enter, State.enter_service]
    split
    · rename_i hnode
      subst hnode
      rw [History.writers_concat]
      cases hwrites : TrustCall.writes (s.stage i) stage with
      | false =>
        rw [hturn.record_eq (Or.inl hwrites)]
        simpa using ih
      | true =>
        obtain ⟨answer, hserves⟩ : ∃ answer, TrustCall.serves? (s.stage i) stage = some answer := by
          cases hserves : TrustCall.serves? (s.stage i) stage with
          | none => rw [TrustCall.writes_of_not_serves hserves] at hwrites; cases hwrites
          | some answer => exact ⟨answer, rfl⟩
        have heffect := hturn.effect_eq (fun after answer => hs.decided) hserves
        rw [if_pos rfl, run_concat, ih, heffect]
    · rename_i hnode
      rw [List.append_nil, hturn.record_eq (Or.inr (Ne.symm hnode))]
      exact ih

/-! ### Order -/

/-- A call that took a lock is not about to take it. -/
theorem Reachable.of_mem_owners (h : T.Reachable s) {node : String} {i : ι}
    (hi : i ∈ History.owners (T.on s.history node)) : (s.stage i).early = false := by
  induction h with
  | start => cases hi
  | @step s j stage service t t' hs hstep ih =>
    obtain ⟨hearly, hlocks⟩ := (hs.turn hstep).early_of_locks
    have hstays (hold : i ∈ History.owners (T.on s.history node)) :
        ((s.enter j stage service).stage i).early = false := by
      by_cases hij : i = j
      · subst hij
        rw [State.enter_stage_self]
        exact Bool.eq_false_iff.mpr fun h => Bool.noConfusion ((ih hold).symm.trans (hearly h))
      · rw [s.enter_stage_of_ne hij]
        exact ih hold
    rw [on_enter] at hi
    split at hi
    · rw [History.owners_concat, List.mem_append] at hi
      rcases hi with hi | hi
      · exact hstays hi
      · split at hi
        · rename_i hlocked
          obtain rfl := List.mem_singleton.mp hi
          rw [State.enter_stage_self]
          exact (hlocks hlocked).2
        · cases hi
    · rw [List.append_nil] at hi
      exact hstays hi

/-- No call takes its lock twice. -/
theorem Reachable.nodup_owners (h : T.Reachable s) (node : String) :
    (History.owners (T.on s.history node)).Nodup := by
  induction h with
  | start => exact List.nodup_nil
  | @step s i stage service t t' hs hstep ih =>
    rw [on_enter]
    split
    · rw [History.owners_concat]
      split
      · rename_i hlocked
        refine nodup_concat ih fun hi => ?_
        have hearly := ((hs.turn hstep).early_of_locks.2 hlocked).1
        rw [hs.of_mem_owners hi] at hearly
        cases hearly
      · rwa [List.append_nil]
    · rwa [List.append_nil]

/-- **Calls write in the order in which they took the lock.** The call that holds the lock before it
writes is the last one that took it. -/
theorem Reachable.writers_sublist (h : T.Reachable s) (node : String) :
    (History.writers (T.on s.history node)).Sublist (History.owners (T.on s.history node)) ∧
      ∀ i, (T.call i).node = node → (s.stage i).unsaved = true →
        ∃ earlier, History.owners (T.on s.history node) = earlier ++ [i] ∧
          (History.writers (T.on s.history node)).Sublist earlier := by
  induction h with
  | start => exact ⟨List.nil_sublist _, fun i _ hi => by cases hi⟩
  | @step s i stage service t t' hs hstep ih =>
    have hafter : T.Reachable (s.enter i stage service) := .step hs hstep
    by_cases hnode : (T.call i).node = node
    · subst hnode
      rw [on_enter_self, History.owners_concat, History.writers_concat]
      obtain ⟨hlocks, hwrites, hunsaved⟩ | ⟨hlocks, hwrites, hbefore, hunsaved⟩ |
        ⟨hlocks, hwrites, hunsaved⟩ := (hs.turn hstep).unsaved_cases
      · simp only [hlocks, hwrites, if_true, Bool.false_eq_true, if_false, List.append_nil]
        refine ⟨ih.1.trans (List.sublist_append_left _ _), fun j hj hj' => ?_⟩
        have hji : j = i := hafter.exclusive.alone j i hj (Stage.holds_of_unsaved hj')
          (Stage.holds_of_unsaved (by rw [State.enter_stage_self, hunsaved]))
        exact ⟨_, by rw [hji], ih.1⟩
      · simp only [hlocks, hwrites, if_true, Bool.false_eq_true, if_false, List.append_nil]
        obtain ⟨earlier, howners, hwriters⟩ := ih.2 i rfl hbefore
        refine ⟨howners ▸ hwriters.append_right [i], fun j hj hj' => ?_⟩
        have hji : j ≠ i := by
          rintro rfl
          rw [State.enter_stage_self, hunsaved] at hj'
          cases hj'
        rw [s.enter_stage_of_ne hji] at hj'
        exact absurd (hs.exclusive.alone j i hj (Stage.holds_of_unsaved hj')
          (Stage.holds_of_unsaved hbefore)) hji
      · simp only [hlocks, hwrites, Bool.false_eq_true, if_false, List.append_nil]
        refine ⟨ih.1, fun j hj hj' => ih.2 j hj ?_⟩
        by_cases hji : j = i
        · subst hji
          rw [State.enter_stage_self] at hj'
          exact hunsaved hj'
        · rwa [s.enter_stage_of_ne hji] at hj'
    · rw [on_enter_of_ne s i stage service hnode]
      refine ⟨ih.1, fun j hj hj' => ih.2 j hj ?_⟩
      have hji : j ≠ i := fun heq => hnode (heq ▸ hj)
      rwa [s.enter_stage_of_ne hji] at hj'

omit [DecidableEq ι] in
/-- A call that has written has been served then. -/
theorem History.writers_sublist_served (h : History ι) :
    (History.writers h).Sublist ((History.served h).map (·.1)) := by
  induction h using List.reverseRecOn with
  | nil => exact List.nil_sublist _
  | append_singleton h m ih =>
    rw [writers_concat, served_concat, List.map_append]
    refine ih.append ?_
    split
    · rename_i hwrites
      cases hserves : TrustCall.serves? m.source m.target with
      | none => rw [TrustCall.writes_of_not_serves hserves] at hwrites; cases hwrites
      | some answer => simp
    · exact List.nil_sublist _

/-! ### All calls -/

/-- The calls about one node are as good as made one after another. -/
structure Sequential (T : TrustTraffic ι) (s : State ι) (node : String) : Prop where
  /-- The record is what the calls that wrote make of the first one. -/
  record : s.service.record node =
    (T.run (T.store.load node) (History.writers (T.on s.history node))).2
  /-- They wrote in the order in which they took the lock, -/
  order : (History.writers (T.on s.history node)).Sublist (History.owners (T.on s.history node))
  /-- which no call took twice. -/
  nodup : (History.owners (T.on s.history node)).Nodup
  /-- All calls that were served, readers too, got the answers of one run to the same record. -/
  answers : T.run (T.store.load node) ((History.served (T.on s.history node)).map (·.1)) =
    ((History.served (T.on s.history node)).map (·.2), s.service.record node)
  /-- The calls that wrote are among them, in the same order. -/
  writers : (History.writers (T.on s.history node)).Sublist
    ((History.served (T.on s.history node)).map (·.1))
  /-- No call was served twice. -/
  once : ((History.served (T.on s.history node)).map (·.1)).Nodup
  /-- A call that has returned an answer was served with it, -/
  returned : ∀ i answer, (T.call i).node = node → s.stage i = .done (.ok answer) →
    (i, answer) ∈ History.served (T.on s.history node)
  /-- and one that has returned an error was not served and has not written. -/
  failed : ∀ i e, s.stage i = .done (.error e) →
    i ∉ (History.served (T.on s.history node)).map (·.1)

/-- The calls about a node, in every reachable state. -/
theorem Reachable.sequential (h : T.Reachable s) (node : String) : T.Sequential s node where
  record := (h.run_writers node).symm
  order := (h.writers_sublist node).1
  nodup := h.nodup_owners node
  answers := h.run_served node
  writers := History.writers_sublist_served _
  once := h.nodup_served node
  returned i answer hnode hdone := (h.mem_served_iff node i answer).mpr ⟨hnode, by rw [hdone]; rfl⟩
  failed i e hdone hmem := by
    obtain ⟨⟨j, answer⟩, hserved, rfl⟩ := List.mem_map.mp hmem
    have hanswer : (s.stage j).answer? = some answer :=
      ((h.mem_served_iff node j answer).mp hserved).2
    rw [show s.stage j = .done (.error e) from hdone] at hanswer
    cases hanswer

/-- **Trust calls lose no update.** In every state that calls under way at once get to, those about
each node are as good as made one after another. A step of a call leaves the records of all other
nodes alone, and all records if it could not save. A call that has not returned can go on, or waits
for one that can. -/
theorem linearizable (T : TrustTraffic ι) (s : State ι) (h : T.Reachable s) :
    (∀ node, T.Sequential s node) ∧
      (∀ i stage service t t',
        (T.call i).step (s.stage i) s.service t = some (stage, service, t') →
          (∀ node, node ≠ (T.call i).node → service.record node = s.service.record node) ∧
          ∀ e, stage = .closing (.error e) → service.record = s.service.record) ∧
      ∀ i, (∃ answer, s.stage i = .done answer) ∨
        (∀ t, ∃ next, (T.call i).step (s.stage i) s.service t = some next) ∨
        s.stage i = .waiting ∧ ∃ j, (T.call j).node = (T.call i).node ∧
          ∀ t, ∃ next, (T.call j).step (s.stage j) s.service t = some next := by
  refine ⟨h.sequential, fun i stage service t t' hstep => ⟨fun node hnode => ?_, fun e he => ?_⟩,
    fun i => ?_⟩
  · exact (h.turn hstep).record_eq (Or.inr hnode)
  · funext node
    refine (h.turn hstep).record_eq (Or.inl ?_)
    rw [he]
    cases s.stage i <;> rfl
  · rcases (T.call i).exists_step (s.stage i) s.service with hdone | ⟨hwaiting, hlocked⟩ | hnext
    · exact Or.inl hdone
    · obtain ⟨j, hnode, hholds⟩ := (h.exclusive.mem_locked_iff _).mp hlocked
      refine Or.inr (Or.inr ⟨hwaiting, j, hnode, ?_⟩)
      rcases (T.call j).exists_step (s.stage j) s.service with ⟨_, hj⟩ | ⟨hj, -⟩ | hnext
      · rw [hj] at hholds
        cases hholds
      · rw [hj] at hholds
        cases hholds
      · exact hnext
    · exact Or.inr (Or.inl hnext)

/-- The state after one more step of a call, if it can take one, on a file tree. -/
def State.take (T : TrustTraffic ι) (t : FileTree) (s : State ι) (i : ι) : State ι :=
  match (T.call i).step (s.stage i) s.service t with
  | some (stage, service, _) => s.enter i stage service
  | none => s

/-- Every order of steps gets to a reachable state. -/
theorem reachable_take (T : TrustTraffic ι) (t : FileTree) (is : List ι) :
    T.Reachable (is.foldl (State.take T t) T.begin) := by
  induction is using List.reverseRecOn with
  | nil => exact .start
  | append_singleton is i ih =>
    rw [List.foldl_append, List.foldl_cons, List.foldl_nil, State.take]
    split
    · exact .step ih ‹_›
    · exact ih

/-- Two reports of one node, of different builds. -/
private def reports : TrustTraffic Bool :=
  ⟨.default, .inMemory, fun b => .ingest "n" (some ⟨if b then "1" else "2", "c", .null⟩) 0⟩

/-- One call takes the lock while the other one waits for it. -/
private def turns : List Bool :=
  [true, false, true, false, true, true, true, false, false, false, false]

/-- Of two reports at once the one is the baseline and the other a drift. -/
theorem linearizable_of_two_reports :
    ∃ s, reports.Reachable s ∧
      (∃ a b, s.stage true = .done (.ok a) ∧ s.stage false = .done (.ok b)) ∧
      History.owners (reports.on s.history "n") = [true, false] ∧
      (s.service.record "n").map (·.driftCount) = some 1 ∧ reports.Sequential s "n" :=
  have hreachable := reachable_take reports .empty turns
  ⟨_, hreachable, ⟨_, _, rfl, rfl⟩, rfl, rfl,
    (linearizable reports _ hreachable).1 "n"⟩

end TrustTraffic

end MeshNode
