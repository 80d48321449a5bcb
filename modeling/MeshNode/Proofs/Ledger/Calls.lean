import Mathlib.Data.List.Induction
import MeshNode.Proofs.Job.Traffic
import MeshNode.Proofs.Json.Compact

/-!
# Calls to a ledger, one after another

Whoever shares a ledger claims attempts, completes them, looks them up and drops the old ones. Of a
row that is not dropped only completions change anything, and each of them writes its result over
the one before, whatever the status of the row: a completion does not know whether the attempt was
claimed again since its own claim. So after any calls a row has the result of the last completion
among them (`row_after`), and the answer of a lookup that found a completed attempt stays the same
for as long as every completion writes a result that reads as the first one does
(`completed_stays_iff`).
-/

namespace MeshNode

/-- A call to a ledger. -/
inductive LedgerCall where
  | claim (id : String) (now : Int)
  | complete (id : String) (result : Json)
  | get (id : String)
  | evict (ttlSecs : Nat) (now : Int)

/-- What a call to a ledger is answered with. -/
inductive LedgerAnswer where
  | claimed (won : Bool)
  | completed
  | found (record : Except StoreError (Option AttemptRecord))
  | evicted (rows : Nat)

namespace Workspace

/-- Makes a call to the ledger. -/
def call (w : Workspace) : LedgerCall → LedgerAnswer × Workspace
  | .claim id now =>
    let (won, ledger, files) := w.ledger.claim id now w.files
    (.claimed won, ⟨ledger, files⟩)
  | .complete id result =>
    let (ledger, files) := w.ledger.complete id result w.files
    (.completed, ⟨ledger, files⟩)
  | .get id => (.found (w.ledger.get id), w)
  | .evict ttlSecs now =>
    let (rows, ledger, files) := w.ledger.evict ttlSecs now w.files
    (.evicted rows, ⟨ledger, files⟩)

/-- What a call is answered with. -/
def answer (w : Workspace) (c : LedgerCall) : LedgerAnswer := (w.call c).1

/-- The workspace after calls, one after another. -/
def after (w : Workspace) (calls : List LedgerCall) : Workspace :=
  calls.foldl (fun w c => (w.call c).2) w

@[simp] theorem after_nil (w : Workspace) : w.after [] = w := rfl

theorem after_concat (w : Workspace) (calls : List LedgerCall) (c : LedgerCall) :
    w.after (calls ++ [c]) = ((w.after calls).call c).2 := by
  simp [after]

end Workspace

namespace LedgerCall

/-- The result with which a call completes an attempt. -/
def completion? (id : String) : LedgerCall → Option Json
  | complete id' result => if id' = id then some result else none
  | _ => none

/-- The result of the last completion of an attempt. -/
def lastCompletion? (id : String) (calls : List LedgerCall) : Option Json :=
  (calls.filterMap (completion? id)).getLast?

/-- A call does not drop rows that were claimed at a given time. -/
def Spares (created : Int) : LedgerCall → Prop
  | evict ttlSecs now => Ledger.cutoff ttlSecs now ≤ created
  | _ => True

theorem completion?_eq_some {id : String} {c : LedgerCall} {result : Json} :
    completion? id c = some result ↔ c = complete id result := by
  cases c with
  | complete id' result' =>
    by_cases hid : id' = id
    · simp [completion?, hid]
    · simp [completion?, hid]
  | claim | get | evict => simp [completion?]

theorem lastCompletion?_concat (id : String) (calls : List LedgerCall) (c : LedgerCall) :
    lastCompletion? id (calls ++ [c]) = (completion? id c).or (lastCompletion? id calls) := by
  cases h : completion? id c <;> simp [lastCompletion?, List.filterMap_append, h]

theorem mem_of_lastCompletion? {id : String} {calls : List LedgerCall} {result : Json}
    (h : lastCompletion? id calls = some result) : complete id result ∈ calls := by
  obtain ⟨c, hc, hresult⟩ := List.mem_filterMap.mp (List.mem_of_getLast? h)
  exact completion?_eq_some.mp hresult ▸ hc

end LedgerCall

namespace LedgerAnswer

/-- What is found of an attempt once it has been completed with a result: the result as its text is
read. -/
def foundCompleted (id : String) (result : Json) (created : Int) : LedgerAnswer :=
  .found (((Json.ofBytes (.ofText result.compact)).mapError .unreadable).map
    fun r => some ⟨id, .completed, some r, created⟩)

theorem foundCompleted_eq_iff {id : String} {result r : Json} {created : Int} :
    foundCompleted id result created = .found (.ok (some ⟨id, .completed, some r, created⟩)) ↔
      Json.ofBytes (.ofText result.compact) = .ok r := by
  unfold foundCompleted
  cases Json.ofBytes (.ofText result.compact) <;> simp [Except.mapError, Except.map]

end LedgerAnswer

/-! ### Rows -/

namespace Ledger

/-- A row that is not too old is kept. -/
theorem get?_evict {l : Ledger} {id : String} {row : LedgerRow} (hrow : l.rows.get? id = some row)
    {ttlSecs : Nat} {now : Int} (hkept : cutoff ttlSecs now ≤ row.created) :
    (l.evict ttlSecs now).2.rows.get? id = some row := by
  obtain ⟨before, rest, hrows, hbefore⟩ := List.lookup_eq_some_iff.mp hrow
  refine List.lookup_eq_some_iff.mpr ⟨before.filter (cutoff ttlSecs now ≤ ·.2.created),
    rest.filter (cutoff ttlSecs now ≤ ·.2.created), ?_, fun p hp => ?_⟩
  · simp [evict, hrows, hkept]
  · exact hbefore p (List.mem_of_mem_filter hp)

/-- A record tells when its row was claimed. -/
theorem created_of_readRow {id : String} {row : LedgerRow} {record : AttemptRecord}
    (h : readRow id row = .ok record) : row.created = record.created := by
  unfold readRow at h
  split at h
  · cases h
  · cases h; rfl
  · cases h
  · split at h <;> cases h
    rfl

end Ledger

namespace Workspace

variable {w : Workspace} {id : String} {held : LedgerRow}

/-- A call leaves a row that it spares, or completes it. -/
theorem row_call (hrow : w.row id = some held) {c : LedgerCall} (hspares : c.Spares held.created) :
    (w.call c).2.row id = some ((c.completion? id).elim held (Ledger.completedRow held)) := by
  have hget : w.ledger.ledger.rows.get? id = some held := hrow
  cases c with
  | claim id' now =>
    rw [Workspace.row, call, LedgerStore.get?_claim]
    split_ifs with hid
    · subst hid; simp [hget, LedgerCall.completion?]
    · exact hget
  | complete id' result =>
    rw [Workspace.row, call, LedgerStore.get?_complete]
    by_cases hid : id = id'
    · subst hid; simp [hget, LedgerCall.completion?]
    · simp [hid, Ne.symm hid, hget, LedgerCall.completion?]
  | get => exact hrow
  | evict ttlSecs now =>
    rw [Workspace.row, call, LedgerStore.evict, LedgerStore.ledger_update]
    exact Ledger.get?_evict hget hspares

/-- **After calls that spare a row it has the result of the last completion among them.** -/
theorem row_after (hrow : w.row id = some held) {calls : List LedgerCall}
    (hspares : ∀ c ∈ calls, c.Spares held.created) :
    (w.after calls).row id =
      some ((LedgerCall.lastCompletion? id calls).elim held (Ledger.completedRow held)) := by
  induction calls using List.reverseRecOn with
  | nil => exact hrow
  | append_singleton calls c ih =>
    have hcalls := ih fun c hc => hspares c (List.mem_append_left _ hc)
    have hcreated : ((LedgerCall.lastCompletion? id calls).elim held
        (Ledger.completedRow held)).created = held.created := by
      cases LedgerCall.lastCompletion? id calls <;> rfl
    have hlast := hspares c (List.mem_append_right _ (List.mem_singleton_self c))
    rw [after_concat, row_call hcalls (hcreated ▸ hlast), LedgerCall.lastCompletion?_concat]
    -- A second completion leaves nothing of the first.
    cases c.completion? id with
    | none => rfl
    | some result => cases LedgerCall.lastCompletion? id calls <;> rfl

/-! ### Lookups -/

theorem answer_get_of_row (hrow : w.row id = some held) :
    w.answer (.get id) = .found ((Ledger.readRow id held).map some) := by
  rw [answer, call, get_eq, hrow]

theorem answer_get_of_completed {result : Json}
    (hrow : w.row id = some (Ledger.completedRow held result)) :
    w.answer (.get id) = .foundCompleted id result held.created := by
  rw [answer_get_of_row hrow, Ledger.readRow_completedRow_eq, LedgerAnswer.foundCompleted]
  cases Json.ofBytes (.ofText result.compact) <;> rfl

/-- A record that is found stands in a row of its time. -/
theorem exists_row_of_answer {record : AttemptRecord}
    (h : w.answer (.get id) = .found (.ok (some record))) :
    ∃ held, w.row id = some held ∧ held.created = record.created := by
  have hget : w.ledger.get id = .ok (some record) := LedgerAnswer.found.inj h
  rw [get_eq] at hget
  cases hrow : w.row id with
  | none =>
    rw [hrow] at hget
    cases hget
  | some held =>
    rw [hrow] at hget
    have hread : Ledger.readRow id held = .ok record := by
      cases hread : Ledger.readRow id held with
      | error e =>
        simp only [hread] at hget
        cases hget
      | ok record' =>
        simp only [hread] at hget
        cases hget
        rfl
    exact ⟨held, rfl, Ledger.created_of_readRow hread⟩

/-- Completing an attempt makes a completed record of whatever record there is of it, makes none
where there is none, and leaves all other attempts. -/
theorem answer_get_after_complete (w : Workspace) (id : String) (result : Json) :
    (∀ record, w.answer (.get id) = .found (.ok (some record)) →
      (w.after [.complete id result]).answer (.get id) =
        .foundCompleted id result record.created) ∧
    (w.answer (.get id) = .found (.ok none) →
      (w.after [.complete id result]).answer (.get id) = .found (.ok none)) ∧
    ∀ other, other ≠ id →
      (w.after [.complete id result]).answer (.get other) = w.answer (.get other) := by
  have hrow (k : String) : (w.after [.complete id result]).row k =
      if k = id then (w.row id).map (Ledger.completedRow · result) else w.row k :=
    LedgerStore.get?_complete w.ledger id result w.files k
  refine ⟨fun record hfound => ?_, fun hfound => ?_, fun other hother => ?_⟩
  · obtain ⟨held, hheld, hcreated⟩ := exists_row_of_answer hfound
    have hcompleted := hrow id
    rw [if_pos rfl, hheld, Option.map_some] at hcompleted
    rw [answer_get_of_completed hcompleted, hcreated]
  · cases hheld : w.row id with
    | none =>
      have hnone := hrow id
      rw [if_pos rfl, hheld, Option.map_none] at hnone
      rw [answer, call, get_eq, hnone]
    | some held =>
      rw [answer_get_of_row hheld] at hfound
      cases hread : Ledger.readRow id held <;> simp [hread, Except.map] at hfound
  · have hsame := hrow other
    rw [if_neg hother] at hsame
    rw [answer, call, get_eq, hsame]
    rfl

/-- **A completed result is as final as the completions that follow.** After a lookup has found an
attempt completed, and while its row is not dropped, every further lookup finds the same if and only
if every completion of the attempt writes a result that reads as the first one. What is found after
any calls is the result of the last completion among them. -/
theorem completed_stays_iff {r : Json} {created : Int}
    (hfound : w.answer (.get id) = .found (.ok (some ⟨id, .completed, some r, created⟩)))
    {calls : List LedgerCall} (hspares : ∀ c ∈ calls, c.Spares created) :
    ((∀ earlier, earlier <+: calls → (w.after earlier).answer (.get id) = w.answer (.get id)) ↔
      ∀ result, .complete id result ∈ calls → Json.ofBytes (.ofText result.compact) = .ok r) ∧
    (∀ result, LedgerCall.lastCompletion? id calls = some result →
      (w.after calls).answer (.get id) = .foundCompleted id result created) ∧
    ∀ (v : Workspace) (id : String) (result : Json),
      (∀ record, v.answer (.get id) = .found (.ok (some record)) →
        (v.after [.complete id result]).answer (.get id) =
          .foundCompleted id result record.created) ∧
      (v.answer (.get id) = .found (.ok none) →
        (v.after [.complete id result]).answer (.get id) = .found (.ok none)) ∧
      ∀ other, other ≠ id →
        (v.after [.complete id result]).answer (.get other) = v.answer (.get other) := by
  obtain ⟨held, hrow, hcreated⟩ := exists_row_of_answer hfound
  have hcreated : held.created = created := hcreated
  have hafter {earlier : List LedgerCall} (hearlier : earlier <+: calls) :=
    row_after hrow fun c hc => hcreated ▸ hspares c (hearlier.subset hc)
  have hlast {earlier : List LedgerCall} (hearlier : earlier <+: calls) {result : Json}
      (hcompletion : LedgerCall.lastCompletion? id earlier = some result) :
      (w.after earlier).answer (.get id) = .foundCompleted id result created := by
    have hcompleted := hafter hearlier
    rw [hcompletion] at hcompleted
    rw [answer_get_of_completed hcompleted, hcreated]
  refine ⟨⟨fun hstays result hresult => ?_, fun hsame earlier hearlier => ?_⟩,
    fun result => hlast List.prefix_rfl, answer_get_after_complete⟩
  · -- The lookup right after the completion finds its result.
    obtain ⟨before, rest, rfl⟩ := List.append_of_mem hresult
    have hearlier : before ++ [.complete id result] <+: before ++ .complete id result :: rest :=
      (List.prefix_append_right_inj before).mpr ⟨rest, rfl⟩
    have hcompletion : LedgerCall.lastCompletion? id (before ++ [.complete id result]) =
        some result := by
      simp [LedgerCall.lastCompletion?_concat, LedgerCall.completion?]
    have hagain := hstays _ hearlier
    rw [hlast hearlier hcompletion, hfound] at hagain
    exact LedgerAnswer.foundCompleted_eq_iff.mp hagain
  · cases hcompletion : LedgerCall.lastCompletion? id earlier with
    | none =>
      have hsame := hafter hearlier
      rw [hcompletion] at hsame
      rw [answer_get_of_row hsame, answer_get_of_row hrow]
      rfl
    | some result =>
      have hread := hsame result (hearlier.subset (LedgerCall.mem_of_lastCompletion? hcompletion))
      rw [hlast hearlier hcompletion, hfound]
      exact LedgerAnswer.foundCompleted_eq_iff.mpr hread

/-! ### A late completion -/

/-- The result of a call that names itself. -/
private def resultOf (name : String) : Json := .obj [("by", .str name), ("ok", .bool true)]

private theorem ofBytes_resultOf (name : String) :
    Json.ofBytes (.ofText (resultOf name).compact) = .ok (resultOf name) := by
  have hkeys : ["by", "ok"].Pairwise (· < ·) := by decide
  refine Json.ofBytes_compact (.obj (Keyed.sorted_of_keys hkeys) fun f hf => ?_)
  rcases List.mem_cons.mp hf with rfl | hf
  · exact .str
  · obtain rfl := List.mem_singleton.mp hf
    exact .bool

/-- An attempt is claimed, dropped, claimed again, and completed by the second claim. -/
private def reclaimed : List LedgerCall :=
  [.claim "a" 0, .evict 10 100, .claim "a" 100, .complete "a" (resultOf "second")]

private theorem answer_reclaimed :
    (after ⟨.inMemory, .empty⟩ reclaimed).answer (.get "a") =
      .found (.ok (some ⟨"a", .completed, some (resultOf "second"), 100⟩)) := by
  have hrow : (after ⟨.inMemory, .empty⟩ reclaimed).row "a" =
      some (Ledger.completedRow (Ledger.claimedRow 100) (resultOf "second")) := rfl
  rw [answer_get_of_completed hrow]
  exact LedgerAnswer.foundCompleted_eq_iff.mpr (ofBytes_resultOf "second")

/-- The completion of a claim whose row was dropped replaces the result of the claim after it. -/
theorem completed_stays_iff_late :
    (after ⟨.inMemory, .empty⟩ reclaimed).answer (.get "a") =
        .found (.ok (some ⟨"a", .completed, some (resultOf "second"), 100⟩)) ∧
      (∀ c ∈ [LedgerCall.complete "a" (resultOf "first")], c.Spares 100) ∧
      ((after ⟨.inMemory, .empty⟩ reclaimed).after
          [.complete "a" (resultOf "first")]).answer (.get "a") =
        .found (.ok (some ⟨"a", .completed, some (resultOf "first"), 100⟩)) := by
  have hspares : ∀ c ∈ [LedgerCall.complete "a" (resultOf "first")], c.Spares 100 := by
    intro c hc
    rw [List.mem_singleton.mp hc]
    trivial
  have hlast := (completed_stays_iff answer_reclaimed hspares).2.1 (resultOf "first") rfl
  refine ⟨answer_reclaimed, hspares, hlast.trans ?_⟩
  exact LedgerAnswer.foundCompleted_eq_iff.mpr (ofBytes_resultOf "first")

/-- Completed results are not final, not even in a ledger that was empty at first. -/
theorem not_forall_completed_stays :
    ¬ ∀ (earlier calls : List LedgerCall) (id : String) (r : Json) (created : Int),
      (after ⟨.inMemory, .empty⟩ earlier).answer (.get id) =
        .found (.ok (some ⟨id, .completed, some r, created⟩)) →
      (∀ c ∈ calls, c.Spares created) →
      ((after ⟨.inMemory, .empty⟩ earlier).after calls).answer (.get id) =
        .found (.ok (some ⟨id, .completed, some r, created⟩)) := by
  intro h
  have hspares : ∀ c ∈ [LedgerCall.complete "a" (resultOf "first")], c.Spares 100 := by
    intro c hc
    rw [List.mem_singleton.mp hc]
    trivial
  have hstays := h _ _ _ _ _ answer_reclaimed hspares
  have hrow : ((after ⟨.inMemory, .empty⟩ reclaimed).after
      [.complete "a" (resultOf "first")]).row "a" =
        some (Ledger.completedRow (Ledger.claimedRow 100) (resultOf "first")) := rfl
  rw [answer_get_of_completed hrow] at hstays
  have hread := LedgerAnswer.foundCompleted_eq_iff.mp hstays
  rw [ofBytes_resultOf] at hread
  exact absurd hread (by simp [resultOf])

end Workspace

end MeshNode
