import MeshNode.Ledger.Store

/-!
# The rows of a ledger after each operation

What looking an attempt up answers after a claim and after a completion, in terms of what it
answered before. Whether the ledger is kept in a file changes nothing of it: a store and its ledger
have the same rows after the same operations.
-/

namespace MeshNode

namespace Ledger

/-- The row of a claim that has just been made. -/
def claimedRow (now : Int) : LedgerRow := ⟨AttemptStatus.inProgress.name, none, now⟩

/-- A row once the attempt has been completed. -/
def completedRow (row : LedgerRow) (result : Json) : LedgerRow :=
  { row with status := AttemptStatus.completed.name, result := some result.compact }

/-- A claim is won exactly by an attempt without a row. -/
theorem claim_won (l : Ledger) (id : String) (now : Int) :
    (l.claim id now).1 = (l.rows.get? id).isNone := by
  cases h : l.rows.get? id <;> simp [claim, Keyed.contains, h]

/-- A claim adds a row for an attempt without one, and changes no other. -/
theorem get?_claim (l : Ledger) (id : String) (now : Int) (k : String) :
    (l.claim id now).2.rows.get? k =
      if k = id then some ((l.rows.get? id).getD (claimedRow now)) else l.rows.get? k := by
  cases h : l.rows.get? id with
  | none =>
    simp [claim, Keyed.contains, h, Keyed.get?_insert, claimedRow]
  | some row =>
    by_cases hk : k = id
    · subst hk; simp [claim, Keyed.contains, h]
    · simp [claim, Keyed.contains, h, hk]

/-- A completion rewrites the row of its attempt, if there is one, and changes no other. -/
theorem get?_complete (l : Ledger) (id : String) (result : Json) (k : String) :
    (l.complete id result).rows.get? k =
      if k = id then (l.rows.get? id).map (completedRow · result) else l.rows.get? k := by
  cases h : l.rows.get? id with
  | none =>
    by_cases hk : k = id
    · subst hk; simp [complete, h]
    · simp [complete, h, hk]
  | some row => simp [complete, h, Keyed.get?_insert, completedRow]

/-- The row of a new claim is read as an attempt in progress. -/
@[simp] theorem readRow_claimedRow (id : String) (now : Int) :
    readRow id (claimedRow now) = .ok ⟨id, .inProgress, none, now⟩ := rfl

/-- The row of a completed attempt is read with whatever the text of its result is read as. -/
theorem readRow_completedRow_eq (id : String) (row : LedgerRow) (result : Json) :
    readRow id (completedRow row result) =
      ((Json.ofBytes (.ofText result.compact)).mapError .unreadable).map
        fun r => ⟨id, .completed, some r, row.created⟩ := by
  have hstatus : AttemptStatus.ofName? AttemptStatus.completed.name = some .completed := by decide
  simp only [readRow, completedRow, hstatus]
  cases Json.ofBytes (.ofText result.compact) <;> rfl

/-- The row of a completed attempt is read with its result, if the text of the result is read as
it was written. -/
theorem readRow_completedRow {id : String} {row : LedgerRow} {result : Json}
    (hdecode : Json.ofBytes (.ofText result.compact) = .ok result) :
    readRow id (completedRow row result) = .ok ⟨id, .completed, some result, row.created⟩ := by
  rw [readRow_completedRow_eq, hdecode]
  rfl

end Ledger

namespace LedgerStore

/-- A store has the rows it is updated with, wherever it is kept. -/
@[simp] theorem ledger_update (s : LedgerStore) (ledger : Ledger) (logged : Nat) (t : FileTree) :
    (s.update ledger logged t).1.ledger = ledger := by
  unfold update
  split <;> rfl

theorem claim_won (s : LedgerStore) (id : String) (now : Int) (t : FileTree) :
    (s.claim id now t).1 = (s.ledger.rows.get? id).isNone := Ledger.claim_won _ _ _

theorem get?_claim (s : LedgerStore) (id : String) (now : Int) (t : FileTree) (k : String) :
    (s.claim id now t).2.1.ledger.rows.get? k =
      if k = id then some ((s.ledger.rows.get? id).getD (Ledger.claimedRow now))
      else s.ledger.rows.get? k := by
  rw [claim, ledger_update, Ledger.get?_claim]

theorem get?_complete (s : LedgerStore) (id : String) (result : Json) (t : FileTree) (k : String) :
    (s.complete id result t).1.ledger.rows.get? k =
      if k = id then (s.ledger.rows.get? id).map (Ledger.completedRow · result)
      else s.ledger.rows.get? k := by
  rw [complete, ledger_update, Ledger.get?_complete]

end LedgerStore

end MeshNode
