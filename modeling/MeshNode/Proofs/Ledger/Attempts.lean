import MeshNode.Proofs.Ledger.Calls

/-!
# The ledger as a map

To its callers a ledger is a finite map: to each attempt that was claimed and not dropped it holds
the time of the claim and the result, once there is one. `Attempts` is that map, without texts for
statuses and results, and with unbounded times. A ledger that starts empty answers every sequence of
calls as the map does (`Workspace.answers_eq`).

The rows of the ledger are those of the map at all times. Two things are needed to see it of each
call, and every call keeps them up (`Attempts.Sound`). A result that was written is read as it was,
since it nests no deeper than is read. And no claim is older than the least 64-bit integer, so that
it does not matter that the cutoff of an eviction stops there.
-/

namespace MeshNode

/-- What is kept of an attempt. -/
structure Attempt where
  created : Int
  result : Option Json

namespace Attempt

/-- What a lookup shows of an attempt. -/
def record (id : String) (a : Attempt) : AttemptRecord where
  attemptId := id
  status := if a.result.isSome then .completed else .inProgress
  result := a.result
  created := a.created

/-- The row of an attempt. -/
def row (a : Attempt) : LedgerRow :=
  a.result.elim (Ledger.claimedRow a.created) (Ledger.completedRow (Ledger.claimedRow a.created))

/-- The attempt was claimed no earlier than a ledger can tell, and its result can be read back. -/
structure Sound (a : Attempt) : Prop where
  created : Ledger.minTime ≤ a.created
  result : ∀ result ∈ a.result, result.Readable Json.maxDepth

theorem created_row (a : Attempt) : a.row.created = a.created := by
  rcases a with ⟨created, _ | result⟩ <;> rfl

/-- A completion leaves the row of the completed attempt, whatever the result was before. -/
theorem row_complete (a : Attempt) (result : Json) :
    row { a with result := some result } = Ledger.completedRow a.row result := by
  rcases a with ⟨created, _ | _⟩ <;> rfl

/-- The row of an attempt is read as the record of the attempt. -/
theorem readRow_row {a : Attempt} (h : a.Sound) (id : String) :
    Ledger.readRow id a.row = .ok (a.record id) := by
  rcases a with ⟨created, _ | result⟩
  · exact Ledger.readRow_claimedRow id created
  · exact Ledger.readRow_completedRow (Json.ofBytes_compact (h.result result rfl))

end Attempt

/-- The attempts that are kept, by their ids. -/
structure Attempts where
  entries : Keyed Attempt
  sorted : entries.Sorted

namespace Attempts

/-- No attempts. -/
def empty : Attempts := ⟨[], .nil⟩

/-- The attempt with an id. -/
def find? (m : Attempts) (id : String) : Option Attempt := m.entries.get? id

/-- Adds an attempt, or replaces the one with the same id. -/
def insert (m : Attempts) (id : String) (a : Attempt) : Attempts :=
  ⟨m.entries.insert id a, m.sorted.insert id a⟩

/-- An attempt was claimed more than the time to live before `now`. -/
def Expired (ttlSecs : Nat) (now : Int) (a : Attempt) : Prop := a.created < now - ttlSecs

instance (ttlSecs : Nat) (now : Int) (a : Attempt) : Decidable (Expired ttlSecs now a) :=
  inferInstanceAs (Decidable (_ < _))

/-- Drops the expired attempts. -/
def evict (m : Attempts) (ttlSecs : Nat) (now : Int) : Attempts :=
  ⟨m.entries.filter fun p => ¬ Expired ttlSecs now p.2, m.sorted.filter _⟩

/-- What a call is answered with, and the attempts after it. -/
def call (m : Attempts) : LedgerCall → LedgerAnswer × Attempts
  | .claim id now =>
    match m.find? id with
    | none => (.claimed true, m.insert id ⟨now, none⟩)
    | some _ => (.claimed false, m)
  | .complete id result =>
    match m.find? id with
    | none => (.completed, m)
    | some a => (.completed, m.insert id { a with result := some result })
  | .get id => (.found (.ok ((m.find? id).map (·.record id))), m)
  | .evict ttlSecs now =>
    (.evicted (m.entries.countP fun p => Expired ttlSecs now p.2), m.evict ttlSecs now)

/-- The attempts after calls, one after another. -/
def after (m : Attempts) (calls : List LedgerCall) : Attempts :=
  calls.foldl (fun m c => (m.call c).2) m

/-- The answers to calls, one after another. -/
def answers (m : Attempts) : List LedgerCall → List LedgerAnswer
  | [] => []
  | c :: calls => (m.call c).1 :: (m.call c).2.answers calls

/-- What is dropped is what has expired. -/
theorem find?_evict (m : Attempts) (ttlSecs : Nat) (now : Int) (id : String) :
    (m.evict ttlSecs now).find? id = (m.find? id).filter fun a => ¬ Expired ttlSecs now a := by
  have hkept : (m.evict ttlSecs now).entries.Sublist m.entries := List.filter_sublist
  cases hevict : (m.evict ttlSecs now).find? id with
  | some a =>
    have hfind : m.find? id = some a := m.sorted.get?_of_sublist hkept hevict
    have hfresh := (List.mem_filter.mp (Keyed.mem_of_get? hevict)).2
    rw [hfind, Option.filter_some, if_pos hfresh]
  | none =>
    cases hfind : m.find? id with
    | none => rfl
    | some a =>
      -- An attempt that has not expired would have been kept.
      by_cases hexpired : Expired ttlSecs now a
      · rw [Option.filter_some, if_neg (by simpa using hexpired)]
      · have hmem : (id, a) ∈ (m.evict ttlSecs now).entries :=
          List.mem_filter.mpr ⟨Keyed.mem_of_get? hfind, by simpa using hexpired⟩
        cases hevict.symm.trans ((m.evict ttlSecs now).sorted.get?_eq_some hmem)

/-! ### The rows of the attempts -/

/-- The ledger with the rows of the attempts. -/
def ledger (m : Attempts) : Ledger := ⟨m.entries.map fun p => (p.1, p.2.row)⟩

theorem get?_ledger (m : Attempts) (id : String) :
    m.ledger.rows.get? id = (m.find? id).map Attempt.row := Keyed.get?_map m.entries Attempt.row id

theorem ledger_insert (m : Attempts) (id : String) (a : Attempt) :
    (m.insert id a).ledger = ⟨m.ledger.rows.insert id a.row⟩ :=
  congrArg Ledger.mk (Keyed.map_insert m.entries id a Attempt.row)

/-- All attempts can be read back. -/
def Sound (m : Attempts) : Prop := ∀ p ∈ m.entries, p.2.Sound

theorem sound_empty : empty.Sound := fun _ hp => nomatch hp

theorem Sound.find? {m : Attempts} (h : m.Sound) {id : String} {a : Attempt}
    (hfind : m.find? id = some a) : a.Sound := h _ (Keyed.mem_of_get? hfind)

theorem Sound.insert {m : Attempts} (h : m.Sound) (id : String) {a : Attempt} (ha : a.Sound) :
    (m.insert id a).Sound := by
  intro p hp
  rcases Keyed.eq_or_mem_of_mem_insert hp with rfl | hp
  · exact ha
  · exact h p hp

theorem Sound.evict {m : Attempts} (h : m.Sound) (ttlSecs : Nat) (now : Int) :
    (m.evict ttlSecs now).Sound := fun p hp => h p (List.mem_of_mem_filter hp)

/-! ### The operations of the ledger -/

theorem claim_ledger (m : Attempts) (id : String) (now : Int) :
    m.ledger.claim id now =
      match m.find? id with
      | none => (true, (m.insert id ⟨now, none⟩).ledger)
      | some _ => (false, m.ledger) := by
  rw [Ledger.claim, Keyed.contains, get?_ledger]
  cases m.find? id with
  | none =>
    rw [ledger_insert]
    rfl
  | some a => rfl

theorem complete_ledger (m : Attempts) (id : String) (result : Json) :
    m.ledger.complete id result =
      match m.find? id with
      | none => m.ledger
      | some a => (m.insert id { a with result := some result }).ledger := by
  rw [Ledger.complete, get?_ledger]
  cases m.find? id with
  | none => rfl
  | some a =>
    have hinsert := m.ledger_insert id { a with result := some result }
    rw [Attempt.row_complete] at hinsert
    exact hinsert.symm

/-- No lookup fails. -/
theorem get_ledger {m : Attempts} (h : m.Sound) (id : String) :
    m.ledger.get id = .ok ((m.find? id).map (·.record id)) := by
  rw [Ledger.get, get?_ledger]
  cases hfind : m.find? id with
  | none => rfl
  | some a =>
    simp only [Option.map_some, Attempt.readRow_row (h.find? hfind)]
    rfl

/-- The cutoff of an eviction stops at the least 64-bit integer, but no attempt is older. -/
theorem cutoff_le_iff {a : Attempt} (h : a.Sound) {ttlSecs : Nat}
    (httl : ttlSecs ≤ 0x7fffffffffffffff) (now : Int) :
    Ledger.cutoff ttlSecs now ≤ a.row.created ↔ ¬ Expired ttlSecs now a := by
  have hcreated := h.created
  rw [Ledger.cutoff, Nat.min_eq_left httl, Attempt.created_row, Expired]
  omega

theorem evict_ledger {m : Attempts} (h : m.Sound) {ttlSecs : Nat}
    (httl : ttlSecs ≤ 0x7fffffffffffffff) (now : Int) :
    m.ledger.evict ttlSecs now =
      (m.entries.countP fun p => Expired ttlSecs now p.2, (m.evict ttlSecs now).ledger) := by
  have hkept : (m.ledger.rows.filter fun r => Ledger.cutoff ttlSecs now ≤ r.2.created) =
      (m.evict ttlSecs now).ledger.rows := by
    rw [ledger, ledger, evict, List.filter_map]
    refine congrArg _ (List.filter_congr fun p hp => ?_)
    exact decide_eq_decide.mpr (cutoff_le_iff (h p hp) httl now)
  have hlength (m : Attempts) : m.ledger.rows.length = m.entries.length := List.length_map _
  have hsum := m.entries.length_eq_countP_add_countP fun p => Expired ttlSecs now p.2
  have hcount : (m.evict ttlSecs now).entries.length =
      m.entries.countP fun p => ¬ Expired ttlSecs now p.2 := List.countP_eq_length_filter.symm
  rw [Ledger.evict, hkept, hlength, hlength, hcount]
  refine Prod.ext ?_ rfl
  simp only [decide_not, decide_eq_true_eq] at hsum ⊢
  omega

end Attempts

/-! ### Calls -/

/-- A call with times and a result that a ledger can hold: the time is not before the least 64-bit
integer, the time to live not beyond the greatest, and the result can be read back. -/
def LedgerCall.Sound : LedgerCall → Prop
  | claim _ now => Ledger.minTime ≤ now
  | complete _ result => result.Readable Json.maxDepth
  | get _ => True
  | evict ttlSecs _ => ttlSecs ≤ 0x7fffffffffffffff

/-- Calls leave attempts that can be read back. -/
theorem Attempts.Sound.call {m : Attempts} (h : m.Sound) {c : LedgerCall} (hc : c.Sound) :
    (m.call c).2.Sound := by
  cases c with
  | claim id now =>
    rw [Attempts.call]
    split
    · exact h.insert id ⟨hc, fun _ hresult => nomatch hresult⟩
    · exact h
  | complete id result =>
    rw [Attempts.call]
    split
    · exact h
    · rename_i a hfind
      refine h.insert id ⟨(h.find? hfind).created, ?_⟩
      rintro _ ⟨⟩
      exact hc
  | get id => exact h
  | evict ttlSecs now => exact h.evict ttlSecs now

namespace Workspace

variable {w : Workspace} {m : Attempts}

/-- The answers to calls, one after another. -/
def answers (w : Workspace) : List LedgerCall → List LedgerAnswer
  | [] => []
  | c :: calls => (w.call c).1 :: (w.call c).2.answers calls

/-- **One call to the ledger is one call to the map.** -/
theorem call_eq (hm : m.Sound) (hw : w.ledger.ledger = m.ledger) {c : LedgerCall} (hc : c.Sound) :
    (w.call c).1 = (m.call c).1 ∧ (w.call c).2.ledger.ledger = (m.call c).2.ledger := by
  cases c with
  | claim id now =>
    simp only [call, LedgerStore.claim, LedgerStore.ledger_update, hw, m.claim_ledger,
      Attempts.call]
    cases m.find? id <;> exact ⟨rfl, rfl⟩
  | complete id result =>
    simp only [call, LedgerStore.complete, LedgerStore.ledger_update, hw, m.complete_ledger,
      Attempts.call]
    cases m.find? id <;> exact ⟨rfl, rfl⟩
  | get id =>
    simp only [call, LedgerStore.get, hw, Attempts.get_ledger hm, Attempts.call, and_self]
  | evict ttlSecs now =>
    simp only [call, LedgerStore.evict, LedgerStore.ledger_update, hw,
      Attempts.evict_ledger hm hc, Attempts.call, and_self]

/-- Calls one after another leave the rows of the attempts that they leave in the map, and have its
answers. -/
theorem after_eq (hm : m.Sound) (hw : w.ledger.ledger = m.ledger) {calls : List LedgerCall}
    (hcalls : ∀ c ∈ calls, c.Sound) :
    (m.after calls).Sound ∧ (w.after calls).ledger.ledger = (m.after calls).ledger ∧
      w.answers calls = m.answers calls := by
  induction calls generalizing w m with
  | nil => exact ⟨hm, hw, rfl⟩
  | cons c calls ih =>
    obtain ⟨hc, hcalls⟩ := List.forall_mem_cons.mp hcalls
    obtain ⟨hanswer, hledger⟩ := call_eq hm hw hc
    obtain ⟨hsound, hafter, hanswers⟩ := ih (hm.call hc) hledger hcalls
    exact ⟨hsound, hafter, by rw [answers, Attempts.answers, hanswer, hanswers]⟩

/-- A claim is won by an attempt that is not kept. -/
theorem answer_claim_iff (hm : m.Sound) (hw : w.ledger.ledger = m.ledger) (id : String) {now : Int}
    (hnow : Ledger.minTime ≤ now) :
    w.answer (.claim id now) = .claimed true ↔ m.find? id = none := by
  rw [answer, (call_eq hm hw (c := .claim id now) hnow).1, Attempts.call]
  cases m.find? id <;> simp

/-- **A ledger that starts empty is a map with expiry**: it answers every sequence of calls as the
map from ids to attempts does, whose lookups never fail. After an eviction exactly the attempts that
were not kept, or had expired, can be claimed. -/
theorem answers_eq (hfresh : w.ledger.ledger = .empty) {calls : List LedgerCall}
    (hcalls : ∀ c ∈ calls, c.Sound) :
    w.answers calls = Attempts.empty.answers calls ∧
      ∀ (id : String) (ttlSecs : Nat) (now later : Int), ttlSecs ≤ 0x7fffffffffffffff →
        Ledger.minTime ≤ later →
          ((w.after (calls ++ [.evict ttlSecs now])).answer (.claim id later) = .claimed true ↔
            ∀ a ∈ (Attempts.empty.after calls).find? id, Attempts.Expired ttlSecs now a) := by
  obtain ⟨hsound, hledger, hanswers⟩ := after_eq Attempts.sound_empty hfresh hcalls
  refine ⟨hanswers, fun id ttlSecs now later httl hlater => ?_⟩
  have hevict : LedgerCall.Sound (.evict ttlSecs now) := httl
  have hevicted := (call_eq hsound hledger hevict).2
  rw [after_concat, answer_claim_iff (hsound.call hevict) hevicted id hlater, Attempts.call,
    Attempts.find?_evict]
  cases (Attempts.empty.after calls).find? id <;> simp

/-! ### Claims at both ends of the clock -/

private def done : Json := .obj [("ok", .bool true)]

private theorem readable_done : done.Readable Json.maxDepth := by
  have hkeys : ["ok"].Pairwise (· < ·) := by decide
  refine .obj (Keyed.sorted_of_keys hkeys) fun f hf => ?_
  obtain rfl := List.mem_singleton.mp hf
  exact .bool

/-- The oldest claim that there can be is completed, and dropped as soon as it has expired. -/
private def extremes : List LedgerCall :=
  [.claim "a" Ledger.minTime, .claim "a" 0, .complete "a" done, .claim "b" 0x7fffffffffffffff,
    .evict 0x7fffffffffffffff Ledger.minTime, .get "a", .evict 0x7fffffffffffffff 0, .get "a",
    .claim "a" 0, .get "a"]

private theorem sound_extremes : ∀ c ∈ extremes, c.Sound := by
  simp only [extremes, List.forall_mem_cons, LedgerCall.Sound]
  exact ⟨by decide, by decide, readable_done, by decide, by decide, trivial, by decide, trivial,
    by decide, trivial, fun _ hc => nomatch hc⟩

/-- An eviction at the least time drops nothing, however long the time to live. -/
theorem answers_eq_extremes : answers ⟨.inMemory, .empty⟩ extremes =
    [.claimed true, .claimed false, .completed, .claimed true, .evicted 0,
      .found (.ok (some ⟨"a", .completed, some done, Ledger.minTime⟩)), .evicted 1,
      .found (.ok none), .claimed true, .found (.ok (some ⟨"a", .inProgress, none, 0⟩))] :=
  (answers_eq rfl sound_extremes).1.trans rfl

end Workspace

end MeshNode
