import Mathlib.Data.List.Induction
import Mathlib.Data.List.MinMax
import Mathlib.Data.List.Nodup
import MeshNode.Channel.Table
import MeshNode.Proofs.Keyed

/-!
# Which sessions are kept

A table is called at times that increase. After any calls it has no more sessions than it may, and
for each of them the time of the last call that entered it or looked it up (`Tracks`): so the times
of two sessions differ, and there is one that was used before all others.

When another session is entered, all are kept while there is room. In a full table those that were
idle for too long are dropped, and if none was, the one that was used before all others (`Keeps`).
-/

namespace MeshNode.SessionTable

/-- A call to a table. -/
inductive Call where
  | insert (c : Channel)
  | get (id : String)
  | remove (id : String)
  | prune

/-- The session that a call uses: the one it enters or looks up. -/
def Call.used? : Call → Option String
  | insert c => some c.sessionId
  | get id => some id
  | remove _ => none
  | prune => none

/-- The table after a call. -/
def call (t : SessionTable) (now : Nat) : Call → SessionTable
  | .insert c => t.insert c now
  | .get id => (t.get id now).2
  | .remove id => (t.remove id).2
  | .prune => t.prune now

/-- The table after calls at their times, one after another. -/
def after (t : SessionTable) (calls : List (Nat × Call)) : SessionTable :=
  calls.foldl (fun t c => t.call c.1 c.2) t

@[simp] theorem after_nil (t : SessionTable) : t.after [] = t := rfl

theorem after_concat (t : SessionTable) (calls : List (Nat × Call)) (c : Nat × Call) :
    t.after (calls ++ [c]) = (t.after calls).call c.1 c.2 := by
  simp [after]

/-! ### Uses -/

/-- The time of the last call that entered a session or looked it up. -/
def lastUse? (id : String) (calls : List (Nat × Call)) : Option Nat :=
  ((calls.filter (·.2.used? = some id)).map (·.1)).getLast?

theorem lastUse?_concat (id : String) (calls : List (Nat × Call)) (c : Nat × Call) :
    lastUse? id (calls ++ [c]) = if c.2.used? = some id then some c.1 else lastUse? id calls := by
  by_cases h : c.2.used? = some id <;> simp [lastUse?, List.filter_append, h]

/-- A use is a call. -/
theorem exists_call_of_lastUse? {id : String} {calls : List (Nat × Call)} {time : Nat}
    (h : lastUse? id calls = some time) : ∃ c, (time, c) ∈ calls ∧ c.used? = some id := by
  obtain ⟨⟨time', c⟩, hc, rfl⟩ := List.mem_map.mp (List.mem_of_getLast? h)
  obtain ⟨hmem, hused⟩ := List.mem_filter.mp hc
  exact ⟨c, hmem, of_decide_eq_true hused⟩

/-- Two sessions are not used at one time. -/
theorem eq_of_lastUse? {calls : List (Nat × Call)} (htimes : (calls.map (·.1)).Pairwise (· < ·))
    {id id' : String} {time : Nat} (h : lastUse? id calls = some time)
    (h' : lastUse? id' calls = some time) : id = id' := by
  obtain ⟨c, hc, hused⟩ := exists_call_of_lastUse? h
  obtain ⟨c', hc', hused'⟩ := exists_call_of_lastUse? h'
  have hdistinct : (calls.map (·.1)).Nodup := htimes.imp Nat.ne_of_lt
  have hcall : (time, c) = (time, c') := List.inj_on_of_nodup_map hdistinct hc hc' rfl
  cases hcall
  exact Option.some.inj (hused.symm.trans hused')

/-! ### Making room -/

/-- The sessions that were not idle for too long. -/
def awake (config : SessionConfig) (now : Nat) (sessions : Keyed Session) : Keyed Session :=
  sessions.filter fun s => ¬s.2.Idle config now

/-- What is kept of sessions when another is entered at a time. -/
inductive Keeps (config : SessionConfig) (now : Nat) (sessions : Keyed Session) :
    Keyed Session → Prop
  /-- There is room. -/
  | all (room : sessions.length < config.maxSessions) : Keeps config now sessions sessions
  /-- There is room once the idle sessions are dropped. -/
  | pruned (full : config.maxSessions ≤ sessions.length)
      (room : (awake config now sessions).length < config.maxSessions) :
      Keeps config now sessions (awake config now sessions)
  /-- There is no room even so, and the session is dropped that was used before the others. -/
  | others (s : String × Session) (rest : Keyed Session)
      (full : config.maxSessions ≤ (awake config now sessions).length)
      (kept : (awake config now sessions).Perm (s :: rest))
      (oldest : ∀ r ∈ rest, s.2.lastUsed < r.2.lastUsed) : Keeps config now sessions rest

/-- The oldest session is the first with the least time of its last use. -/
theorem oldest?_eq_argmin (sessions : Keyed Session) :
    oldest? sessions = (sessions.argmin (·.2.lastUsed)).map (·.1) := by
  unfold oldest? List.argmin
  congr 2
  funext least s
  cases least <;> rfl

@[simp] theorem prune_config (t : SessionTable) (now : Nat) : (t.prune now).config = t.config := rfl

/-- Dropping the oldest session erases the one that was used before the others, if there is any. -/
theorem dropOldest_spec (t : SessionTable) :
    (t.sessions = [] ∧ t.dropOldest = t) ∨
    ∃ s ∈ t.sessions, (∀ r ∈ t.sessions, s.2.lastUsed ≤ r.2.lastUsed) ∧
      t.dropOldest = { t with sessions := t.sessions.erase s.1 } := by
  unfold dropOldest
  rw [oldest?_eq_argmin]
  cases hleast : t.sessions.argmin (·.2.lastUsed) with
  | none => exact Or.inl ⟨List.argmin_eq_none.mp hleast, rfl⟩
  | some s =>
    have hleastUse : ∀ r ∈ t.sessions, s.2.lastUsed ≤ r.2.lastUsed := fun r hr =>
      List.le_of_mem_argmin (f := fun s : String × Session => s.2.lastUsed) hr hleast
    exact Or.inr ⟨s, List.argmin_mem hleast, hleastUse, rfl⟩

@[simp] theorem dropOldest_config (t : SessionTable) : t.dropOldest.config = t.config := by
  rcases t.dropOldest_spec with ⟨-, h⟩ | ⟨s, -, -, h⟩ <;> rw [h]

theorem dropOldest_sublist (t : SessionTable) : t.dropOldest.sessions.Sublist t.sessions := by
  rcases t.dropOldest_spec with ⟨-, h⟩ | ⟨s, -, -, h⟩ <;> rw [h]
  exact List.filter_sublist

@[simp] theorem makeRoom_config (t : SessionTable) (now : Nat) :
    (t.makeRoom now).config = t.config := by
  simp only [makeRoom]
  split_ifs <;> simp

/-- Making room only drops sessions. -/
theorem makeRoom_sublist (t : SessionTable) (now : Nat) :
    (t.makeRoom now).sessions.Sublist t.sessions := by
  have hprune : (t.prune now).sessions.Sublist t.sessions := List.filter_sublist
  simp only [makeRoom]
  split_ifs
  · exact (dropOldest_sublist _).trans hprune
  · exact hprune
  · exact List.Sublist.refl _

variable {config : SessionConfig} {now : Nat} {sessions kept : Keyed Session}

/-- There is room beside what is kept. -/
theorem Keeps.length_lt (h : Keeps config now sessions kept)
    (hsize : sessions.length ≤ config.maxSessions) : kept.length < config.maxSessions := by
  cases h with
  | all room => exact room
  | pruned _ room => exact room
  | others s rest _ hperm =>
    have hawake : (awake config now sessions).length ≤ sessions.length :=
      List.length_filter_le _ sessions
    have hlength := hperm.length_eq
    rw [List.length_cons] at hlength
    omega

/-- A session that was used before an idle one is idle too. -/
theorem idle_of_le {r s : Session} (h : r.Idle config now) (hle : s.lastUsed ≤ r.lastUsed) :
    s.Idle config now := by
  unfold Session.Idle at h ⊢
  omega

/-- Of the sessions that are not idle all are kept, but for the one that was used before all others
if there is no room. -/
theorem Keeps.mem_iff (h : Keeps config now sessions kept)
    (hsize : sessions.length ≤ config.maxSessions) {s : String × Session} (hs : s ∈ sessions)
    (hidle : ¬ s.2.Idle config now) :
    s ∈ kept ↔ ¬ (config.maxSessions ≤ sessions.length ∧
      ∀ r ∈ sessions, s.2.lastUsed ≤ r.2.lastUsed) := by
  have hawake : s ∈ awake config now sessions := List.mem_filter.mpr ⟨hs, decide_eq_true hidle⟩
  cases h with
  | all room => exact iff_of_true hs fun hfirst => Nat.not_lt.mpr hfirst.1 room
  | pruned full room =>
    -- A session that was dropped is idle, so it was used before this one.
    refine iff_of_true hawake fun hfirst => ?_
    obtain ⟨r, hr, hdropped⟩ := List.length_filter_lt_length_iff_exists.mp (room.trans_le full)
    have hridle : r.2.Idle config now := by simpa using hdropped
    exact hidle (idle_of_le hridle (hfirst.2 r hr))
  | others first rest full hperm hfirst =>
    -- There are no more sessions than there may be, so none of them is idle.
    have hall : awake config now sessions = sessions :=
      List.filter_eq_self.mpr (List.length_filter_eq_length_iff.mp
        (Nat.le_antisymm (List.length_filter_le _ sessions) (hsize.trans full)))
    rw [hall] at full hperm
    rcases List.mem_cons.mp (hperm.mem_iff.mp hs) with rfl | hrest
    · refine iff_of_false (fun hmem => Nat.lt_irrefl _ (hfirst s hmem)) (not_not.mpr ⟨full, ?_⟩)
      intro r hr
      rcases List.mem_cons.mp (hperm.mem_iff.mp hr) with rfl | hr
      · exact Nat.le_refl _
      · exact Nat.le_of_lt (hfirst r hr)
    · refine iff_of_true hrest fun hleast => ?_
      have hle := hleast.2 first (hperm.mem_iff.mpr List.mem_cons_self)
      exact Nat.not_lt.mpr hle (hfirst s hrest)

/-- **Making room**: if the sessions were used at different times, those are kept that should be. -/
theorem keeps_makeRoom {t : SessionTable} (hpositive : 1 ≤ t.config.maxSessions)
    (hsorted : t.sessions.Sorted)
    (hdistinct : ∀ r ∈ t.sessions, ∀ s ∈ t.sessions, r.2.lastUsed = s.2.lastUsed → r.1 = s.1)
    (now : Nat) : Keeps t.config now t.sessions (t.makeRoom now).sessions := by
  by_cases hfull : t.Full
  · have hmakeRoom : t.makeRoom now =
        if (t.prune now).Full then (t.prune now).dropOldest else t.prune now := by
      simp only [makeRoom, if_pos hfull]
    rw [hmakeRoom]
    split_ifs with hstill
    · rcases (t.prune now).dropOldest_spec with ⟨hempty, -⟩ | ⟨s, hs, hleast, hdrop⟩
      · -- A full table has sessions.
        have hlength : t.config.maxSessions ≤ (t.prune now).sessions.length := hstill
        rw [hempty] at hlength
        exact absurd (hpositive.trans hlength) (by decide)
      · have hawake : (t.prune now).sessions.Sublist t.sessions := List.filter_sublist
        have hprune : (t.prune now).sessions.Sorted := hsorted.sublist hawake
        rw [hdrop]
        refine .others s _ hstill (hprune.perm_cons_erase hs) fun r hr => ?_
        obtain ⟨hr, hne⟩ := List.mem_filter.mp hr
        refine Nat.lt_of_le_of_ne (hleast r hr) fun heq => ?_
        have hsame := hdistinct s (hawake.subset hs) r (hawake.subset hr) heq
        exact of_decide_eq_true hne hsame.symm
    · exact .pruned hfull (Nat.not_le.mp hstill)
  · have hmakeRoom : t.makeRoom now = t := by
      simp only [makeRoom, if_neg hfull]
    rw [hmakeRoom]
    exact .all (Nat.not_le.mp hfull)

/-! ### Entering and looking up -/

theorem insert_eq (t : SessionTable) (c : Channel) (now : Nat) :
    t.insert c now =
      { t with sessions := (t.makeRoom now).sessions.insert c.sessionId ⟨c, now⟩ } := by
  simp [insert]

theorem get_of_none {t : SessionTable} {id : String} (h : t.sessions.get? id = none) :
    t.get id now = (.error (.unknownSession id), t) := by
  simp [get, h]

theorem get_of_some {t : SessionTable} {id : String} {s : Session}
    (h : t.sessions.get? id = some s) :
    t.get id now = (.ok s.channel,
      { t with sessions := t.sessions.insert id ⟨s.channel, now⟩ }) := by
  simp [get, h]

/-- A lookup enters and drops no session. -/
theorem keys_get {t : SessionTable} (h : t.sessions.Sorted) (id : String) (now : Nat) :
    (t.get id now).2.sessions.keys = t.sessions.keys := by
  cases hget : t.sessions.get? id with
  | none => rw [get_of_none hget]
  | some s =>
    rw [get_of_some hget]
    exact h.keys_insert (Keyed.mem_of_get? hget) _

/-- A session that was entered is found. -/
theorem get_insert (t : SessionTable) (c : Channel) (now later : Nat) :
    ((t.insert c now).get c.sessionId later).1 = .ok c := by
  have hget : (t.insert c now).sessions.get? c.sessionId = some ⟨c, now⟩ :=
    Keyed.get?_insert_self _ _ _
  rw [get_of_some hget]

/-! ### Calls -/

/-- What holds of a table after calls. -/
structure Tracks (t : SessionTable) (calls : List (Nat × Call)) : Prop where
  sorted : t.sessions.Sorted
  size_le : t.size ≤ t.config.maxSessions
  /-- A session was last used by the last call that entered it or looked it up. -/
  lastUse : ∀ id s, t.sessions.get? id = some s → lastUse? id calls = some s.lastUsed

namespace Tracks

variable {t : SessionTable} {calls : List (Nat × Call)}

/-- Two sessions were used at different times. -/
theorem distinct (h : t.Tracks calls) (htimes : (calls.map (·.1)).Pairwise (· < ·)) :
    ∀ r ∈ t.sessions, ∀ s ∈ t.sessions, r.2.lastUsed = s.2.lastUsed → r.1 = s.1 := by
  intro r hr s hs heq
  have hr := h.lastUse _ _ (h.sorted.get?_eq_some hr)
  have hs := h.lastUse _ _ (h.sorted.get?_eq_some hs)
  exact eq_of_lastUse? htimes (heq ▸ hr) hs

/-- When another session is entered, those are kept that should be. -/
theorem keeps (h : t.Tracks calls) (htimes : (calls.map (·.1)).Pairwise (· < ·))
    (hpositive : 1 ≤ t.config.maxSessions) (now : Nat) :
    Keeps t.config now t.sessions (t.makeRoom now).sessions :=
  keeps_makeRoom hpositive h.sorted (h.distinct htimes) now

/-- A call that uses no session may drop some. -/
theorem drop (h : t.Tracks calls) {rest : Keyed Session} (hrest : rest.Sublist t.sessions)
    {c : Call} (hc : c.used? = none) (now : Nat) :
    Tracks { t with sessions := rest } (calls ++ [(now, c)]) where
  sorted := h.sorted.sublist hrest
  size_le := hrest.length_le.trans h.size_le
  lastUse := by
    intro id s hs
    rw [lastUse?_concat, hc, if_neg nofun]
    exact h.lastUse id s (h.sorted.get?_of_sublist hrest hs)

/-- A call that uses a session enters it with the time, and may drop others. -/
theorem use (h : t.Tracks calls) {rest : Keyed Session} (hrest : rest.Sublist t.sessions)
    {id : String} {c : Call} (hc : c.used? = some id) {channel : Channel} {now : Nat}
    (hsize : (rest.insert id ⟨channel, now⟩).length ≤ t.config.maxSessions) :
    Tracks { t with sessions := rest.insert id ⟨channel, now⟩ } (calls ++ [(now, c)]) where
  sorted := Keyed.Sorted.insert (h.sorted.sublist hrest) _ _
  size_le := hsize
  lastUse := by
    intro id' s hs
    rw [Keyed.get?_insert] at hs
    rw [lastUse?_concat, hc]
    by_cases hid : id' = id
    · rw [if_pos hid] at hs
      rw [if_pos (congrArg some hid.symm), ← Option.some.inj hs]
    · rw [if_neg hid] at hs
      rw [if_neg fun heq => hid (Option.some.inj heq).symm]
      exact h.lastUse id' s (h.sorted.get?_of_sublist hrest hs)

/-- A session that is entered stands beside those that are kept. -/
theorem insert (h : t.Tracks calls) (htimes : (calls.map (·.1)).Pairwise (· < ·))
    (hpositive : 1 ≤ t.config.maxSessions) (now : Nat) (c : Channel) :
    (t.insert c now).Tracks (calls ++ [(now, .insert c)]) := by
  have hroom := (h.keeps htimes hpositive now).length_lt h.size_le
  have hlength := (t.makeRoom now).sessions.length_insert_le c.sessionId ⟨c, now⟩
  rw [insert_eq]
  exact h.use (t.makeRoom_sublist now) rfl (hlength.trans hroom)

/-- A lookup counts as a use, if there is the session. -/
theorem get (h : t.Tracks calls) (now : Nat) (id : String) :
    (t.get id now).2.Tracks (calls ++ [(now, .get id)]) := by
  cases hget : t.sessions.get? id with
  | none =>
    rw [get_of_none hget]
    refine ⟨h.sorted, h.size_le, fun id' s hs => ?_⟩
    have hne : Call.used? (.get id) ≠ some id' := by
      rintro ⟨⟩
      cases hget.symm.trans hs
    rw [lastUse?_concat, if_neg hne]
    exact h.lastUse id' s hs
  | some s =>
    have hkeys := keys_get h.sorted id now
    rw [get_of_some hget] at hkeys ⊢
    have hlength : (t.sessions.insert id ⟨s.channel, now⟩).length = t.size := by
      simpa [Keyed.keys, size] using congrArg List.length hkeys
    exact h.use (List.Sublist.refl _) rfl (hlength.le.trans h.size_le)

/-- After another call it still holds. -/
theorem call (h : t.Tracks calls) (htimes : (calls.map (·.1)).Pairwise (· < ·))
    (hpositive : 1 ≤ t.config.maxSessions) (now : Nat) (c : Call) :
    (t.call now c).Tracks (calls ++ [(now, c)]) := by
  cases c with
  | insert c => exact h.insert htimes hpositive now c
  | get id => exact h.get now id
  | remove id => exact h.drop List.filter_sublist rfl now
  | prune => exact h.drop List.filter_sublist rfl now

end Tracks

@[simp] theorem call_config (t : SessionTable) (now : Nat) (c : Call) :
    (t.call now c).config = t.config := by
  cases c with
  | insert c => simp [call, insert]
  | get id => cases h : t.sessions.get? id <;> simp [call, get, h]
  | remove id => rfl
  | prune => rfl

@[simp] theorem after_config (t : SessionTable) (calls : List (Nat × Call)) :
    (t.after calls).config = t.config := by
  induction calls using List.reverseRecOn with
  | nil => rfl
  | append_singleton calls c ih => rw [after_concat, call_config, ih]

/-- What holds of a table holds after any calls. -/
theorem tracks_after (hpositive : 1 ≤ config.maxSessions) {calls : List (Nat × Call)}
    (htimes : (calls.map (·.1)).Pairwise (· < ·)) :
    ((empty config).after calls).Tracks calls := by
  induction calls using List.reverseRecOn with
  | nil => exact ⟨List.Pairwise.nil, Nat.zero_le _, nofun⟩
  | append_singleton calls c ih =>
    rw [List.map_append] at htimes
    obtain ⟨hbefore, -, -⟩ := List.pairwise_append.mp htimes
    rw [after_concat]
    exact (ih hbefore).call hbefore (by simpa [empty] using hpositive) c.1 c.2

/-- **The table is bounded, and the session that was used least recently goes first**: after any
calls at increasing times there are no more sessions than there may be. A session is found right
after it was entered, and no lookup changes which sessions there are. When one is entered under a
new name, it stands beside those that are kept. -/
theorem after_leastRecentlyUsed (hpositive : 1 ≤ config.maxSessions) {calls : List (Nat × Call)}
    (htimes : (calls.map (·.1) ++ [now]).Pairwise (· < ·)) :
    let t := (empty config).after calls
    t.size ≤ config.maxSessions ∧
    (∀ id s, t.sessions.get? id = some s → lastUse? id calls = some s.lastUsed) ∧
    (∀ c later, ((t.insert c now).get c.sessionId later).1 = .ok c) ∧
    (∀ id, (t.get id now).2.sessions.keys = t.sessions.keys ∧
      (t.sessions.contains id = false → t.get id now = (.error (.unknownSession id), t))) ∧
    ∀ c, t.sessions.contains c.sessionId = false →
      ∃ kept, Keeps config now t.sessions kept ∧
        (t.insert c now).sessions.Perm ((c.sessionId, ⟨c, now⟩) :: kept) := by
  intro t
  obtain ⟨hbefore, -, -⟩ := List.pairwise_append.mp htimes
  have htracks : t.Tracks calls := tracks_after hpositive hbefore
  have hconfig : t.config = config := after_config (empty config) calls
  refine ⟨hconfig ▸ htracks.size_le, htracks.lastUse, fun c => get_insert t c now, fun id => ?_,
    fun c hnew => ?_⟩
  · refine ⟨keys_get htracks.sorted id now, fun hid => get_of_none ?_⟩
    simpa [Keyed.contains] using hid
  · have hkeeps := htracks.keeps hbefore (hconfig ▸ hpositive) now
    refine ⟨(t.makeRoom now).sessions, hconfig ▸ hkeeps, ?_⟩
    refine Keyed.insert_perm (fun p hp heq => ?_) _
    have hget := htracks.sorted.get?_eq_some ((t.makeRoom_sublist now).subset hp)
    rw [Keyed.contains, heq, hget] at hnew
    cases hnew

/-- A channel whose session has a name. -/
def named (id : String) : Channel := ⟨⟨[]⟩, id, .responder, 64⟩

/-- Of two sessions, the one that was not looked up makes room for a third. -/
theorem after_leastRecentlyUsed_of_two :
    let config : SessionConfig := ⟨64, 2, 1000⟩
    let calls : List (Nat × Call) :=
      [(1, .insert (named "a")), (2, .insert (named "b")), (3, .get "a")]
    let t := (empty config).after calls
    (1 ≤ config.maxSessions ∧ (calls.map Prod.fst ++ [4]).Pairwise (· < ·) ∧
      t.sessions.contains "c" = false) ∧
    (∃ kept, Keeps config 4 t.sessions kept ∧
      (t.insert (named "c") 4).sessions.Perm (("c", ⟨named "c", 4⟩) :: kept)) ∧
    t.sessions.keys = ["a", "b"] ∧ (t.insert (named "c") 4).sessions.keys = ["a", "c"] := by
  intro config calls t
  have hpositive : 1 ≤ config.maxSessions := by decide
  have htimes : (calls.map Prod.fst ++ [4]).Pairwise (· < ·) := by decide
  have hnew : t.sessions.contains "c" = false := by decide
  have hkeys : t.sessions.keys = ["a", "b"] := by decide
  have hafter : (t.insert (named "c") 4).sessions.keys = ["a", "c"] := by decide
  obtain ⟨-, -, -, -, hinsert⟩ := after_leastRecentlyUsed hpositive htimes
  exact ⟨⟨hpositive, htimes, hnew⟩, hinsert (named "c") hnew, hkeys, hafter⟩

end MeshNode.SessionTable
