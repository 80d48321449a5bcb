import MeshNode.Proofs.Heartbeat
import MeshNode.Proofs.Orchestrator
import MeshNode.Proofs.Trust.History
import MeshNode.Proofs.Trust.Store

/-!
# Restarts of an orchestrator

An orchestrator over a file that is started anew opens the file with the records it had, as long as
they can be read back. That is a matter of what the nodes said of their runtime in their first
reports. A body and the document are read with as many levels, but around that value there are two
objects in a body, the heartbeat and its report, and three in the document, the map of the records,
the record and its first report. So a value of 125 levels is accepted and saved, and the file it is
saved in is not opened again.

Every request leaves the orchestrator with records that are `Exact` and with a file that holds
either what it was opened from or the document of the records (`Backed`). The exact condition for a
restart follows from this, since a document that is read answers with what nests no deeper than it
was read (`Backed.opens_iff`).
-/

namespace MeshNode

open MeshNode.Path (Plain)

/-! ### What calls leave in the records -/

namespace TrustRecord

/-- The times are such as a clock can show, the counters are machine words, and what the node said
of its runtime holds no doubles. -/
structure Exact (r : TrustRecord) : Prop where
  timed : r.Timed
  counted : r.Counted
  integral : r.firstSeen.runtimeInfo.Integral

theorem nextCount_lt (count : Nat) : nextCount count < UInt64.size := Nat.mod_lt _ (by decide)

/-- A report leaves machine words in the counters. -/
theorem Counted.compare {r : TrustRecord} (h : r.Counted) (threshold : SpoofThreshold)
    (node : String) (report : AttestationReport) (now : Int) :
    (r.compare threshold node report now).2.Counted := by
  rw [compare_record]
  constructor
  · change (if r.Drifts report then nextCount r.driftCount else r.driftCount) < UInt64.size
    split
    · exact nextCount_lt _
    · exact h.drifts
  · change (if r.Flips report then nextCount r.spoofCount else r.spoofCount) < UInt64.size
    split
    · exact nextCount_lt _
    · exact h.spoofs

end TrustRecord

namespace TrustCall

/-- The call comes at a time that a clock can show, and its report holds no doubles. -/
def Exact : TrustCall → Prop
  | ingest _ report now => InClock now ∧ ∀ r ∈ report, r.runtimeInfo.Integral
  | setHealth _ _ => True

/-- Exact calls leave exact records. -/
theorem Exact.effect {c : TrustCall} (h : c.Exact) {threshold : SpoofThreshold}
    {record : Option TrustRecord} (hrecord : ∀ r ∈ record, r.Exact) :
    ∀ r ∈ (c.effect threshold record).2, r.Exact := by
  cases c with
  | ingest node report now =>
    obtain ⟨hnow, hreport⟩ := h
    cases record with
    | none =>
      cases report with
      | none => exact fun _ => nofun
      | some report =>
        rintro _ ⟨⟩
        have hzero : 0 < UInt64.size := by decide
        exact ⟨⟨hnow, hnow, fun _ => nofun⟩, ⟨hzero, hzero⟩, hreport report rfl⟩
    | some record =>
      obtain ⟨⟨hfirst, hlast, hchange⟩, hcounted, hintegral⟩ := hrecord record rfl
      cases report with
      | none =>
        rintro _ ⟨⟩
        exact ⟨⟨hfirst, hlast, hchange⟩, hcounted, hintegral⟩
      | some report =>
        intro r hr
        obtain rfl : (record.compare threshold node report now).2 = r := Option.some.inj hr
        have hcounted' := hcounted.compare threshold node report now
        -- A later report changes neither the first report nor, unless it drifts, the last change.
        rw [TrustRecord.compare_record] at hcounted' ⊢
        refine ⟨⟨hfirst, hnow, fun time htime => ?_⟩, hcounted', hintegral⟩
        simp only at htime
        split_ifs at htime
        · obtain rfl := Option.some.inj htime
          exact hnow
        · exact hchange time htime
  | setHealth node health =>
    intro r hr
    obtain ⟨before, hbefore, rfl⟩ := Option.map_eq_some_iff.mp hr
    obtain ⟨⟨hfirst, hlast, hchange⟩, ⟨hdrifts, hspoofs⟩, hintegral⟩ := hrecord before hbefore
    exact ⟨⟨hfirst, hlast, hchange⟩, ⟨hdrifts, hspoofs⟩, hintegral⟩

end TrustCall

namespace Orchestrator

variable {s s' : Orchestrator} {r : Http.Request} {now : Int}

/-! ### Orchestrators over a file -/

/-- An orchestrator whose records, which are exact, are backed by a file: it holds either what they
were opened from or their document. -/
structure Backed (path : Path) (s : Orchestrator) : Prop where
  place : s.trust.store.path = some path
  locked : s.trust.locked = []
  sorted : s.trust.store.records.Sorted
  exact : ∀ p ∈ s.trust.store.records, p.2.Exact
  tidy : s.files.Tidy (TrustStore.names path)
  file : TrustStore.open path s.files = .ok s.trust.store ∨
    s.files.read path = .ok (.bytes (TrustStore.document s.trust.store.records))

theorem backed_of_open {path : Path} (htidy : s.files.Tidy (TrustStore.names path))
    (hopen : TrustStore.open path s.files = .ok s.trust.store) (hlocked : s.trust.locked = [])
    (hstored : ∀ node r, s.trust.record node = some r → r.firstSeen.runtimeInfo.Integral) :
    s.Backed path := by
  obtain ⟨hplace, hsorted, hrecords⟩ := TrustStore.of_open hopen
  refine ⟨hplace, hlocked, hsorted, fun p hp => ?_, htidy, Or.inl hopen⟩
  obtain ⟨htimed, hcounted, -⟩ := hrecords p hp
  exact ⟨htimed, hcounted, hstored p.1 p.2 (hsorted.get?_eq_some hp)⟩

/-- A call whose save succeeds leaves the records backed. -/
theorem Backed.call {path : Path} (hname : ∀ c ∈ path.getLast?, Plain c) (h : s.Backed path)
    {c : TrustCall} (hc : c.Exact) (hsaved : ∀ e, (s.call c).1 ≠ .error e) :
    (s.call c).2.Backed path := by
  unfold Orchestrator.call at hsaved ⊢
  rcases c.run_eq h.locked s.files with ⟨answer, -, hrun⟩ | ⟨answer, after, heffect, hrun⟩
  · rw [hrun]
    exact h
  have hrecord : ∀ r ∈ s.trust.record c.node, r.Exact := fun r hr =>
    h.exact _ (Keyed.mem_of_get? hr)
  have hafter : after.Exact := hc.effect hrecord after (by rw [heffect]; rfl)
  -- A save that fails would be the answer.
  rw [hrun] at hsaved ⊢
  rcases hsave : Files.run (s.trust.store.save c.node after) s.files with ⟨e | store, t'⟩
  · rw [hsave] at hsaved
    exact absurd rfl (hsaved e)
  · obtain ⟨htidy, hread⟩ := TrustStore.read_of_save hname h.place h.tidy hsave
    obtain rfl := TrustStore.eq_of_save hsave
    refine ⟨h.place, h.locked, h.sorted.insert c.node after, fun p hp => ?_, htidy, Or.inr hread⟩
    rcases Keyed.eq_or_mem_of_mem_insert hp with rfl | hp
    · exact hafter
    · exact h.exact p hp

/-- The file is opened as the records of the orchestrator exactly if none of them nests too deep. -/
theorem Backed.opens_iff {path : Path} (h : s.Backed path) :
    (∃ store, TrustStore.open path s.files = .ok store ∧
        ∀ node, store.load node = s.trust.record node) ↔
      ∀ node r, s.trust.record node = some r → r.firstSeen.runtimeInfo.Readable 124 := by
  constructor
  · -- The record was read from the file, so it nests no deeper than the file is read.
    rintro ⟨store, hopen, hload⟩ node r hr
    obtain ⟨-, -, hrecords⟩ := TrustStore.of_open hopen
    have hmem : (node, r) ∈ store.records := Keyed.mem_of_get? ((hload node).trans hr)
    exact (hrecords _ hmem).2.2 (h.exact _ (Keyed.mem_of_get? hr)).integral
  · -- Either nothing was saved yet, or the file holds the document of the records.
    intro hreadable
    rcases h.file with hopen | hread
    · exact ⟨_, hopen, fun _ => rfl⟩
    · refine ⟨_, TrustStore.open_of_read hread h.sorted fun p hp => ?_, fun _ => rfl⟩
      have hr : s.trust.record p.1 = some p.2 := h.sorted.get?_eq_some hp
      exact ⟨(h.exact p hp).timed, (h.exact p hp).counted, hreadable p.1 p.2 hr⟩

/-- A request leaves the records backed, unless a save fails. -/
theorem Backed.serve {path : Path} (hname : ∀ c ∈ path.getLast?, Plain c) (h : s.Backed path)
    (hexact : ∀ c, Asks r now c → c.Exact) (hsaved : (s.serve r now).1.status ≠ 500) :
    (s.serve r now).2.Backed path := by
  rcases answered_serve h.locked r now with ⟨hsame, -⟩ | ⟨c, hasks, hcall, hstatus⟩
  · rw [hsame]
    exact h
  · rw [hcall]
    exact h.call hname (hexact c hasks) fun e he => hsaved (hstatus.mpr ⟨e, he⟩)

/-! ### Requests one after the other -/

/-- The answers to requests that come one after the other, each with the time at which it comes, and
the orchestrator after them. -/
def serveAll (s : Orchestrator) : List (Http.Request × Int) → List Http.Response × Orchestrator
  | [] => ([], s)
  | (r, now) :: rest =>
    let (response, s) := s.serve r now
    let (responses, s) := serveAll s rest
    (response :: responses, s)

theorem serveAll_cons (s : Orchestrator) (r : Http.Request) (now : Int)
    (rest : List (Http.Request × Int)) :
    s.serveAll ((r, now) :: rest) =
      ((s.serve r now).1 :: ((s.serve r now).2.serveAll rest).1,
        ((s.serve r now).2.serveAll rest).2) := rfl

/-- Requests leave the records backed, unless a save fails. -/
theorem Backed.serveAll {path : Path} (hname : ∀ c ∈ path.getLast?, Plain c) (h : s.Backed path)
    {requests : List (Http.Request × Int)}
    (hexact : ∀ x ∈ requests, ∀ c, Asks x.1 x.2 c → c.Exact)
    (hsaved : ∀ response ∈ (s.serveAll requests).1, response.status ≠ 500) :
    (s.serveAll requests).2.Backed path := by
  induction requests generalizing s with
  | nil => exact h
  | cons x requests ih =>
    obtain ⟨r, now⟩ := x
    rw [serveAll_cons] at hsaved ⊢
    obtain ⟨hfirst, hrest⟩ := List.forall_mem_cons.mp hsaved
    have hserve := h.serve hname (hexact _ List.mem_cons_self) hfirst
    exact ih hserve (fun x hx => hexact x (List.mem_cons_of_mem _ hx)) hrest

/-! ### Restarts -/

/-- A run of an orchestrator over a file in which no save fails. -/
structure SavedRun (path : Path) (requests : List (Http.Request × Int))
    (responses : List Http.Response) (s s' : Orchestrator) : Prop where
  /-- The file has a name. -/
  name : ∀ c ∈ path.getLast?, Plain c
  /-- No link has the name of the file or of its draft. -/
  tidy : s.files.Tidy (TrustStore.names path)
  opened : TrustStore.open path s.files = .ok s.trust.store
  unlocked : s.trust.locked = []
  /-- The records that were opened hold no doubles. -/
  stored : ∀ node r, s.trust.record node = some r → r.firstSeen.runtimeInfo.Integral
  /-- The heartbeats that are read hold no doubles. -/
  integral : ∀ x ∈ requests, ∀ h report, x.1.readBody none Heartbeat.decoder = .ok h →
    h.attestation = some report → report.runtimeInfo.Integral
  clock : ∀ x ∈ requests, InClock x.2
  served : s.serveAll requests = (responses, s')
  /-- A save that fails is answered with status 500, and nothing else is. -/
  saved : ∀ response ∈ responses, response.status ≠ 500

/-- **What an orchestrator knows survives a restart exactly if nothing nests too deep**: after a run
in which no save failed, opening the file anew gives for every node the record that the orchestrator
has, unless what some node said of its runtime in its first report nests more than 124 levels. -/
theorem SavedRun.reopens_iff {path : Path} {requests : List (Http.Request × Int)}
    {responses : List Http.Response} (h : SavedRun path requests responses s s') :
    (∃ store, TrustStore.open path s'.files = .ok store ∧
        ∀ node, store.load node = s'.trust.record node) ↔
      ∀ node r, s'.trust.record node = some r → r.firstSeen.runtimeInfo.Readable 124 := by
  have hexact : ∀ x ∈ requests, ∀ c, Asks x.1 x.2 c → c.Exact := by
    rintro x hx _ (hread | ⟨host, -⟩)
    · exact ⟨h.clock x hx, fun report hreport => h.integral x hx _ report hread hreport⟩
    · exact trivial
  have hbacked := (backed_of_open h.tidy h.opened h.unlocked h.stored).serveAll h.name hexact
    (by rw [h.served]; exact h.saved)
  rw [h.served] at hbacked
  exact hbacked.opens_iff

end Orchestrator

/-! ### A heartbeat at the limit -/

namespace Json

/-- Arrays inside each other, as many as the number says. -/
def nested : Nat → Json
  | 0 => .null
  | n + 1 => .arr [nested n]

theorem readable_nested_iff {n levels : Nat} : (nested n).Readable levels ↔ n ≤ levels := by
  induction n generalizing levels with
  | zero => exact iff_of_true .null (Nat.zero_le _)
  | succ n ih =>
    constructor
    · rintro ⟨⟩
      rename_i levels hitems
      exact Nat.succ_le_succ (ih.mp (hitems _ List.mem_cons_self))
    · intro hle
      cases levels with
      | zero => exact absurd hle (Nat.not_succ_le_zero n)
      | succ levels =>
        refine .arr fun j hj => ?_
        obtain rfl := List.mem_singleton.mp hj
        exact ih.mpr (Nat.le_of_succ_le_succ hle)

theorem integral_nested (n : Nat) : (nested n).Integral := by
  induction n with
  | zero => exact .null
  | succ n ih => exact .arr fun j hj => List.mem_singleton.mp hj ▸ ih

end Json

namespace Orchestrator

/-- An orchestrator over a file that is not there yet. -/
def fresh : Orchestrator := ⟨.ofStore .default ⟨[], some ["trust.json"]⟩, .empty⟩

/-- A heartbeat with a value of the given number of levels. -/
def deepHeartbeat (n : Nat) : Heartbeat := ⟨"a", "online", 0, some ⟨"b", "c", Json.nested n⟩⟩

/-- The request that brings the heartbeat. -/
def deepRequest (n : Nat) : Http.Request :=
  ⟨"POST", Heartbeat.path, some "application/json", none, (deepHeartbeat n).toJson.render⟩

/-- The records after the heartbeat. -/
def deepRecords (n : Nat) : Keyed TrustRecord :=
  [("a", .ofFirstReport ⟨"b", "c", Json.nested n⟩ 0)]

/-- The orchestrator after the heartbeat. -/
def afterDeep (n : Nat) : Orchestrator :=
  ⟨.ofStore .default ⟨deepRecords n, some ["trust.json"]⟩,
    ⟨[(["trust.json"], .file (.bytes (TrustStore.document (deepRecords n))) Entry.fileMode)]⟩⟩

/-- A value of 124 or 125 levels is read. -/
theorem readBody_deepRequest {n : Nat} (h : n = 124 ∨ n = 125) :
    (deepRequest n).readBody none Heartbeat.decoder = .ok (deepHeartbeat n) := by
  have hlength : (deepHeartbeat n).toJson.render.length ≤ Http.Request.maxBody := by
    rcases h with rfl | rfl <;> decide +kernel
  have htype : Http.isJsonType "application/json" = true := by decide
  refine Http.Request.readBody_render htype rfl hlength ?_
  refine Heartbeat.reads (by constructor <;> simp [deepHeartbeat]) ?_
  rintro _ ⟨⟩
  exact Json.readable_nested_iff.mpr (by omega)

theorem save_fresh (n : Nat) :
    (fresh.trust.store.save "a" (.ofFirstReport ⟨"b", "c", Json.nested n⟩ 0)).run fresh.files =
      (.ok (afterDeep n).trust.store, (afterDeep n).files) := by
  have hflush (records : Keyed TrustRecord) :
      (TrustStore.flush ["trust.json"] records).run .empty = (.ok (),
        ⟨[(["trust.json"], .file (.bytes (TrustStore.document records)) Entry.fileMode)]⟩) := by
    unfold TrustStore.flush
    rw [Files.run_bind, Files.run_makeDirs]
    rfl
  rw [TrustStore.run_save rfl]
  simp only [fresh, TrustService.ofStore, hflush]
  rfl

theorem heartbeat_fresh (n : Nat) : fresh.heartbeat (deepHeartbeat n) 0 =
    (.ok ⟨"a", .ok, .green, [.firstSeen "b" (Digest.head "c")]⟩, afterDeep n) := by
  have htrim : ¬ Text.trim (deepHeartbeat n).hostId = "" := (by decide : ¬ Text.trim "a" = "")
  have hrun := TrustCall.run_eq (.ingest "a" (deepHeartbeat n).attestation 0) (s := fresh.trust) rfl
    fresh.files
  -- The first report of a node is saved.
  rcases hrun with ⟨_, ⟨⟩, _⟩ | ⟨answer, after, heffect, hrun⟩
  obtain ⟨rfl, hafter⟩ := Prod.mk.inj heffect
  obtain rfl : TrustRecord.ofFirstReport ⟨"b", "c", Json.nested n⟩ 0 = after :=
    Option.some.inj hafter
  simp only [TrustCall.node, save_fresh n] at hrun
  rw [heartbeat, if_neg htrim, call]
  simp only [show (deepHeartbeat n).hostId = "a" from rfl, hrun]
  rfl

/-- The heartbeat is accepted, and its record is saved. -/
theorem serveAll_fresh {n : Nat} (h : n = 124 ∨ n = 125) :
    ∃ response, fresh.serveAll [(deepRequest n, 0)] = ([response], afterDeep n) ∧
      response.status = 200 := by
  have hsegments : Http.segments (deepRequest n).target = ["api", "hosts", "heartbeat"] :=
    (by decide : Http.segments Heartbeat.path = ["api", "hosts", "heartbeat"])
  have hserve : fresh.serve (deepRequest n) 0 =
      Api.reply ((fresh.heartbeat (deepHeartbeat n) 0).1.map HeartbeatAnswer.toJson,
        (fresh.heartbeat (deepHeartbeat n) 0).2) := by
    unfold serve
    rw [hsegments]
    simp only [Api.whenPosted, Api.onBody, readBody_deepRequest h]
    rfl
  rw [heartbeat_fresh] at hserve
  exact ⟨_, by rw [serveAll_cons, hserve]; rfl, rfl⟩

theorem tidy_empty (names : List String) : FileTree.empty.Tidy names := by
  have hnone (l : Location) (c : String) : FileTree.empty.get? (l ++ [c]) = none :=
    if_neg (List.concat_ne_nil c l)
  refine ⟨fun l c e h => ?_, fun c _ dir target h => ?_⟩
  · rw [hnone] at h
    cases h
  · rw [hnone] at h
    cases h

theorem record_afterDeep {n : Nat} {node : String} {r : TrustRecord}
    (h : (afterDeep n).trust.record node = some r) :
    r = .ofFirstReport ⟨"b", "c", Json.nested n⟩ 0 :=
  (Prod.mk.inj (List.mem_singleton.mp (Keyed.mem_of_get? h))).2

/-- The heartbeat makes up a run in which no save fails. -/
theorem savedRun_fresh {n : Nat} (h : n = 124 ∨ n = 125) :
    ∃ response, response.status = 200 ∧
      SavedRun ["trust.json"] [(deepRequest n, 0)] [response] fresh (afterDeep n) := by
  obtain ⟨response, hserved, hstatus⟩ := serveAll_fresh h
  refine ⟨response, hstatus, ?_⟩
  constructor
  case name => decide
  case tidy => exact tidy_empty _
  case opened => rfl
  case unlocked => rfl
  case stored => exact fun _ _ hr => nomatch hr
  case integral =>
    intro x hx heartbeat report hread hreport
    obtain rfl := List.mem_singleton.mp hx
    rw [readBody_deepRequest h] at hread
    obtain rfl := Except.ok.inj hread
    obtain rfl := Option.some.inj hreport
    exact Json.integral_nested n
  case clock =>
    intro x hx
    obtain rfl := List.mem_singleton.mp hx
    exact (by decide : InClock 0)
  case served => exact hserved
  case saved =>
    intro x hx
    rw [List.mem_singleton.mp hx, hstatus]
    decide

/-- A heartbeat of 124 levels leaves a file that is opened again. -/
theorem reopens_after_124_levels :
    ∃ response, response.status = 200 ∧
      fresh.serveAll [(deepRequest 124, 0)] = ([response], afterDeep 124) ∧
      ∃ store, TrustStore.open ["trust.json"] (afterDeep 124).files = .ok store ∧
        ∀ node, store.load node = (afterDeep 124).trust.record node := by
  obtain ⟨response, hstatus, hrun⟩ := savedRun_fresh (Or.inl rfl)
  refine ⟨response, hstatus, hrun.served, hrun.reopens_iff.mpr fun node r hr => ?_⟩
  obtain rfl := record_afterDeep hr
  exact Json.readable_nested_iff.mpr (Nat.le_refl 124)

/-- A heartbeat of 125 levels is accepted, and the file that it is saved in is not opened again. -/
theorem not_forall_reopens :
    ¬ ∀ (path : Path) (requests : List (Http.Request × Int)) (responses : List Http.Response)
        (s s' : Orchestrator), SavedRun path requests responses s s' →
      ∃ store, TrustStore.open path s'.files = .ok store ∧
        ∀ node, store.load node = s'.trust.record node := by
  intro hall
  obtain ⟨response, -, hrun⟩ := savedRun_fresh (Or.inr rfl)
  obtain ⟨store, hopen, hload⟩ := hall _ _ _ _ _ hrun
  have hrecord : (afterDeep 125).trust.record "a" =
      some (.ofFirstReport ⟨"b", "c", Json.nested 125⟩ 0) := rfl
  have hmem := Keyed.mem_of_get? ((hload "a").trans hrecord)
  obtain ⟨-, -, hrecords⟩ := TrustStore.of_open hopen
  have hreadable := (hrecords _ hmem).2.2 (Json.integral_nested 125)
  exact absurd (Json.readable_nested_iff.mp hreadable) (by decide)

end Orchestrator

end MeshNode
