import MeshNode.Node.Api
import MeshNode.Proofs.Body
import MeshNode.Proofs.Channel.Table
import MeshNode.Proofs.Handshake

/-!
# Replayed handshakes

An offer that is sent again is accepted again: the same session is agreed on, and the node enters it
in place of the one that it keeps. It makes room before that, although it needs none. So a replayed
offer can end the session of another client. It does exactly if the table is full and that session
was used before all others (`replay_makesWay`), and then the table is left with room to spare.
-/

namespace MeshNode

namespace SessionTable

/-! ### Entering a session that is kept -/

/-- The session is the one to be dropped if another is entered: there is no room, and it was used
before all others. -/
def MakesWay (t : SessionTable) (s : Session) : Prop :=
  t.Full ∧ ∀ r ∈ t.sessions, s.lastUsed ≤ r.2.lastUsed

instance (t : SessionTable) (s : Session) : Decidable (t.MakesWay s) :=
  inferInstanceAs (Decidable (_ ∧ _))

variable {t : SessionTable} {calls : List (Nat × Call)} {now : Nat} {id : String} {s : Session}

theorem Tracks.sorted_makeRoom (h : t.Tracks calls) (now : Nat) :
    (t.makeRoom now).sessions.Sorted :=
  h.sorted.sublist (t.makeRoom_sublist now)

/-- A session that is not idle is found when room was made, unless it made way. -/
theorem Tracks.get?_makeRoom (h : t.Tracks calls) (htimes : (calls.map (·.1)).Pairwise (· < ·))
    (hpositive : 1 ≤ t.config.maxSessions) (hs : t.sessions.get? id = some s)
    (hidle : ¬ s.Idle t.config now) :
    (t.makeRoom now).sessions.get? id = if t.MakesWay s then none else some s := by
  have hmem := (h.keeps htimes hpositive now).mem_iff h.size_le (Keyed.mem_of_get? hs) hidle
  split_ifs with hway
  · refine Option.eq_none_iff_forall_ne_some.mpr fun s' hs' => ?_
    -- It could be found with no other value than before.
    have hsame : some s = some s' :=
      hs.symm.trans (h.sorted.get?_of_sublist (t.makeRoom_sublist now) hs')
    obtain rfl := Option.some.inj hsame
    exact hmem.mp (Keyed.mem_of_get? hs') hway
  · exact (h.sorted_makeRoom now).get?_eq_some (hmem.mpr hway)

/-- The sessions under other names that are not idle are as they were, but for the one that made
way. -/
def KeepsBeside (t t' : SessionTable) (name : String) (now : Nat) : Prop :=
  ∀ id s, id ≠ name → t.sessions.get? id = some s → ¬ s.Idle t.config now →
    t'.sessions.get? id = if t.MakesWay s then none else some s

/-- A session that is entered stands beside those that are kept, under whatever name. -/
theorem Tracks.keepsBeside_insert (h : t.Tracks calls)
    (htimes : (calls.map (·.1)).Pairwise (· < ·)) (hpositive : 1 ≤ t.config.maxSessions)
    (c : Channel) (now : Nat) : t.KeepsBeside (t.insert c now) c.sessionId now := by
  intro id s hne hs hidle
  rw [insert_eq, Keyed.get?_insert, if_neg hne]
  exact h.get?_makeRoom htimes hpositive hs hidle

/-- If another session made way for one that is kept, there is room left. -/
theorem Tracks.size_insert_lt (h : t.Tracks calls) (htimes : (calls.map (·.1)).Pairwise (· < ·))
    (hpositive : 1 ≤ t.config.maxSessions) {c : Channel}
    (hkept : t.sessions.contains c.sessionId = true) (hne : id ≠ c.sessionId)
    (hs : t.sessions.get? id = some s) (hidle : ¬ s.Idle t.config now) (hway : t.MakesWay s) :
    (t.insert c now).size < t.config.maxSessions := by
  obtain ⟨r, hr⟩ := Option.isSome_iff_exists.mp hkept
  have hle : s.lastUsed ≤ r.lastUsed := hway.2 _ (Keyed.mem_of_get? hr)
  have hrway : ¬ t.MakesWay r := fun hrway => by
    have hge : r.lastUsed ≤ s.lastUsed := hrway.2 _ (Keyed.mem_of_get? hs)
    exact hne (h.distinct htimes _ (Keyed.mem_of_get? hs) _ (Keyed.mem_of_get? hr)
      (Nat.le_antisymm hle hge))
  -- The session under the name is kept too, so that entering it adds none.
  have hroom := h.get?_makeRoom htimes hpositive hr fun hridle => hidle (idle_of_le hridle hle)
  rw [if_neg hrway] at hroom
  have hkeys := (h.sorted_makeRoom now).keys_insert (Keyed.mem_of_get? hroom) ⟨c, now⟩
  have hlength : ((t.makeRoom now).sessions.insert c.sessionId ⟨c, now⟩).length =
      (t.makeRoom now).sessions.length := by
    simpa [Keyed.keys] using congrArg List.length hkeys
  rw [insert_eq]
  exact hlength.trans_lt ((h.keeps htimes hpositive now).length_lt h.size_le)

/-- A session that was looked up nowhere since it was entered makes way for the other one, when that
is entered again. -/
theorem not_forall_kept_of_replay :
    ¬ ∀ (config : SessionConfig) (calls : List (Nat × Call)) (now : Nat) (c : Channel),
      1 ≤ config.maxSessions → (calls.map (·.1) ++ [now]).Pairwise (· < ·) →
      ((empty config).after calls).sessions.contains c.sessionId = true →
      ∀ id s, id ≠ c.sessionId → ((empty config).after calls).sessions.get? id = some s →
        ¬ s.Idle config now →
        (((empty config).after calls).insert c now).sessions.get? id = some s := by
  intro h
  have hkept := h ⟨64, 2, 1000⟩ [(1, .insert (named "a")), (2, .insert (named "b"))] 3 (named "b")
    (by decide) (by decide) (by decide) "a" ⟨named "a", 1⟩ (by decide) rfl (by decide)
  cases hkept

end SessionTable

/-! ### Offers -/

/-- An offer that was accepted is accepted at any time, and the same session is agreed on. -/
theorem Channel.respond_again {keys : NodeKeys} {offer : Offer} {now : Int}
    {config : SessionConfig} {c : Channel} {answer : Answer}
    (h : respond keys offer now config = .ok (c, answer)) (later : Int) :
    respond keys offer later config = .ok (c, ⟨true, later, c.sessionId⟩) := by
  unfold respond Handshake.respond at h ⊢
  cases hpublic : Base64.decodeExactly? 32 offer.ephPub with
  | none =>
    rw [hpublic] at h
    cases h
  | some ephPublic =>
    simp only [hpublic] at h ⊢
    cases hkey : Handshake.deriveKey keys.kxSecret ephPublic with
    | error e =>
      rw [hkey] at h
      cases h
    | ok key =>
      rw [hkey] at h
      cases h
      rfl

namespace Node

/-- A request brings an offer that was accepted, and the node keeps the session. -/
structure Replays (n : Node) (r : Http.Request) (c : Channel) : Prop where
  method : r.method = "POST"
  target : Http.segments r.target = ["hs"]
  length : ¬ r.AnnouncesTooMuch n.maxBody
  accepted : ∃ offer now answer, r.readBody (some n.maxBody) Offer.decoder = .ok offer ∧
    Channel.respond n.keys offer now n.sessions.config = .ok (c, answer)
  kept : n.sessions.sessions.contains c.sessionId = true

variable {n : Node} {o : Occasion}

/-- A replayed offer is answered, and its session is entered anew. -/
theorem Replays.serve {r : Http.Request} {c : Channel} (h : n.Replays r c) :
    n.serve r o = (.ofJson 200 (Answer.toJson ⟨true, o.wallMillis, c.sessionId⟩),
      { n with sessions := n.sessions.insert c o.nanos }) := by
  obtain ⟨offer, now, answer, hread, haccepted⟩ := h.accepted
  simp only [Node.serve, if_neg h.length, h.target, Api.whenPosted, if_pos h.method, Api.onBody,
    hread, shakeHands, Channel.respond_again haccepted o.wallMillis]
  rfl

/-- **What a replayed handshake does to other sessions.** A session that is kept already is entered
in place of itself, and of the sessions under other names that are not idle all are as they were,
unless the table is full: then the one that was used before all others is gone, and there is room
left. So it is for every offer that is sent to the node again. -/
theorem replay_makesWay {config : SessionConfig} (hpositive : 1 ≤ config.maxSessions)
    {calls : List (Nat × SessionTable.Call)}
    (hn : n.sessions = (SessionTable.empty config).after calls)
    (htimes : (calls.map (·.1) ++ [o.nanos]).Pairwise (· < ·)) :
    (∀ c, n.sessions.sessions.contains c.sessionId = true →
      (∀ later, ((n.sessions.insert c o.nanos).get c.sessionId later).1 = .ok c) ∧
      n.sessions.KeepsBeside (n.sessions.insert c o.nanos) c.sessionId o.nanos ∧
      ∀ id s, id ≠ c.sessionId → n.sessions.sessions.get? id = some s →
        ¬ s.Idle config o.nanos → n.sessions.MakesWay s →
        (n.sessions.insert c o.nanos).size < config.maxSessions) ∧
    ∀ r c, n.Replays r c →
      n.serve r o = (.ofJson 200 (Answer.toJson ⟨true, o.wallMillis, c.sessionId⟩),
        { n with sessions := n.sessions.insert c o.nanos }) ∧
      n.sessions.KeepsBeside (n.serve r o).2.sessions c.sessionId o.nanos := by
  obtain ⟨hbefore, -, -⟩ := List.pairwise_append.mp htimes
  have hconfig : n.sessions.config = config := hn ▸ SessionTable.after_config _ calls
  have htracks : n.sessions.Tracks calls := hn ▸ SessionTable.tracks_after hpositive hbefore
  subst hconfig
  have hbeside (c : Channel) := htracks.keepsBeside_insert hbefore hpositive c o.nanos
  constructor
  · intro c hkept
    refine ⟨SessionTable.get_insert _ c _, hbeside c, fun id s hne hs hidle hway => ?_⟩
    exact htracks.size_insert_lt hbefore hpositive hkept hne hs hidle hway
  · intro r c hreplays
    rw [hreplays.serve]
    exact ⟨rfl, hbeside c⟩

/-! ### A replay in a full table -/

/-- An offer with the base point of the curve as its public value. -/
private def greeting : Offer := ⟨Base64.encode X25519.base, 0⟩

private def greetingRequest : Http.Request :=
  ⟨"POST", "/hs", some "application/json", none, greeting.toJson.render⟩

/-- The session that a node agrees on when it is sent that offer. -/
private def agreed : Channel :=
  ⟨⟨Hkdf.derive (X25519.multiply (List.replicate 32 1) X25519.base) (.ofText Handshake.label)⟩,
    Handshake.sessionId X25519.base, .responder, 64⟩

/-- The session of another client is entered, and then that of the offer. -/
private def guests : List (Nat × SessionTable.Call) :=
  [(1, .insert (SessionTable.named "a")), (2, .insert agreed)]

private def crowded : Node where
  keys := ⟨"node", [], List.replicate 32 1⟩
  info := ⟨"", [], ""⟩
  runner := ⟨[107], ⟨[]⟩, .default⟩
  workspace := ⟨.inMemory, .empty⟩
  sessions := (SessionTable.empty ⟨64, 2, 1000⟩).after guests
  maxBody := 4096
  started := 0

private def third : Occasion := ⟨3, 3, "r", []⟩

private theorem respond_greeting :
    Channel.respond crowded.keys greeting 2 crowded.sessions.config =
      .ok (agreed, ⟨true, 2, agreed.sessionId⟩) := by
  have hdecode : Base64.decodeExactly? 32 greeting.ephPub = some X25519.base :=
    Base64.decodeExactly?_encode (by decide)
  have hshared : ¬ (X25519.multiply crowded.keys.kxSecret X25519.base).all (· = 0) = true := by
    decide +kernel
  have hkey : Handshake.deriveKey crowded.keys.kxSecret X25519.base = .ok agreed.key := by
    rw [Handshake.deriveKey, if_neg hshared]
    rfl
  exact Channel.respond_eq greeting hdecode hkey 2 crowded.sessions.config

private theorem replays_greeting : crowded.Replays greetingRequest agreed where
  method := rfl
  target := (by decide : Http.segments "/hs" = ["hs"])
  length := (by decide : ¬ 4096 < 0)
  accepted := ⟨greeting, 2, _, Http.Request.readBody_render
    (by decide : Http.isJsonType "application/json" = true) rfl (by decide +kernel)
    (Offer.reads (by decide)), respond_greeting⟩
  kept := by decide +kernel

/-- The client that was there first is gone after the offer of the second one was sent again, and
one of the two places is free. -/
theorem replay_makesWay_of_two :
    crowded.Replays greetingRequest agreed ∧
      crowded.sessions.sessions.contains "a" = true ∧
      (crowded.serve greetingRequest third).1.status = 200 ∧
      (crowded.serve greetingRequest third).2.sessions.sessions.contains "a" = false ∧
      (crowded.serve greetingRequest third).2.sessions.size < 2 := by
  have hother : crowded.sessions.sessions.contains "a" = true := by decide +kernel
  obtain ⟨s, hs⟩ := Option.isSome_iff_exists.mp hother
  have hway : ∀ r ∈ crowded.sessions.sessions, r.1 = "a" →
      ¬ r.2.Idle crowded.sessions.config 3 ∧ crowded.sessions.MakesWay r.2 := by decide +kernel
  obtain ⟨hidle, hway⟩ := hway _ (Keyed.mem_of_get? hs) rfl
  have hne : "a" ≠ agreed.sessionId := by decide +kernel
  have hguests : crowded.sessions = (SessionTable.empty ⟨64, 2, 1000⟩).after guests := rfl
  obtain ⟨hkept, hreplay⟩ := replay_makesWay (o := third) (by decide) hguests (by decide)
  obtain ⟨hserve, hbeside⟩ := hreplay _ _ replays_greeting
  have hgone := hbeside "a" s hne hs hidle
  rw [if_pos hway] at hgone
  have hsize := (hkept agreed replays_greeting.kept).2.2 "a" s hne hs hidle hway
  refine ⟨replays_greeting, hother, by rw [hserve]; rfl, ?_, by rw [hserve]; exact hsize⟩
  rw [Keyed.contains, hgone]
  rfl

end Node

end MeshNode
