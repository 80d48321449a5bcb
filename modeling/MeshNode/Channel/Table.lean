import MeshNode.Channel
import MeshNode.Keyed

/-!
# Session tables

A node keeps the sessions that were opened with it by their names, and for each when it was last
used. The table is bounded. When it is full, sessions that were idle for too long are dropped
before a new one is entered, and if it is still full then, the one that was used least recently.

Times are nanoseconds on a clock that never stands still between two calls.
-/

namespace MeshNode

/-- A session that is kept. -/
structure Session where
  channel : Channel
  lastUsed : Nat

/-- The session was not used for too long. -/
def Session.Idle (s : Session) (config : SessionConfig) (now : Nat) : Prop :=
  config.idleNanos ≤ now - s.lastUsed

instance (s : Session) (config : SessionConfig) (now : Nat) : Decidable (s.Idle config now) :=
  inferInstanceAs (Decidable (_ ≤ _))

/-- The sessions of a node. -/
structure SessionTable where
  config : SessionConfig
  sessions : Keyed Session

namespace SessionTable

/-- A table without sessions. -/
def empty (config : SessionConfig) : SessionTable := ⟨config, []⟩

/-- How many sessions there are. -/
def size (t : SessionTable) : Nat := t.sessions.length

/-- No session can be entered without dropping one. -/
def Full (t : SessionTable) : Prop := t.config.maxSessions ≤ t.size

instance (t : SessionTable) : Decidable t.Full := inferInstanceAs (Decidable (_ ≤ _))

/-- Drops the idle sessions. -/
def prune (t : SessionTable) (now : Nat) : SessionTable :=
  { t with sessions := t.sessions.filter fun s => ¬s.2.Idle t.config now }

/-- The name of the session that was used least recently. -/
def oldest? (sessions : Keyed Session) : Option String :=
  (sessions.foldl (fun least s =>
    match least with
    | none => some s
    | some l => if s.2.lastUsed < l.2.lastUsed then some s else some l) none).map (·.1)

/-- Drops the session that was used least recently. -/
def dropOldest (t : SessionTable) : SessionTable :=
  match oldest? t.sessions with
  | some id => { t with sessions := t.sessions.erase id }
  | none => t

/-- Makes room for a session, where there is none. -/
def makeRoom (t : SessionTable) (now : Nat) : SessionTable :=
  let t := if t.Full then t.prune now else t
  if t.Full then t.dropOldest else t

/-- Enters a session in place of one with the same name. -/
def insert (t : SessionTable) (c : Channel) (now : Nat) : SessionTable :=
  let t := t.makeRoom now
  { t with sessions := t.sessions.insert c.sessionId ⟨c, now⟩ }

/-- Looks a session up, which counts as a use. -/
def get (t : SessionTable) (id : String) (now : Nat) : Except SessionError Channel × SessionTable :=
  match t.sessions.get? id with
  | none => (.error (.unknownSession id), t)
  | some s => (.ok s.channel, { t with sessions := t.sessions.insert id ⟨s.channel, now⟩ })

/-- Drops a session; answers whether there was one. -/
def remove (t : SessionTable) (id : String) : Bool × SessionTable :=
  (t.sessions.contains id, { t with sessions := t.sessions.erase id })

end SessionTable

end MeshNode
