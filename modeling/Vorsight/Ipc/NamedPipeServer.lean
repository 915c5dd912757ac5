/-
  THE PIPE SERVER (Vorsight.Infrastructure/IPC/NamedPipeServer.cs) and its session table.

  Any number of clients connect, each with a pipe and a handler of its own.  A client sends what it
  will, in pieces, and may close at any time; a read takes what is there, up to what was asked for,
  and nothing only at the end.  The handlers share `_sessions`.

  1. **The claim of the design** (`Accurate`, `Honest`): the table maps an id to exactly the handler
     that has registered it and not ended, and nobody hears of the end of a session that is served.

  2. **Where it fails.**  The `finally` of a handler removes the entry under its id whether or not
     it has put it there, and never the one under id 0.  `Harmless` excludes these two ends.

  3. `accurate_iff`: the claim holds of every step of a run exactly when every end is harmless.
-/
import Vorsight.Library.Run
import Vorsight.Ipc.PipeMessage

namespace Ipc.NamedPipeServer

open Codec Runs

/-! ## The state -/

/-- Where `HandleClientAsync` is. -/
inductive Phase
  /-- before the session id is read -/
  | handshake
  /-- before `TryAdd` -/
  | registering (sessionId : UInt32)
  /-- reads the length of a message, with what it has of it -/
  | header (sessionId : UInt32) (lengthBuffer : Bytes)
  /-- reads a message, with what it has of it -/
  | body (sessionId : UInt32) (messageLength : Nat) (messageBuffer : Bytes)
  /-- before the `finally` -/
  | ending (sessionId : UInt32) (registered : Bool)
  | ended
deriving DecidableEq

/-- A connection: what the client has still to send, what it has sent and nobody has read, whether
    it has closed its end, and where the handler is. -/
structure Connection where
  pieces : List Bytes
  incoming : Bytes := []
  closed : Bool := false
  phase : Phase := .handshake
  /-- whether the table had an entry for the session id when it was to be registered -/
  occupied : Option Bool := none
deriving DecidableEq

/-- What the server raises, with the connection whose handler raises it. -/
inductive Event
  | sessionConnected (connection : Nat) (sessionId : UInt32)
  | messageReceived (connection : Nat) (sessionId : UInt32) (message : PipeMessage)
  | sessionDisconnected (connection : Nat) (sessionId : UInt32)
deriving DecidableEq

structure State where
  /-- `_sessions`, with connections for pipes -/
  sessions : UInt32 → Option Nat := fun _ => none
  connections : List Connection := []
  events : List Event := []

/-! ## The steps -/

/-- 10 MB. -/
def maxLength : Nat := 10 * 1024 * 1024

/-- `BitConverter.ToInt32` of four bytes gives a length that is positive and not too large. -/
def isValidLength (messageLength : Nat) : Bool := 0 < messageLength && messageLength ≤ maxLength

inductive Step
  /-- a client connects, with all it is going to send -/
  | connect (pieces : List Bytes)
  /-- the client sends its next piece -/
  | write (i : Nat)
  /-- the client closes its end -/
  | close (i : Nat)
  /-- the handler takes its next step -/
  | handle (i : Nat)
  /-- an exception in the handler, while it holds the pipe -/
  | fault (i : Nat)
deriving DecidableEq

/-- What a step of a handler does: the table and the connection after it, and what it raises. -/
structure Effect where
  sessions : UInt32 → Option Nat
  connection : Connection
  events : List Event := []

/-- `ReadAsync` of up to `count` bytes: none while there is nothing to read and the client may still
    send; an empty read at the end. -/
def Connection.read (c : Connection) (count : Nat) : Option (Bytes × Connection) :=
  if c.incoming = [] ∧ ¬ c.closed then none
  else some (c.incoming.take count, { c with incoming := c.incoming.drop count })

/-- The client sends its next piece. -/
def Connection.write (c : Connection) : Option Connection :=
  match c.pieces with
  | piece :: pieces =>
    if c.closed then none else some { c with pieces, incoming := c.incoming ++ piece }
  | [] => none

def Connection.close (c : Connection) : Option Connection :=
  if c.closed then none else some { c with closed := true }

/-- A read takes from the front; it is empty only when nothing is left and the client has closed. -/
theorem read_spec {c c' : Connection} {count : Nat} {bytes : Bytes}
    (h : c.read count = some (bytes, c')) :
    bytes = c.incoming.take count ∧ c' = { c with incoming := c.incoming.drop count } ∧
      (c.incoming = [] → c.closed = true) := by
  simp only [Connection.read] at h
  split at h
  · cases h
  · rename_i hready
    cases h
    exact ⟨rfl, rfl, fun hnil => by simpa [hnil] using hready⟩

theorem write_spec {c c' : Connection} (h : c.write = some c') :
    ∃ piece pieces, c.pieces = piece :: pieces ∧ c.closed = false ∧
      c' = { c with pieces, incoming := c.incoming ++ piece } := by
  unfold Connection.write at h
  split at h
  · rename_i piece pieces hpieces
    split at h
    · cases h
    · rename_i hopen
      cases h
      exact ⟨piece, pieces, hpieces, by simpa using hopen, rfl⟩
  · cases h

theorem close_spec {c c' : Connection} (h : c.close = some c') :
    c.closed = false ∧ c' = { c with closed := true } := by
  unfold Connection.close at h
  split at h
  · cases h
  · rename_i hopen
    cases h
    exact ⟨by simpa using hopen, rfl⟩

/-- Read session ID from client. -/
def handshake (s : State) (c : Connection) : Option Effect := do
  let (sessionIdBytes, c) ← c.read 4
  let phase :=
    if sessionIdBytes.length = 4 then .registering (.ofNat (ofLittleEndian sessionIdBytes))
    else .ended
  pure { sessions := s.sessions, connection := { c with phase } }

/-- Register the session. -/
def register (s : State) (i : Nat) (c : Connection) (sessionId : UInt32) : Effect :=
  match s.sessions sessionId with
  | some _ => {
      sessions := s.sessions
      connection := { c with phase := .ending sessionId false, occupied := some true } }
  | none => {
      sessions := Function.update s.sessions sessionId (some i)
      connection := { c with phase := .header sessionId [], occupied := some false }
      events := [.sessionConnected i sessionId] }

/-- 1. Read Message Length (4 bytes): all of it, or the end of the stream. -/
def readHeader (s : State) (c : Connection) (sessionId : UInt32) (lengthBuffer : Bytes) :
    Option Effect := do
  let (bytes, c) ← c.read (4 - lengthBuffer.length)
  let lengthBuffer := lengthBuffer ++ bytes
  let phase : Phase :=
    if bytes = [] then .ending sessionId true
    else if lengthBuffer.length < 4 then .header sessionId lengthBuffer
    else if isValidLength (ofLittleEndian lengthBuffer) then
      .body sessionId (ofLittleEndian lengthBuffer) []
    else .ending sessionId true
  pure { sessions := s.sessions, connection := { c with phase } }

/-- 2. Read Message Body, and process it when it is complete. -/
def readBody (s : State) (i : Nat) (c : Connection) (sessionId : UInt32) (messageLength : Nat)
    (messageBuffer : Bytes) : Option Effect := do
  let (bytes, c) ← c.read (messageLength - messageBuffer.length)
  let messageBuffer := messageBuffer ++ bytes
  if bytes = [] then
    pure { sessions := s.sessions, connection := { c with phase := .ending sessionId true } }
  else if messageBuffer.length < messageLength then
    pure { sessions := s.sessions,
           connection := { c with phase := .body sessionId messageLength messageBuffer } }
  else match PipeMessage.deserialize messageBuffer with
    | some message => pure {
        sessions := s.sessions
        connection := { c with phase := .header sessionId [] }
        events := [.messageReceived i sessionId message] }
    | none =>
        pure { sessions := s.sessions, connection := { c with phase := .ending sessionId true } }

/-- The `finally`. -/
def finish (s : State) (i : Nat) (c : Connection) (sessionId : UInt32) : Effect :=
  if 0 < sessionId then {
    sessions := Function.update s.sessions sessionId none
    connection := { c with phase := .ended }
    events := [.sessionDisconnected i sessionId] }
  else { sessions := s.sessions, connection := { c with phase := .ended } }

/-- The next step of `HandleClientAsync`. -/
def handle (s : State) (i : Nat) (c : Connection) : Option Effect :=
  match c.phase with
  | .handshake => handshake s c
  | .registering sessionId => some (register s i c sessionId)
  | .header sessionId lengthBuffer => readHeader s c sessionId lengthBuffer
  | .body sessionId messageLength messageBuffer =>
      readBody s i c sessionId messageLength messageBuffer
  | .ending sessionId _ => some (finish s i c sessionId)
  | .ended => none

/-- Where an exception takes the handler. -/
def Phase.fault : Phase → Option Phase
  | .handshake => some .ended
  | .header sessionId _ | .body sessionId _ _ => some (.ending sessionId true)
  | _ => none

def State.apply (s : State) (i : Nat) (e : Effect) : State where
  sessions := e.sessions
  connections := s.connections.set i e.connection
  events := s.events ++ e.events

def State.set (s : State) (i : Nat) (c : Connection) : State :=
  { s with connections := s.connections.set i c }

def step (s : State) : Step → Option State
  | .connect pieces => some { s with connections := s.connections ++ [{ pieces }] }
  | .write i => s.connections[i]?.bind fun c => c.write.map (s.set i)
  | .close i => s.connections[i]?.bind fun c => c.close.map (s.set i)
  | .handle i => s.connections[i]?.bind fun c => (handle s i c).map (s.apply i)
  | .fault i => s.connections[i]?.bind fun c => c.phase.fault.map fun phase =>
      s.set i { c with phase }

/-! ## The design's claim -/

/-- The session a handler has registered and not ended. -/
def Phase.serves : Phase → Option UInt32
  | .header sessionId _ | .body sessionId _ _ | .ending sessionId true => some sessionId
  | _ => none

/-- Connection `i` serves the session. -/
def Serves (s : State) (sessionId : UInt32) (i : Nat) : Prop :=
  ∃ c, s.connections[i]? = some c ∧ c.phase.serves = some sessionId

/-- The table is accurate. -/
def Accurate (s : State) : Prop :=
  ∀ sessionId i, s.sessions sessionId = some i ↔ Serves s sessionId i

/-- What a step raises. -/
def raised (s s' : State) : List Event := s'.events.drop s.events.length

/-- `SessionDisconnected` is raised only for a session that nobody serves any more. -/
def Honest (s s' : State) : Prop :=
  ∀ i sessionId, .sessionDisconnected i sessionId ∈ raised s s' → ∀ j, ¬ Serves s' sessionId j

/-! ## The condition -/

/-- A handler that ends has registered an id other than 0; or it has been turned away, and its id is
    0 or no longer in the table. -/
def HarmlessEnd (s : State) : Phase → Prop
  | .ending sessionId true => sessionId ≠ 0
  | .ending sessionId false => sessionId = 0 ∨ s.sessions sessionId = none
  | _ => True

def Harmless (s : State) : Step → Prop
  | .handle i => ∀ c ∈ s.connections[i]?, HarmlessEnd s c.phase
  | _ => True

/-! ## What a handler does to the table -/

variable {s s' : State} {i : Nat} {c : Connection}

/-- A step that leaves the table alone, serves what was served, and ends nothing. -/
structure Quiet (s : State) (c : Connection) (e : Effect) : Prop where
  sessions : e.sessions = s.sessions
  serves : e.connection.phase.serves = c.phase.serves
  silent : ∀ i sessionId, .sessionDisconnected i sessionId ∉ e.events
  running : ∀ sessionId registered, c.phase ≠ .ending sessionId registered

theorem quiet_handshake {e : Effect} (hc : c.phase = .handshake)
    (h : handshake s c = some e) : Quiet s c e := by
  obtain ⟨⟨bytes, c'⟩, -, h⟩ := Option.bind_eq_some_iff.mp h
  cases h
  refine ⟨rfl, ?_, by simp, by simp [hc]⟩
  dsimp only
  split <;> rw [hc] <;> rfl

theorem quiet_readHeader {e : Effect} {sessionId : UInt32} {lengthBuffer : Bytes}
    (hc : c.phase = .header sessionId lengthBuffer)
    (h : readHeader s c sessionId lengthBuffer = some e) : Quiet s c e := by
  obtain ⟨⟨bytes, c'⟩, -, h⟩ := Option.bind_eq_some_iff.mp h
  cases h
  refine ⟨rfl, ?_, by simp, by simp [hc]⟩
  dsimp only
  rw [hc]
  split
  · rfl
  · split
    · rfl
    · split <;> rfl

theorem quiet_readBody {e : Effect} {sessionId : UInt32} {messageLength : Nat}
    {messageBuffer : Bytes} (hc : c.phase = .body sessionId messageLength messageBuffer)
    (h : readBody s i c sessionId messageLength messageBuffer = some e) : Quiet s c e := by
  obtain ⟨⟨bytes, c'⟩, -, h⟩ := Option.bind_eq_some_iff.mp h
  have hrunning : ∀ sessionId registered, c.phase ≠ .ending sessionId registered := by simp [hc]
  dsimp only at h
  split at h
  · cases h
    exact ⟨rfl, by rw [hc]; rfl, by simp, hrunning⟩
  · split at h
    · cases h
      exact ⟨rfl, by rw [hc]; rfl, by simp, hrunning⟩
    · split at h
      · cases h
        exact ⟨rfl, by rw [hc]; rfl, by simp, hrunning⟩
      · cases h
        exact ⟨rfl, by rw [hc]; rfl, by simp, hrunning⟩

/-- A handler's step is quiet, or registers an id that is free, or is its `finally`. -/
theorem handle_cases {e : Effect} (h : handle s i c = some e) :
    Quiet s c e ∨
      (∃ sessionId, c.phase = .registering sessionId ∧ s.sessions sessionId = none ∧
        e = register s i c sessionId) ∨
      ∃ sessionId registered, c.phase = .ending sessionId registered ∧
        e = finish s i c sessionId := by
  unfold handle at h
  split at h
  · rename_i hc
    exact .inl (quiet_handshake hc h)
  · rename_i sessionId hc
    cases h
    cases hfree : s.sessions sessionId with
    | none => exact .inr (.inl ⟨sessionId, hc, hfree, rfl⟩)
    | some j =>
      refine .inl ⟨?_, ?_, ?_, by simp [hc]⟩
      · simp [register, hfree]
      · simp [register, hfree, hc, Phase.serves]
      · simp [register, hfree]
  · rename_i sessionId lengthBuffer hc
    exact .inl (quiet_readHeader hc h)
  · rename_i sessionId messageLength messageBuffer hc
    exact .inl (quiet_readBody hc h)
  · rename_i sessionId registered hc
    cases h
    exact .inr (.inr ⟨sessionId, registered, hc, rfl⟩)
  · cases h

theorem serves_fault {phase : Phase} (h : c.phase.fault = some phase) :
    phase.serves = c.phase.serves := by
  unfold Phase.fault at h
  split at h
  all_goals
    rename_i hc
    cases h
    try rw [hc]; rfl

/-- **What a step does**: a client connects; or a connection changes and serves what it has served;
    or a handler takes its next step. -/
theorem step_cases {a : Step} (hs : step s a = some s') :
    (∃ pieces, s' = { s with connections := s.connections ++ [{ pieces }] }) ∨
      (∃ i c c', s.connections[i]? = some c ∧ c'.phase.serves = c.phase.serves ∧
        s' = s.set i c') ∨
      ∃ i c e, a = .handle i ∧ s.connections[i]? = some c ∧ handle s i c = some e ∧
        s' = s.apply i e := by
  cases a with
  | connect pieces =>
    cases hs
    exact .inl ⟨pieces, rfl⟩
  | write i =>
    obtain ⟨c, hget, hs⟩ := Option.bind_eq_some_iff.mp hs
    obtain ⟨c', hwrite, rfl⟩ := Option.map_eq_some_iff.mp hs
    obtain ⟨piece, pieces, -, -, rfl⟩ := write_spec hwrite
    exact .inr (.inl ⟨i, c, { c with pieces, incoming := c.incoming ++ piece }, hget, rfl, rfl⟩)
  | close i =>
    obtain ⟨c, hget, hs⟩ := Option.bind_eq_some_iff.mp hs
    obtain ⟨c', hclose, rfl⟩ := Option.map_eq_some_iff.mp hs
    obtain ⟨-, rfl⟩ := close_spec hclose
    exact .inr (.inl ⟨i, c, { c with closed := true }, hget, rfl, rfl⟩)
  | fault i =>
    obtain ⟨c, hget, hs⟩ := Option.bind_eq_some_iff.mp hs
    obtain ⟨phase, hfault, rfl⟩ := Option.map_eq_some_iff.mp hs
    exact .inr (.inl ⟨i, c, _, hget, serves_fault hfault, rfl⟩)
  | handle i =>
    obtain ⟨c, hget, hs⟩ := Option.bind_eq_some_iff.mp hs
    obtain ⟨e, he, rfl⟩ := Option.map_eq_some_iff.mp hs
    exact .inr (.inr ⟨i, c, e, rfl, hget, he, rfl⟩)

/-! ## Who serves a session -/

/-- Replacing a connection changes what that one serves, and nothing else. -/
theorem serves_set {sessions : UInt32 → Option Nat} {events : List Event} {c' : Connection}
    (hget : s.connections[i]? = some c) (sessionId : UInt32) (j : Nat) :
    Serves { sessions, connections := s.connections.set i c', events } sessionId j ↔
      if j = i then c'.phase.serves = some sessionId else Serves s sessionId j := by
  have hlt : i < s.connections.length := (List.getElem?_eq_some_iff.mp hget).1
  by_cases hji : j = i
  · subst hji
    simp [Serves, hlt]
  · have hne : i ≠ j := fun he => hji he.symm
    simp [Serves, hji, List.getElem?_set_ne hne]

theorem serves_self (hget : s.connections[i]? = some c) (sessionId : UInt32) :
    Serves s sessionId i ↔ c.phase.serves = some sessionId := by
  constructor
  · rintro ⟨c', hget', hserves⟩
    rw [hget] at hget'
    cases hget'
    exact hserves
  · exact fun hserves => ⟨c, hget, hserves⟩

/-- A change that leaves the table and what is served alone. -/
theorem accurate_set {events : List Event} {c' : Connection} (h : Accurate s)
    (hget : s.connections[i]? = some c) (hserves : c'.phase.serves = c.phase.serves) :
    Accurate { sessions := s.sessions, connections := s.connections.set i c', events } := by
  intro sessionId j
  rw [serves_set hget]
  split
  · rename_i hji
    rw [hserves, ← serves_self hget, ← hji]
    exact h sessionId j
  · exact h sessionId j

/-- In an accurate table one handler serves a session. -/
theorem serves_unique (h : Accurate s) {sessionId : UInt32} {j k : Nat} (hj : Serves s sessionId j)
    (hk : Serves s sessionId k) : j = k :=
  Option.some.inj (((h sessionId j).mpr hj).symm.trans ((h sessionId k).mpr hk))

theorem accurate_register (h : Accurate s) (hget : s.connections[i]? = some c) {sessionId : UInt32}
    (hc : c.phase = .registering sessionId) (hfree : s.sessions sessionId = none) :
    Accurate (s.apply i (register s i c sessionId)) := by
  -- a free id is served by nobody, so the new entry is the only one for it
  have hnobody : ∀ j, ¬ Serves s sessionId j := fun j hj => by
    rw [← h sessionId j, hfree] at hj
    cases hj
  intro x j
  rw [State.apply, serves_set hget]
  simp only [register, hfree, Phase.serves, Option.some.injEq]
  by_cases hx : x = sessionId
  · subst hx
    by_cases hji : j = i
    · simp [hji]
    · simp [hji, hnobody j, Ne.symm hji]
  · rw [Function.update_of_ne hx, h x j]
    split
    · rename_i hji
      subst hji
      rw [serves_self hget, hc]
      simp [Phase.serves, Ne.symm hx]
    · rfl

/-- The end of the handler that serves a session takes the session out. -/
theorem accurate_finish_registered (h : Accurate s) (hget : s.connections[i]? = some c)
    {sessionId : UInt32} (hc : c.phase = .ending sessionId true) (hid : sessionId ≠ 0) :
    Accurate (s.apply i (finish s i c sessionId)) := by
  have hserves : Serves s sessionId i := (serves_self hget sessionId).mpr (by rw [hc]; rfl)
  intro x j
  rw [finish, if_pos (UInt32.pos_iff_ne_zero.mpr hid), State.apply, serves_set hget]
  dsimp only
  by_cases hx : x = sessionId
  · subst hx
    simp only [Function.update_self, reduceCtorEq, Phase.serves, false_iff]
    split
    -- the entry is gone, and in an accurate table nobody else serves the id
    · simp
    · rename_i hji
      exact fun hj => hji (serves_unique h hj hserves)
  · rw [Function.update_of_ne hx, h x j]
    split
    · rename_i hji
      subst hji
      rw [serves_self hget, hc]
      simp [Phase.serves, Ne.symm hx]
    · rfl

/-- The end of a handler that was turned away changes nothing, if its id is 0 or not in the
    table. -/
theorem accurate_finish_rejected (h : Accurate s) (hget : s.connections[i]? = some c)
    {sessionId : UInt32} (hc : c.phase = .ending sessionId false)
    (hfree : sessionId = 0 ∨ s.sessions sessionId = none) :
    Accurate (s.apply i (finish s i c sessionId)) := by
  have hsame : (finish s i c sessionId).sessions = s.sessions := by
    unfold finish
    split
    · rename_i hpos
      have hnone := hfree.resolve_left (UInt32.pos_iff_ne_zero.mp hpos)
      rw [← hnone, Function.update_eq_self]
    · rfl
  have hended : (finish s i c sessionId).connection.phase.serves = c.phase.serves := by
    rw [hc]
    unfold finish
    split <;> rfl
  rw [State.apply, hsame]
  exact accurate_set h hget hended

/-- A new handler serves nothing yet. -/
theorem serves_append {pieces : List Bytes} (sessionId : UInt32) (j : Nat) :
    Serves { s with connections := s.connections ++ [{ pieces }] } sessionId j ↔
      Serves s sessionId j := by
  constructor
  · rintro ⟨c, hget, hserves⟩
    rw [List.getElem?_append] at hget
    split at hget
    · exact ⟨c, hget, hserves⟩
    · obtain rfl := List.mem_singleton.mp (List.mem_of_getElem? hget)
      cases hserves
  · rintro ⟨c, hget, hserves⟩
    have hlt := (List.getElem?_eq_some_iff.mp hget).1
    exact ⟨c, by rw [List.getElem?_append_left hlt, hget], hserves⟩

theorem accurate_step {a : Step} (h : Accurate s) (hg : Harmless s a) (hs : step s a = some s') :
    Accurate s' := by
  rcases step_cases hs with ⟨pieces, rfl⟩ | ⟨i, c, c', hget, hserves, rfl⟩ |
    ⟨i, c, e, rfl, hget, he, rfl⟩
  · intro sessionId j
    rw [serves_append]
    exact h sessionId j
  · exact accurate_set h hget hserves
  · have hend : HarmlessEnd s c.phase := hg c hget
    rcases handle_cases he with hquiet | ⟨sessionId, hc, hfree, rfl⟩ |
      ⟨sessionId, registered, hc, rfl⟩
    · rw [State.apply, hquiet.sessions]
      exact accurate_set h hget hquiet.serves
    · exact accurate_register h hget hc hfree
    · rw [hc] at hend
      cases registered with
      | true => exact accurate_finish_registered h hget hc hend
      | false => exact accurate_finish_rejected h hget hc hend

/-- A `finally` takes its id out of the table, whoever has put it there. -/
theorem sessions_finish {sessionId : UInt32} (hpos : 0 < sessionId) :
    (s.apply i (finish s i c sessionId)).sessions sessionId = none := by
  simp [State.apply, finish, hpos]

/-- Under id 0 a handler leaves its entry behind. -/
theorem not_accurate_finish_zero (h : Accurate s) (hget : s.connections[i]? = some c)
    (hc : c.phase = .ending 0 true) : ¬ Accurate (s.apply i (finish s i c 0)) := by
  intro hacc
  have hentry : s.sessions 0 = some i := (h 0 i).mpr ((serves_self hget 0).mpr (by rw [hc]; rfl))
  have hserves := (hacc 0 i).mp hentry
  rw [State.apply, serves_set hget, if_pos rfl] at hserves
  cases hserves

/-- A handler that was turned away takes the entry of another with it. -/
theorem not_accurate_finish_rejected (h : Accurate s) (hget : s.connections[i]? = some c)
    {sessionId : UInt32} (hc : c.phase = .ending sessionId false) (hid : sessionId ≠ 0)
    (hentry : s.sessions sessionId ≠ none) :
    ¬ Accurate (s.apply i (finish s i c sessionId)) := by
  intro hacc
  obtain ⟨j, hj⟩ := Option.ne_none_iff_exists'.mp hentry
  -- the entry is another handler's, since this one was turned away
  have hji : j ≠ i := by
    rintro rfl
    have hserves := (serves_self hget sessionId).mp ((h sessionId j).mp hj)
    rw [hc] at hserves
    cases hserves
  have hserves : Serves (s.apply i (finish s i c sessionId)) sessionId j := by
    rw [State.apply, serves_set hget, if_neg hji]
    exact (h sessionId j).mp hj
  have hgone := (hacc sessionId j).mpr hserves
  rw [sessions_finish (UInt32.pos_iff_ne_zero.mpr hid)] at hgone
  cases hgone

theorem not_accurate_of_not_harmless {a : Step} (h : Accurate s) (hg : ¬ Harmless s a)
    (hs : step s a = some s') : ¬ Accurate s' := by
  cases a with
  | handle i =>
    obtain ⟨c, hget, hs⟩ := Option.bind_eq_some_iff.mp hs
    obtain ⟨e, he, rfl⟩ := Option.map_eq_some_iff.mp hs
    have hend : ¬ HarmlessEnd s c.phase := fun hend => hg fun c' hget' => by
      obtain rfl : c = c' := Option.some.inj (hget.symm.trans hget')
      exact hend
    rcases handle_cases he with hquiet | ⟨sessionId, hc, -, -⟩ | ⟨sessionId, registered, hc, rfl⟩
    · refine absurd ?_ hend
      cases hc : c.phase with
      | ending sessionId registered => exact absurd hc (hquiet.running sessionId registered)
      | _ => trivial
    · exact absurd (by rw [hc]; trivial) hend
    · rw [hc] at hend
      cases registered with
      | true =>
        obtain rfl : sessionId = 0 := Decidable.not_not.mp hend
        exact not_accurate_finish_zero h hget hc
      | false =>
        obtain ⟨hid, hentry⟩ := not_or.mp hend
        exact not_accurate_finish_rejected h hget hc hid hentry
  | _ => exact absurd trivial hg

/-! ## What is heard of an end -/

theorem raised_apply (e : Effect) : raised s (s.apply i e) = e.events := by
  simp [raised, State.apply]

/-- Only a `finally` raises `SessionDisconnected`, and it has taken the session out. -/
theorem honest_of_accurate {a : Step} (hs : step s a = some s') (h' : Accurate s') :
    Honest s s' := by
  intro j x hraised k hk
  rcases step_cases hs with ⟨pieces, rfl⟩ | ⟨i, c, c', -, -, rfl⟩ | ⟨i, c, e, -, -, he, rfl⟩
  · simp [raised] at hraised
  · simp [raised, State.set] at hraised
  · rw [raised_apply] at hraised
    rcases handle_cases he with hquiet | ⟨sessionId, -, hfree, rfl⟩ |
      ⟨sessionId, registered, -, rfl⟩
    · exact hquiet.silent j x hraised
    · simp [register, hfree] at hraised
    · unfold finish at hraised
      split at hraised
      · rename_i hpos
        simp only [List.mem_singleton, Event.sessionDisconnected.injEq] at hraised
        obtain ⟨-, rfl⟩ := hraised
        have hentry := (h' x k).mpr hk
        rw [sessions_finish hpos] at hentry
        cases hentry
      · cases hraised

/-- **The table is accurate, exactly while ends are harmless.** -/
theorem accurate_iff (steps : List Step) :
    EachStep step (fun s _ s' => Accurate s' ∧ Honest s s') {} steps ↔
      EachStep step (fun s a _ => Harmless s a) {} steps := by
  refine eachStep_iff (I := Accurate) (fun s a s' => accurate_step) (fun s a s' h hs => ?_) ?_
  · refine ⟨fun hq => ?_, fun hg => ?_⟩
    · by_contra hg
      exact not_accurate_of_not_harmless h hg hs hq.1
    · have h' := accurate_step h hg hs
      exact ⟨h', honest_of_accurate hs h'⟩
  · intro sessionId i
    constructor
    · intro hentry
      cases hentry
    · rintro ⟨c, hget, -⟩
      cases hget

/-! ## Two agents of one session -/

/-- Both connect as session 1; the second one is turned away while the first is served. -/
def overlap : List Step :=
  [.connect [[1, 0, 0, 0]], .connect [[1, 0, 0, 0]], .write 0, .write 1, .handle 0, .handle 0,
    .handle 1, .handle 1, .handle 1]

/-- Its end takes the first one out of the table. -/
theorem not_accurate_overlap :
    ¬ EachStep step (fun s _ s' => Accurate s' ∧ Honest s s') {} overlap := by
  intro h
  have hlast := (((((((((h _ rfl).2 _ rfl).2 _ rfl).2 _ rfl).2 _ rfl).2 _ rfl).2 _ rfl).2 _ rfl).2
    _ rfl).1.1 1 0
  have hentry := hlast.mpr ⟨_, rfl, rfl⟩
  exact absurd hentry (by decide)

end Ipc.NamedPipeServer
