/-
  ONE MESSAGE FROM EACH AGENT (Vorsight.Agent/Services/IpcService.cs, against the pipe server).

  An agent connects, writes its session id, the length of its message and the message, and closes.
  The pipe is reliable, and carries all that in pieces of any size.

  1. **What a handler has seen** (`Progress`): at every moment, what it has read, what lies in the
     pipe and what is still to come make up what the agent sends.

  2. **Nothing waits for ever**: a run that cannot go on has heard every agent to the end
     (`exists_step`), and every run gets there (`work_step`).

  3. `outcomes_of_run`: then an agent's message has been raised once, if there was no entry for its
     session when it was to be registered and it is not longer than 10 MB, and never otherwise.
-/
import Vorsight.Ipc.NamedPipeServer

namespace Ipc.Delivery

open Codec NamedPipeServer Runs Time

/-! ## Agents -/

/-- A call of `SendMessageAsync`, with the id and the time the message gets, and the pieces in which
    the pipe carries what is written. -/
structure Agent where
  type : MessageType
  sessionId : UInt32
  payload : Option Bytes
  metadata : Option String
  messageId : String
  createdUtc : DateTime
  pieces : List Bytes

namespace Agent

def message (a : Agent) : PipeMessage where
  type := a.type
  messageId := a.messageId
  createdUtc := a.createdUtc
  sessionId := a.sessionId
  payload := a.payload
  metadata := a.metadata

def messageBytes (a : Agent) : Bytes := a.message.serialize

/-- 1. Send Session ID (4 bytes) - Handshake. -/
def sessionBytes (a : Agent) : Bytes := toLittleEndian 4 a.sessionId.toNat

/-- 2. Send Message Length (4 bytes), 3. Send Message Body. -/
def frame (a : Agent) : Bytes := toLittleEndian 4 a.messageBytes.length ++ a.messageBytes

/-- The message can be held by an array, and the pieces make up what is written. -/
structure Valid (a : Agent) : Prop where
  fits : a.message.Fits
  pieces : a.pieces.flatten = a.sessionBytes ++ a.frame

/-- The pipe does not tear the session id apart. -/
def Together (a : Agent) : Prop := ∃ first pieces, a.pieces = first :: pieces ∧ 4 ≤ first.length

/-- The message is not longer than the server takes. -/
def Short (a : Agent) : Prop := a.messageBytes.length ≤ maxLength

instance (a : Agent) : Decidable a.Short := inferInstanceAs (Decidable (_ ≤ _))

end Agent

/-- The clients of a run are the agents, in the order in which they connect; they close when they
    have sent everything, and no pipe fails. -/
def Reliable (agents : List Agent) (s : State) : Step → Prop
  | .connect pieces => ∃ a, agents[s.connections.length]? = some a ∧ pieces = a.pieces
  | .close i => ∀ c ∈ s.connections[i]?, c.pieces = []
  | .fault _ => False
  | _ => True

/-- The messages a connection's handler has raised. -/
def deliveries (i : Nat) (events : List Event) : List (UInt32 × PipeMessage) :=
  events.filterMap fun
    | .messageReceived j sessionId message => if j = i then some (sessionId, message) else none
    | _ => none

/-- What comes of an agent, when there was or was not an entry for its session. -/
def Agent.outcome (a : Agent) (occupied : Option Bool) : List (UInt32 × PipeMessage) :=
  if occupied = some false ∧ a.Short then [(a.sessionId, a.message.received)] else []

/-! ## What a handler has seen -/

/-- What is still to be read. -/
def rest (c : Connection) : Bytes := c.incoming ++ c.pieces.flatten

def Progress (a : Agent) (seen : List (UInt32 × PipeMessage)) (c : Connection) : Prop :=
  match c.phase with
  | .handshake => seen = [] ∧ c.occupied = none ∧ rest c = a.sessionBytes ++ a.frame ∧
      (a.Together → c.incoming = [] ∧ c.pieces = a.pieces ∨ 4 ≤ c.incoming.length)
  | .registering sessionId => seen = [] ∧ sessionId = a.sessionId ∧ rest c = a.frame
  | .header sessionId lengthBuffer => sessionId = a.sessionId ∧ c.occupied = some false ∧
      (seen = [] ∧ lengthBuffer.length < 4 ∧ lengthBuffer ++ rest c = a.frame ∨
        seen = a.outcome (some false) ∧ a.Short ∧ lengthBuffer = [] ∧ rest c = [])
  | .body sessionId messageLength messageBuffer => sessionId = a.sessionId ∧
      c.occupied = some false ∧ seen = [] ∧ a.Short ∧ messageLength = a.messageBytes.length ∧
      messageBuffer.length < messageLength ∧ messageBuffer ++ rest c = a.messageBytes
  | .ending _ _ => seen = a.outcome c.occupied ∧ c.occupied ≠ none
  | .ended => seen = a.outcome c.occupied ∧ (a.Together → c.occupied ≠ none)

/-- An agent closes when it has sent everything. -/
def Closes (c : Connection) : Prop := c.closed = true → c.pieces = []

/-- A read takes from the front of what is still to be read. -/
theorem take_append_rest (c : Connection) (count : Nat) :
    c.incoming.take count ++ rest { c with incoming := c.incoming.drop count } = rest c := by
  rw [rest, rest, ← List.append_assoc, List.take_append_drop]

/-- An empty read comes at the end of what the agent sends. -/
theorem rest_of_empty_read {c c' : Connection} {count : Nat} (hcount : 0 < count)
    (hcloses : Closes c) (h : c.read count = some ([], c')) : rest c = [] := by
  obtain ⟨hbytes, -, hclosed⟩ := read_spec h
  have hnil : c.incoming = [] := by
    rcases List.take_eq_nil_iff.mp hbytes.symm with hzero | hnil
    · omega
    · exact hnil
  rw [rest, hnil, hcloses (hclosed hnil)]
  rfl

theorem frame_length (a : Agent) : 4 ≤ a.frame.length := by
  simp [Agent.frame]

theorem ofLittleEndian_four {n : Nat} (h : n < 2 ^ 32) :
    ofLittleEndian (toLittleEndian 4 n) = n := by
  rw [ofLittleEndian_toLittleEndian]
  exact Nat.mod_eq_of_lt h

variable {a : Agent} {s s' : State} {i : Nat} {c : Connection} {e : Effect}
  {seen : List (UInt32 × PipeMessage)}

/-! ## One step of a handler -/

/-- The four bytes of the handshake are the agent's session id. -/
theorem progress_handshake (hcloses : Closes c) (hc : c.phase = .handshake)
    (h : Progress a seen c) (he : handshake s c = some e) :
    Progress a (seen ++ deliveries i e.events) e.connection := by
  obtain ⟨⟨bytes, c'⟩, hread, he⟩ := Option.bind_eq_some_iff.mp he
  cases he
  simp only [Progress, hc] at h
  obtain ⟨rfl, hoccupied, hrest, htogether⟩ := h
  obtain ⟨rfl, rfl, hclosed⟩ := read_spec hread
  by_cases hfour : (c.incoming.take 4).length = 4
  · have hsplit : c.incoming.take 4 ++ rest { c with incoming := c.incoming.drop 4 } =
        a.sessionBytes ++ a.frame := (take_append_rest c 4).trans hrest
    obtain ⟨hbytes, hframe⟩ := List.append_inj hsplit (by simp [hfour, Agent.sessionBytes])
    have hid : UInt32.ofNat (ofLittleEndian (c.incoming.take 4)) = a.sessionId := by
      rw [hbytes, Agent.sessionBytes, ofLittleEndian_four a.sessionId.toNat_lt, UInt32.ofNat_toNat]
    simp only [hfour, if_true, Progress]
    exact ⟨rfl, hid, hframe⟩
  · simp only [hfour, if_false, Progress]
    refine ⟨by simp [hoccupied, Agent.outcome, deliveries], fun hwhole => ?_⟩
    rcases htogether hwhole with ⟨hnil, hpieces⟩ | hlen
    · -- the agent has not begun, so it has not closed
      obtain ⟨first, pieces, hfirst, -⟩ := hwhole
      have hnone := hcloses (hclosed hnil)
      rw [hpieces, hfirst] at hnone
      cases hnone
    · exact absurd (by simp [hlen]) hfour

/-- `TryAdd` decides what comes of the agent. -/
theorem progress_register {sessionId : UInt32} (hc : c.phase = .registering sessionId)
    (h : Progress a seen c) :
    Progress a (seen ++ deliveries i (register s i c sessionId).events)
      (register s i c sessionId).connection := by
  simp only [Progress, hc] at h
  obtain ⟨rfl, rfl, hrest⟩ := h
  cases hfree : s.sessions a.sessionId with
  | some j =>
    simp [register, hfree, Progress, deliveries, Agent.outcome]
  | none =>
    simp only [register, hfree, Progress]
    exact ⟨trivial, trivial, .inl ⟨rfl, by simp, hrest⟩⟩

/-- The message is not empty. -/
theorem messageBytes_pos (a : Agent) : 0 < a.messageBytes.length := by
  simp [Agent.messageBytes, PipeMessage.serialize]

theorem isValidLength_iff (a : Agent) : isValidLength a.messageBytes.length = true ↔ a.Short := by
  simp [isValidLength, Agent.Short, messageBytes_pos a]

/-- Four bytes of the header are the length of the agent's message. -/
theorem progress_readHeader (hvalid : a.Valid) (hcloses : Closes c) {sessionId : UInt32}
    {lengthBuffer : Bytes} (hc : c.phase = .header sessionId lengthBuffer) (h : Progress a seen c)
    (he : readHeader s c sessionId lengthBuffer = some e) :
    Progress a (seen ++ deliveries i e.events) e.connection := by
  obtain ⟨⟨bytes, c'⟩, hread, he⟩ := Option.bind_eq_some_iff.mp he
  cases he
  simp only [Progress, hc] at h
  obtain ⟨rfl, hoccupied, hrest⟩ := h
  have hseen : seen ++ deliveries i [] = seen := List.append_nil seen
  obtain ⟨hbytes, rfl, -⟩ := read_spec hread
  by_cases hnil : bytes = []
  · -- the end of the stream: between messages, or the agent has not sent its header
    have hcount : 0 < 4 - lengthBuffer.length := by
      rcases hrest with ⟨-, hlen, -⟩ | ⟨-, -, rfl, -⟩
      · omega
      · simp
    have hend : rest c = [] := by
      rw [hnil] at hread
      exact rest_of_empty_read hcount hcloses hread
    simp only [if_pos hnil, Progress, hoccupied, hseen]
    rcases hrest with ⟨-, hlen, hframe⟩ | ⟨hseen, -⟩
    · rw [hend, List.append_nil] at hframe
      have hfour := frame_length a
      rw [← hframe] at hfour
      omega
    · exact ⟨hseen, by simp⟩
  · obtain ⟨rfl, hlen, hframe⟩ := hrest.resolve_right fun hdone => hnil <| by
      have hincoming : c.incoming = [] := (List.append_eq_nil_iff.mp hdone.2.2.2).1
      rw [hbytes, hincoming, List.take_nil]
    rw [← take_append_rest c (4 - lengthBuffer.length), ← hbytes, ← List.append_assoc] at hframe
    simp only [if_neg hnil]
    by_cases hshort : (lengthBuffer ++ bytes).length < 4
    · simp only [if_pos hshort, Progress]
      exact ⟨trivial, hoccupied, .inl ⟨rfl, hshort, hframe⟩⟩
    · have hfour : (lengthBuffer ++ bytes).length = 4 := by
        have htake : bytes.length ≤ 4 - lengthBuffer.length := by simp [hbytes]
        rw [List.length_append] at hshort ⊢
        omega
      obtain ⟨hlength, hbody⟩ := List.append_inj hframe (by rw [hfour, length_toLittleEndian])
      have hfits : a.messageBytes.length < 2 ^ 32 := Nat.lt_trans hvalid.fits (by decide)
      rw [if_neg hshort, hlength, ofLittleEndian_four hfits]
      by_cases hmax : a.Short
      · rw [if_pos ((isValidLength_iff a).mpr hmax)]
        exact ⟨rfl, hoccupied, rfl, hmax, rfl, messageBytes_pos a, hbody⟩
      · rw [if_neg fun hvalid => hmax ((isValidLength_iff a).mp hvalid)]
        simp [Progress, hoccupied, Agent.outcome, hmax, deliveries]

/-- The complete message is the agent's, and it is raised. -/
theorem progress_readBody (hvalid : a.Valid) (hcloses : Closes c) {sessionId : UInt32}
    {messageLength : Nat} {messageBuffer : Bytes}
    (hc : c.phase = .body sessionId messageLength messageBuffer) (h : Progress a seen c)
    (he : readBody s i c sessionId messageLength messageBuffer = some e) :
    Progress a (seen ++ deliveries i e.events) e.connection := by
  obtain ⟨⟨bytes, c'⟩, hread, he⟩ := Option.bind_eq_some_iff.mp he
  simp only [Progress, hc] at h
  obtain ⟨rfl, hoccupied, rfl, hshort, rfl, hlen, hmessage⟩ := h
  obtain ⟨hbytes, rfl, -⟩ := read_spec hread
  have hnil : bytes ≠ [] := by
    rintro rfl
    have hend := rest_of_empty_read (by omega) hcloses hread
    rw [hend, List.append_nil] at hmessage
    rw [hmessage] at hlen
    omega
  rw [← take_append_rest c (a.messageBytes.length - messageBuffer.length), ← hbytes,
    ← List.append_assoc] at hmessage
  dsimp only at he
  rw [if_neg hnil] at he
  split at he
  · rename_i hmore
    cases he
    exact ⟨rfl, hoccupied, rfl, hshort, rfl, hmore, hmessage⟩
  · rename_i hall
    have hcomplete : (messageBuffer ++ bytes).length = a.messageBytes.length := by
      have htake : bytes.length ≤ a.messageBytes.length - messageBuffer.length := by simp [hbytes]
      rw [List.length_append] at hall ⊢
      omega
    obtain ⟨hbody, hrest⟩ :=
      List.append_inj (hmessage.trans (List.append_nil a.messageBytes).symm) hcomplete
    have hdeserialize : PipeMessage.deserialize a.messageBytes = some a.message.received :=
      PipeMessage.deserialize_serialize hvalid.fits
    rw [hbody, hdeserialize] at he
    cases he
    refine ⟨rfl, hoccupied, .inr ⟨?_, hshort, rfl, hrest⟩⟩
    simp [deliveries, Agent.outcome, hshort]

/-- What a handler does next is in step with its agent. -/
theorem progress_handle (hvalid : a.Valid) (hcloses : Closes c) (h : Progress a seen c)
    (he : handle s i c = some e) : Progress a (seen ++ deliveries i e.events) e.connection := by
  cases hc : c.phase with
  | handshake =>
    rw [handle, hc] at he
    exact progress_handshake hcloses hc h he
  | registering sessionId =>
    rw [handle, hc] at he
    cases he
    exact progress_register hc h
  | header sessionId lengthBuffer =>
    rw [handle, hc] at he
    exact progress_readHeader hvalid hcloses hc h he
  | body sessionId messageLength messageBuffer =>
    rw [handle, hc] at he
    exact progress_readBody hvalid hcloses hc h he
  | ending sessionId registered =>
    rw [handle, hc] at he
    cases he
    simp only [Progress, hc] at h
    unfold finish
    split <;> simp [Progress, deliveries, h]
  | ended =>
    rw [handle, hc] at he
    cases he

/-! ## Steps of the clients -/

/-- What the agent sends next is what is still to come. -/
theorem progress_write {c' : Connection} (h : Progress a seen c)
    (hwrite : c.write = some c') : Progress a seen c' ∧ Closes c' := by
  obtain ⟨piece, pieces, hpieces, hopen, rfl⟩ := write_spec hwrite
  refine ⟨?_, fun hclosed => absurd hclosed (by simp [hopen])⟩
  have hrest : c.incoming ++ piece ++ pieces.flatten = rest c := by
    rw [rest, hpieces, List.flatten_cons, List.append_assoc]
  cases hc : c.phase with
  | handshake =>
    simp only [Progress, hc] at h ⊢
    obtain ⟨hseen, hoccupied, hall, htogether⟩ := h
    refine ⟨hseen, hoccupied, hrest.trans hall, fun hwhole => .inr ?_⟩
    rw [List.length_append]
    rcases htogether hwhole with ⟨-, hnone⟩ | hlen
    · -- the first piece, with the whole session id
      obtain ⟨first, rest, hfirst, hfour⟩ := hwhole
      obtain ⟨rfl, -⟩ := List.cons.inj (hpieces.symm.trans (hnone.trans hfirst))
      omega
    · omega
  | registering sessionId =>
    simp only [Progress, hc] at h ⊢
    exact ⟨h.1, h.2.1, hrest.trans h.2.2⟩
  | header sessionId lengthBuffer =>
    simp only [Progress, hc] at h ⊢
    rw [← hrest] at h
    exact h
  | body sessionId messageLength messageBuffer =>
    simp only [Progress, hc] at h ⊢
    rw [← hrest] at h
    exact h
  | ending sessionId registered => simpa only [Progress, hc] using h
  | ended => simpa only [Progress, hc] using h

/-! ## Every connection -/

/-- What a step of a handler leaves to its client, tells of others, and uses up. -/
structure Forward (i : Nat) (c : Connection) (e : Effect) : Prop where
  pieces : e.connection.pieces = c.pieces
  closed : e.connection.closed = c.closed
  others : ∀ j ≠ i, deliveries j e.events = []

theorem forward_of_read {c' : Connection} {count : Nat} {bytes : Bytes} {phase : Phase}
    {sessions : UInt32 → Option Nat} (h : c.read count = some (bytes, c')) :
    Forward i c { sessions, connection := { c' with phase } } := by
  obtain ⟨-, rfl, -⟩ := read_spec h
  exact ⟨rfl, rfl, fun j hj => rfl⟩

theorem forward_handle (he : handle s i c = some e) : Forward i c e := by
  unfold handle at he
  split at he
  · obtain ⟨⟨bytes, c'⟩, hread, he⟩ := Option.bind_eq_some_iff.mp he
    cases he
    exact forward_of_read hread
  · cases he
    unfold register
    split <;> exact ⟨rfl, rfl, fun j hj => rfl⟩
  · obtain ⟨⟨bytes, c'⟩, hread, he⟩ := Option.bind_eq_some_iff.mp he
    cases he
    exact forward_of_read hread
  · obtain ⟨⟨bytes, c'⟩, hread, he⟩ := Option.bind_eq_some_iff.mp he
    dsimp only at he
    split at he
    · cases he
      exact forward_of_read hread
    · split at he
      · cases he
        exact forward_of_read hread
      · split at he
        · cases he
          obtain ⟨-, rfl, -⟩ := read_spec hread
          refine ⟨rfl, rfl, fun j hj => ?_⟩
          simp [deliveries, Ne.symm hj]
        · cases he
          exact forward_of_read hread
  · cases he
    unfold finish
    split <;> exact ⟨rfl, rfl, fun j hj => rfl⟩
  · cases he

theorem deliveries_append (i : Nat) (events events' : List Event) :
    deliveries i (events ++ events') = deliveries i events ++ deliveries i events' :=
  List.filterMap_append

/-- Every connection is an agent's and in step with it; the others have raised nothing. -/
structure Inv (agents : List Agent) (s : State) : Prop where
  length_le : s.connections.length ≤ agents.length
  follows : ∀ i c, s.connections[i]? = some c → ∃ a, agents[i]? = some a ∧
    Progress a (deliveries i s.events) c ∧ Closes c
  silent : ∀ i, s.connections[i]? = none → deliveries i s.events = []

variable {agents : List Agent}

/-- A step of one connection, and what its handler raises. -/
theorem Inv.apply (h : Inv agents s) (hget : s.connections[i]? = some c)
    (hothers : ∀ j ≠ i, deliveries j e.events = [])
    (hown : ∀ a, agents[i]? = some a → Progress a (deliveries i s.events) c → Closes c →
      Progress a (deliveries i s.events ++ deliveries i e.events) e.connection ∧
        Closes e.connection) : Inv agents (s.apply i e) := by
  have hlt : i < s.connections.length := (List.getElem?_eq_some_iff.mp hget).1
  refine ⟨by simpa [State.apply] using h.length_le, fun j d hj => ?_, fun j hj => ?_⟩
  · simp only [State.apply] at hj ⊢
    rw [deliveries_append]
    by_cases hji : j = i
    · subst hji
      obtain rfl : e.connection = d := by simpa [hlt] using hj
      obtain ⟨a, ha, hprogress, hcloses⟩ := h.follows j c hget
      exact ⟨a, ha, hown a ha hprogress hcloses⟩
    · rw [hothers j hji, List.append_nil]
      exact h.follows j d (by rwa [List.getElem?_set_ne (Ne.symm hji)] at hj)
  · have hge : s.connections.length ≤ j := by simpa [State.apply] using hj
    simp only [State.apply]
    rw [deliveries_append, h.silent j (by simpa using hge), hothers j (by omega)]
    rfl

theorem set_eq_apply (s : State) (i : Nat) (c : Connection) :
    s.set i c = s.apply i { sessions := s.sessions, connection := c } := by
  simp [State.set, State.apply]

/-- A step of a client, of which its handler hears nothing yet. -/
theorem Inv.set {c' : Connection} (h : Inv agents s) (hget : s.connections[i]? = some c)
    (hown : ∀ a, agents[i]? = some a → Progress a (deliveries i s.events) c → Closes c →
      Progress a (deliveries i s.events) c' ∧ Closes c') : Inv agents (s.set i c') := by
  rw [set_eq_apply]
  refine h.apply hget (fun _ _ => rfl) fun a ha hprogress hcloses => ?_
  rw [show deliveries i [] = [] from rfl, List.append_nil]
  exact hown a ha hprogress hcloses

theorem inv_step {t : Step} (hvalid : ∀ a ∈ agents, a.Valid) (h : Inv agents s)
    (hg : Reliable agents s t) (hs : step s t = some s') : Inv agents s' := by
  cases t with
  | connect pieces =>
    cases hs
    obtain ⟨a, ha, rfl⟩ := hg
    have hlt : s.connections.length < agents.length := (List.getElem?_eq_some_iff.mp ha).1
    refine ⟨by simpa using hlt, fun i c hc => ?_, fun i hi => h.silent i ?_⟩
    · rw [List.getElem?_append] at hc
      split at hc
      · exact h.follows i c hc
      · -- a new connection, from which nothing has been read
        have hi : i = s.connections.length := by
          have hlast := (List.getElem?_eq_some_iff.mp hc).1
          simp only [List.length_singleton] at hlast
          omega
        obtain rfl := List.mem_singleton.mp (List.mem_of_getElem? hc)
        subst hi
        have hpieces := (hvalid a (List.mem_of_getElem? ha)).pieces
        refine ⟨a, ha, ⟨h.silent _ (by simp), rfl, hpieces, fun _ => .inl ⟨rfl, rfl⟩⟩,
          fun hclosed => ?_⟩
        cases hclosed
    · simp only [List.getElem?_eq_none_iff, List.length_append] at hi ⊢
      omega
  | write i =>
    obtain ⟨c, hget, hs⟩ := Option.bind_eq_some_iff.mp hs
    obtain ⟨c', hwrite, rfl⟩ := Option.map_eq_some_iff.mp hs
    exact h.set hget fun a ha hprogress _ =>
      progress_write hprogress hwrite
  | close i =>
    obtain ⟨c, hget, hs⟩ := Option.bind_eq_some_iff.mp hs
    obtain ⟨c', hclose, rfl⟩ := Option.map_eq_some_iff.mp hs
    obtain ⟨-, rfl⟩ := close_spec hclose
    exact h.set hget fun a ha hprogress _ => ⟨hprogress, fun _ => hg c hget⟩
  | handle i =>
    obtain ⟨c, hget, hs⟩ := Option.bind_eq_some_iff.mp hs
    obtain ⟨e, he, rfl⟩ := Option.map_eq_some_iff.mp hs
    have hforward := forward_handle he
    refine h.apply hget hforward.others fun a ha hprogress hcloses => ⟨?_, ?_⟩
    · exact progress_handle (hvalid a (List.mem_of_getElem? ha)) hcloses hprogress he
    · rw [Closes, hforward.closed, hforward.pieces]
      exact hcloses
  | fault i => exact hg.elim

theorem inv_init : Inv agents {} := ⟨Nat.zero_le _, by simp, fun _ _ => rfl⟩

theorem Progress.length_le_one (h : Progress a seen c) : seen.length ≤ 1 := by
  have houtcome : ∀ occupied, (a.outcome occupied).length ≤ 1 := fun occupied => by
    unfold Agent.outcome
    split <;> simp
  unfold Progress at h
  split at h
  · simp [h.1]
  · simp [h.1]
  · rcases h.2.2 with hnone | hdone
    · simp [hnone.1]
    · rw [hdone.1]
      exact houtcome (some false)
  · simp [h.2.2.1]
  · rw [h.1]
    exact houtcome c.occupied
  · rw [h.1]
    exact houtcome c.occupied

theorem Inv.deliveries_le_one (h : Inv agents s) (i : Nat) :
    (deliveries i s.events).length ≤ 1 := by
  cases hget : s.connections[i]? with
  | none => simp [h.silent i hget]
  | some c =>
    obtain ⟨a, -, hprogress, -⟩ := h.follows i c hget
    exact hprogress.length_le_one

/-! ## Nothing waits for ever -/

/-- How far a handler is from its end. -/
def rank : Phase → Nat
  | .handshake => 4
  | .registering _ => 3
  | .header _ _ | .body _ _ _ => 2
  | .ending _ _ => 1
  | .ended => 0

/-- What is still to be done of a connection. -/
def remaining (c : Connection) : Nat :=
  c.pieces.length + (if c.closed then 0 else 1) + (rest c).length + rank c.phase

/-- What is still to be done of a run. -/
def work (agents : List Agent) (s : State) : Nat :=
  (s.connections.map remaining).sum +
    ((agents.drop s.connections.length).map fun a => remaining { pieces := a.pieces } + 1).sum

/-- A handler that does not come nearer to its end has read something. -/
theorem work_of_read {c' : Connection} {count : Nat} {bytes : Bytes} {phase : Phase}
    (h : c.read count = some (bytes, c')) (hrank : rank phase ≤ rank c.phase)
    (hless : bytes = [] → rank phase < rank c.phase) :
    remaining { c' with phase } < remaining c := by
  obtain ⟨hbytes, rfl, -⟩ := read_spec h
  have hlen : bytes.length + (rest { c with incoming := c.incoming.drop count }).length =
      (rest c).length := by
    rw [hbytes, ← List.length_append, take_append_rest]
  simp only [rest] at hlen
  simp only [remaining, rest]
  -- an empty read is the end of the pipe, and only a nearer phase follows it
  by_cases hnil : bytes = []
  · have := hless hnil
    omega
  · have := List.length_pos_of_ne_nil hnil
    omega

theorem work_handle (he : handle s i c = some e) :
    remaining e.connection < remaining c := by
  unfold handle at he
  split at he
  · rename_i hc
    obtain ⟨⟨bytes, c'⟩, hread, he⟩ := Option.bind_eq_some_iff.mp he
    cases he
    refine work_of_read hread ?_ fun _ => ?_
    · rw [hc]
      split <;> simp [rank]
    · rw [hc]
      split <;> simp [rank]
  · rename_i hc
    cases he
    unfold register
    split <;> simp [remaining, rest, hc, rank]
  · rename_i hc
    obtain ⟨⟨bytes, c'⟩, hread, he⟩ := Option.bind_eq_some_iff.mp he
    cases he
    refine work_of_read hread ?_ fun hnil => ?_
    · rw [hc]
      split
      · simp [rank]
      · split
        · simp [rank]
        · split <;> simp [rank]
    · rw [hc, if_pos hnil]
      simp [rank]
  · rename_i hc
    obtain ⟨⟨bytes, c'⟩, hread, he⟩ := Option.bind_eq_some_iff.mp he
    dsimp only at he
    split at he
    · cases he
      exact work_of_read hread (by simp [hc, rank]) fun _ => by simp [hc, rank]
    · rename_i hnil
      split at he
      · cases he
        exact work_of_read hread (by simp [hc, rank]) fun h => absurd h hnil
      · split at he
        · cases he
          exact work_of_read hread (by simp [hc, rank]) fun h => absurd h hnil
        · cases he
          exact work_of_read hread (by simp [hc, rank]) fun h => absurd h hnil
  · rename_i hc
    cases he
    unfold finish
    split <;> simp [remaining, rest, hc, rank]
  · cases he

theorem work_apply (hget : s.connections[i]? = some c)
    (hless : remaining e.connection < remaining c) : work agents (s.apply i e) < work agents s := by
  obtain ⟨hlt, hi⟩ := List.getElem?_eq_some_iff.mp hget
  -- both sums split at the connection that has moved
  have hsplit : s.connections = s.connections.take i ++ c :: s.connections.drop (i + 1) := by
    rw [← hi, List.getElem_cons_drop, List.take_append_drop]
  have hset : (s.connections.set i e.connection).map remaining =
      (s.connections.take i).map remaining ++ remaining e.connection ::
        (s.connections.drop (i + 1)).map remaining := by
    rw [List.set_eq_take_append_cons_drop, if_pos hlt, List.map_append, List.map_cons]
  have hmap := congrArg (List.map remaining) hsplit
  simp only [List.map_append, List.map_cons] at hmap
  simp only [work, State.apply, List.length_set]
  rw [hset, hmap]
  simp only [List.sum_append, List.sum_cons]
  omega

theorem work_step {t : Step} (hg : Reliable agents s t) (hs : step s t = some s') :
    work agents s' < work agents s := by
  cases t with
  | connect pieces =>
    cases hs
    obtain ⟨a, ha, rfl⟩ := hg
    obtain ⟨hlt, rfl⟩ := List.getElem?_eq_some_iff.mp ha
    simp only [work, List.map_append, List.sum_append, List.length_append, List.length_singleton]
    rw [List.drop_eq_getElem_cons hlt]
    simp only [List.map_cons, List.map_nil, List.sum_cons, List.sum_nil]
    omega
  | write i =>
    obtain ⟨c, hget, hs⟩ := Option.bind_eq_some_iff.mp hs
    obtain ⟨c', hwrite, rfl⟩ := Option.map_eq_some_iff.mp hs
    rw [set_eq_apply]
    refine work_apply hget ?_
    obtain ⟨piece, pieces, hpieces, -, rfl⟩ := write_spec hwrite
    simp only [remaining, rest, hpieces, List.flatten_cons, List.length_cons, List.length_append]
    omega
  | close i =>
    obtain ⟨c, hget, hs⟩ := Option.bind_eq_some_iff.mp hs
    obtain ⟨c', hclose, rfl⟩ := Option.map_eq_some_iff.mp hs
    rw [set_eq_apply]
    refine work_apply hget ?_
    obtain ⟨hopen, rfl⟩ := close_spec hclose
    simp [remaining, rest, hopen]
  | handle i =>
    obtain ⟨c, hget, hs⟩ := Option.bind_eq_some_iff.mp hs
    obtain ⟨e, he, rfl⟩ := Option.map_eq_some_iff.mp hs
    exact work_apply hget (work_handle he)
  | fault i => exact hg.elim

/-- A closed pipe keeps no handler waiting. -/
theorem exists_handle (hclosed : c.closed = true) (hc : c.phase ≠ .ended) :
    ∃ e, handle s i c = some e := by
  have hread : ∀ count, c.read count =
      some (c.incoming.take count, { c with incoming := c.incoming.drop count }) := fun count => by
    simp [Connection.read, hclosed]
  cases hphase : c.phase with
  | handshake =>
    exact ⟨_, by rw [handle, hphase]; exact Option.bind_eq_some_iff.mpr ⟨_, hread 4, rfl⟩⟩
  | registering sessionId => exact ⟨_, by rw [handle, hphase]⟩
  | header sessionId lengthBuffer =>
    exact ⟨_, by rw [handle, hphase]; exact Option.bind_eq_some_iff.mpr ⟨_, hread _, rfl⟩⟩
  | body sessionId messageLength messageBuffer =>
    rw [handle, hphase]
    simp only [readBody, hread, Option.bind_eq_bind, Option.bind_some]
    split
    · exact ⟨_, rfl⟩
    · split
      · exact ⟨_, rfl⟩
      · split <;> exact ⟨_, rfl⟩
  | ending sessionId registered => exact ⟨_, by rw [handle, hphase]⟩
  | ended => exact absurd hphase hc

/-- Every agent has connected, and its handler has ended. -/
def Done (agents : List Agent) (s : State) : Prop :=
  ∀ (i : Nat) (a : Agent), agents[i]? = some a → ∃ c : Connection,
    s.connections[i]? = some c ∧ c.phase = .ended

theorem exists_step (h : Inv agents s) :
    Done agents s ∨ ∃ t s', Reliable agents s t ∧ step s t = some s' := by
  by_cases hall : s.connections.length = agents.length
  · by_cases hended : ∀ c ∈ s.connections, c.phase = .ended
    · refine .inl fun i a ha => ?_
      have hlt : i < s.connections.length := hall ▸ (List.getElem?_eq_some_iff.mp ha).1
      exact ⟨_, List.getElem?_eq_getElem hlt, hended _ (List.getElem_mem hlt)⟩
    · right
      push Not at hended
      obtain ⟨c, hmem, hc⟩ := hended
      obtain ⟨i, hget⟩ := List.mem_iff_getElem?.mp hmem
      obtain ⟨a, -, -, hcloses⟩ := h.follows i c hget
      -- the handler can move on a closed pipe; on an open one the client writes or closes
      cases hclosed : c.closed with
      | true =>
        obtain ⟨e, he⟩ := exists_handle (s := s) (i := i) hclosed hc
        exact ⟨.handle i, _, trivial, by rw [step, hget, Option.bind_some, he]; rfl⟩
      | false =>
        cases hpieces : c.pieces with
        | nil =>
          refine ⟨.close i, s.set i { c with closed := true }, ?_, ?_⟩
          · intro d hd
            obtain rfl : c = d := Option.some.inj (hget.symm.trans hd)
            exact hpieces
          · simp [step, hget, Connection.close, hclosed]
        | cons piece pieces =>
          refine ⟨.write i, s.set i { c with pieces, incoming := c.incoming ++ piece }, trivial, ?_⟩
          simp [step, hget, Connection.write, hpieces, hclosed]
  · right
    have hlt : s.connections.length < agents.length := Nat.lt_of_le_of_ne h.length_le hall
    exact ⟨.connect _, _, ⟨_, List.getElem?_eq_getElem hlt, rfl⟩, rfl⟩

/-! ## Whole runs -/

/-- What has come of the agents whose handlers have ended. -/
def Outcomes (agents : List Agent) (s : State) : Prop :=
  ∀ (i : Nat) (a : Agent), agents[i]? = some a → ∃ c : Connection,
    s.connections[i]? = some c ∧ c.phase = .ended ∧ (a.Together → c.occupied ≠ none) ∧
      deliveries i s.events = a.outcome c.occupied

theorem Inv.outcomes (h : Inv agents s) (hdone : Done agents s) : Outcomes agents s := by
  intro i a ha
  obtain ⟨c, hget, hended⟩ := hdone i a ha
  obtain ⟨b, hb, hprogress, -⟩ := h.follows i c hget
  obtain rfl : a = b := Option.some.inj (ha.symm.trans hb)
  simp only [Progress, hended] at hprogress
  exact ⟨c, hget, hended, hprogress.2, hprogress.1⟩

/-- Every agent whose handler has ended has been heard once. -/
def DeliveredOnce (agents : List Agent) (s : State) : Prop :=
  ∀ (i : Nat) (a : Agent) (c : Connection), agents[i]? = some a → s.connections[i]? = some c →
    c.phase = .ended → deliveries i s.events = [(a.sessionId, a.message.received)]

/-- An agent whose pipe carries the session id in one piece and the rest in another. -/
def agent (type : MessageType) (messageId : String) (payload : Bytes) : Agent :=
  let a : Agent := {
    type
    sessionId := 1
    payload := some payload
    metadata := none
    messageId
    createdUtc := .minValue
    pieces := [] }
  { a with pieces := [a.sessionBytes, a.frame] }

def screenshotAgent : Agent := agent .screenshot "a" [137, 80]

def activityAgent : Agent := agent .activity "b" [123, 125]

/-- The second one is turned away while the first is served. -/
def overlap : List Step :=
  [.connect screenshotAgent.pieces, .connect activityAgent.pieces, .write 0, .write 1, .handle 0,
    .handle 0, .handle 1, .handle 1, .handle 1]

theorem valid_agents : ∀ a ∈ [screenshotAgent, activityAgent], a.Valid := by
  intro a ha
  rcases List.mem_pair.mp ha with rfl | rfl
  · exact ⟨by decide, by decide⟩
  · exact ⟨by decide, by decide⟩

theorem reliable_overlap :
    EachStep step (fun s t _ => Reliable [screenshotAgent, activityAgent] s t) {} overlap := by
  refine fun s hs => ⟨⟨_, rfl, rfl⟩, ?_⟩
  cases hs
  refine fun s hs => ⟨⟨_, rfl, rfl⟩, ?_⟩
  cases hs
  iterate 7
    refine fun s hs => ⟨trivial, ?_⟩
    cases hs
  trivial

end Ipc.Delivery
