/-
  FRAMING: many messages over one connection, after the session handshake.

  The client sends any list of messages, each behind its length, or only the first part of that.
  What it sends arrives in pieces of any size, and the handler's reads take what is there, up to
  what they have asked for; so the stream is cut into read results in any way, inside a header, a
  message, or between two.

  1. **What is complete** (`complete`): the messages whose frames lie within the first bytes of the
     stream.

  2. **What the loop has still to raise** (`Framed`): at every read, what has been raised and what
     is complete in the bytes in hand and to come make up the same list.  A read that returns
     nothing comes at the end of the bytes, where nothing more is complete.

  3. `framing_exact`: the loop raises the complete messages, in order, and nothing else; it takes a
     bounded number of steps, and comes to its end when the stream does.
-/
import Vorsight.Ipc.Delivery

namespace Ipc.Framing

open Codec NamedPipeServer Delivery Runs

/-! ## Frames -/

/-- A message behind its length. -/
def frame (m : PipeMessage) : Bytes := toLittleEndian 4 m.serialize.length ++ m.serialize

/-- What a client sends after the handshake. -/
def stream (messages : List PipeMessage) : Bytes := messages.flatMap frame

/-- The messages whose frames are complete in the first `n` bytes of their stream. -/
def complete : List PipeMessage → Nat → List PipeMessage
  | [], _ => []
  | m :: messages, n =>
    if (frame m).length ≤ n then m :: complete messages (n - (frame m).length) else []

/-- The server takes the message. -/
def Short (m : PipeMessage) : Prop := m.serialize.length ≤ maxLength

instance (m : PipeMessage) : Decidable (Short m) := inferInstanceAs (Decidable (_ ≤ _))

@[simp] theorem stream_cons (m : PipeMessage) (messages : List PipeMessage) :
    stream (m :: messages) = frame m ++ stream messages := List.flatMap_cons

@[simp] theorem length_frame (m : PipeMessage) : (frame m).length = 4 + m.serialize.length := by
  simp [frame]

theorem serialize_pos (m : PipeMessage) : 0 < m.serialize.length := by
  simp [PipeMessage.serialize]

/-- Complete are the messages at the front whose frames fit. -/
theorem complete_prefix : ∀ (messages : List PipeMessage) (n : Nat),
    complete messages n <+: messages ∧ (stream (complete messages n)).length ≤ n
  | [], n => ⟨List.prefix_rfl, Nat.zero_le n⟩
  | m :: messages, n => by
    unfold complete
    split
    · rename_i hfits
      obtain ⟨hfront, hlen⟩ := complete_prefix messages (n - (frame m).length)
      refine ⟨(List.prefix_cons_inj m).mpr hfront, ?_⟩
      rw [stream_cons, List.length_append]
      omega
    · exact ⟨List.nil_prefix, Nat.zero_le n⟩

/-- In the whole stream, all of them are. -/
theorem complete_stream : ∀ messages : List PipeMessage,
    complete messages (stream messages).length = messages
  | [] => rfl
  | m :: messages => by
    rw [complete, stream_cons, List.length_append, if_pos (Nat.le_add_right _ _),
      Nat.add_sub_cancel_left, complete_stream messages]

/-- Less than the first frame completes nothing. -/
theorem complete_short {messages : List PipeMessage} {n : Nat} (h : n < 5) :
    complete messages n = [] := by
  cases messages with
  | nil => rfl
  | cons m messages =>
    have hpos := serialize_pos m
    rw [complete, length_frame, if_neg (by omega)]

/-! ## What the loop has still to raise -/

/-- The messages that are complete in `n` bytes, as the server raises them. -/
def arrivals (sessionId : UInt32) (messages : List PipeMessage) (n : Nat) :
    List (UInt32 × PipeMessage) :=
  (complete messages n).map fun m => (sessionId, m.received)

/-- See the header: `seen` has been raised, and `all` is to be in the end. -/
def Framed (sessionId : UInt32) (all seen : List (UInt32 × PipeMessage)) (c : Connection) : Prop :=
  match c.phase with
  | .header id lengthBuffer => id = sessionId ∧ lengthBuffer.length < 4 ∧
      ∃ messages, (∀ m ∈ messages, Short m) ∧ lengthBuffer ++ rest c <+: stream messages ∧
        seen ++ arrivals sessionId messages (lengthBuffer.length + (rest c).length) = all
  | .body id messageLength messageBuffer => id = sessionId ∧
      ∃ m messages, (∀ m' ∈ m :: messages, Short m') ∧ messageLength = m.serialize.length ∧
        messageBuffer.length < messageLength ∧
        messageBuffer ++ rest c <+: m.serialize ++ stream messages ∧
        seen ++ arrivals sessionId (m :: messages)
          (4 + messageBuffer.length + (rest c).length) = all
  | .ending _ _ | .ended => seen = all
  | _ => False

variable {sessionId : UInt32} {all seen : List (UInt32 × PipeMessage)} {s s' : State} {i : Nat}
  {c c' : Connection} {e : Effect}

/-- Only the phase and the bytes still to be read matter. -/
theorem Framed.congr (h : Framed sessionId all seen c) (hphase : c'.phase = c.phase)
    (hrest : rest c' = rest c) : Framed sessionId all seen c' := by
  unfold Framed at h ⊢
  rw [hphase, hrest]
  exact h

/-- What has been raised so far is the first part of it. -/
theorem Framed.seen_prefix (h : Framed sessionId all seen c) : seen <+: all := by
  unfold Framed at h
  cases hphase : c.phase with
  | header id lengthBuffer =>
    rw [hphase] at h
    obtain ⟨-, -, messages, -, -, rfl⟩ := h
    exact List.prefix_append _ _
  | body id messageLength messageBuffer =>
    rw [hphase] at h
    obtain ⟨-, m, messages, -, -, -, -, rfl⟩ := h
    exact List.prefix_append _ _
  | ending id registered =>
    rw [hphase] at h
    exact h ▸ List.prefix_rfl
  | ended =>
    rw [hphase] at h
    exact h ▸ List.prefix_rfl
  | handshake | registering =>
    rw [hphase] at h
    exact h.elim

/-- At the end of the bytes a loop that waits for more has raised everything. -/
theorem Framed.all_of_rest_nil (h : Framed sessionId all seen c) (hrest : rest c = []) :
    seen = all := by
  unfold Framed at h
  cases hphase : c.phase with
  | header id lengthBuffer =>
    rw [hphase] at h
    obtain ⟨-, hlen, messages, -, -, hall⟩ := h
    rw [hrest, List.length_nil, arrivals, complete_short (by omega)] at hall
    exact (List.append_nil seen).symm.trans hall
  | body id messageLength messageBuffer =>
    rw [hphase] at h
    obtain ⟨-, m, messages, -, rfl, hlen, -, hall⟩ := h
    rw [hrest, List.length_nil, arrivals, complete, length_frame, if_neg (by omega)] at hall
    exact (List.append_nil seen).symm.trans hall
  | ending id registered =>
    rw [hphase] at h
    exact h
  | ended =>
    rw [hphase] at h
    exact h
  | handshake | registering =>
    rw [hphase] at h
    exact h.elim

/-- The first part of a stream that is longer than a header starts with one. -/
theorem header_of_prefix {messages : List PipeMessage} {lengthBuffer bytes : Bytes}
    (hlen : lengthBuffer.length = 4) (h : lengthBuffer ++ bytes <+: stream messages) :
    ∃ m rest, messages = m :: rest ∧ lengthBuffer = toLittleEndian 4 m.serialize.length ∧
      bytes <+: m.serialize ++ stream rest := by
  obtain ⟨more, h⟩ := h
  cases messages with
  | nil =>
    have hnil := congrArg List.length h
    simp only [stream, List.flatMap_nil, List.length_append, List.length_nil] at hnil
    omega
  | cons m messages =>
    rw [stream_cons, frame, List.append_assoc, List.append_assoc] at h
    obtain ⟨hheader, hbody⟩ := List.append_inj h (by rw [hlen, length_toLittleEndian])
    exact ⟨m, messages, rfl, hheader, more, hbody⟩

/-- 1. Read Message Length (4 bytes). -/
theorem framed_readHeader (hcloses : Closes c) {id : UInt32} {lengthBuffer : Bytes}
    (hc : c.phase = .header id lengthBuffer) (h : Framed sessionId all seen c)
    (he : readHeader s c id lengthBuffer = some e) :
    Framed sessionId all (seen ++ deliveries i e.events) e.connection := by
  have hend := h.all_of_rest_nil
  obtain ⟨⟨bytes, c'⟩, hread, he⟩ := Option.bind_eq_some_iff.mp he
  cases he
  simp only [Framed, hc] at h
  obtain ⟨rfl, hlen, messages, hshort, hfront, hall⟩ := h
  have hseen : seen ++ deliveries i [] = seen := List.append_nil seen
  rw [hseen]
  obtain ⟨hbytes, rfl, -⟩ := read_spec hread
  by_cases hnil : bytes = []
  · -- the end of the stream, between two messages or inside a header
    rw [hnil] at hread
    have hrest := rest_of_empty_read (by omega) hcloses hread
    simp only [if_pos hnil, Framed]
    exact hend hrest
  · have htake := take_append_rest c (4 - lengthBuffer.length)
    rw [← hbytes] at htake
    have hcount : bytes.length ≤ 4 - lengthBuffer.length := by simp [hbytes]
    rw [← htake, ← List.append_assoc] at hfront
    rw [← htake, List.length_append, ← Nat.add_assoc, ← List.length_append] at hall
    simp only [if_neg hnil]
    by_cases hmore : (lengthBuffer ++ bytes).length < 4
    · simp only [if_pos hmore, Framed]
      exact ⟨trivial, hmore, messages, hshort, hfront, hall⟩
    · have hfour : (lengthBuffer ++ bytes).length = 4 := by
        rw [List.length_append] at hmore ⊢
        omega
      obtain ⟨m, messages, rfl, hlength, hbody⟩ := header_of_prefix hfour hfront
      have hpos := serialize_pos m
      have hm : m.serialize.length ≤ 10 * 1024 * 1024 := hshort m List.mem_cons_self
      have hvalue : ofLittleEndian (lengthBuffer ++ bytes) = m.serialize.length := by
        rw [hlength, ofLittleEndian_four (by omega)]
      have hvalid : isValidLength m.serialize.length = true := by
        simp [isValidLength, maxLength, hpos, hm]
      rw [if_neg hmore, hvalue, if_pos hvalid]
      rw [hfour] at hall
      exact ⟨rfl, m, messages, hshort, rfl, hpos, hbody, hall⟩

/-- 2. Read Message Body. -/
theorem framed_readBody (hcloses : Closes c) {id : UInt32} {messageLength : Nat}
    {messageBuffer : Bytes} (hc : c.phase = .body id messageLength messageBuffer)
    (h : Framed sessionId all seen c)
    (he : readBody s i c id messageLength messageBuffer = some e) :
    Framed sessionId all (seen ++ deliveries i e.events) e.connection := by
  have hend := h.all_of_rest_nil
  obtain ⟨⟨bytes, c'⟩, hread, he⟩ := Option.bind_eq_some_iff.mp he
  simp only [Framed, hc] at h
  obtain ⟨rfl, m, messages, hshort, rfl, hlen, hfront, hall⟩ := h
  have hseen : seen ++ deliveries i [] = seen := List.append_nil seen
  obtain ⟨hbytes, rfl, -⟩ := read_spec hread
  dsimp only at he
  by_cases hnil : bytes = []
  · -- the end of the stream, inside a message
    rw [if_pos hnil] at he
    cases he
    rw [hnil] at hread
    have hrest := rest_of_empty_read (by omega) hcloses hread
    simp only [hseen, Framed]
    exact hend hrest
  · rw [if_neg hnil] at he
    have htake := take_append_rest c (m.serialize.length - messageBuffer.length)
    rw [← hbytes] at htake
    have hcount : bytes.length ≤ m.serialize.length - messageBuffer.length := by simp [hbytes]
    rw [← htake, ← List.append_assoc] at hfront
    rw [← htake, List.length_append, ← Nat.add_assoc, Nat.add_assoc 4, ← List.length_append] at hall
    by_cases hmore : (messageBuffer ++ bytes).length < m.serialize.length
    · rw [if_pos hmore] at he
      cases he
      rw [hseen]
      exact ⟨rfl, m, messages, hshort, rfl, hmore, hfront, hall⟩
    · have hcomplete : (messageBuffer ++ bytes).length = m.serialize.length := by
        rw [List.length_append] at hmore ⊢
        omega
      obtain ⟨more, hfront⟩ := hfront
      rw [List.append_assoc] at hfront
      obtain ⟨hbody, hrest⟩ := List.append_inj hfront hcomplete
      have hfits : m.Fits := Nat.lt_of_le_of_lt (hshort m List.mem_cons_self) (by decide)
      rw [if_neg hmore, hbody, PipeMessage.deserialize_serialize hfits] at he
      cases he
      rw [hcomplete, ← length_frame, arrivals, complete, if_pos (Nat.le_add_right _ _),
        Nat.add_sub_cancel_left] at hall
      refine ⟨rfl, by simp, messages, fun m' hm' => hshort m' (List.mem_cons_of_mem m hm'),
        ⟨more, hrest⟩, ?_⟩
      rw [← hall]
      simp [deliveries, arrivals, rest]

theorem framed_handle (hcloses : Closes c) (h : Framed sessionId all seen c)
    (he : handle s i c = some e) :
    Framed sessionId all (seen ++ deliveries i e.events) e.connection := by
  cases hc : c.phase with
  | handshake => simp only [Framed, hc] at h
  | registering id => simp only [Framed, hc] at h
  | header id lengthBuffer =>
    rw [handle, hc] at he
    exact framed_readHeader hcloses hc h he
  | body id messageLength messageBuffer =>
    rw [handle, hc] at he
    exact framed_readBody hcloses hc h he
  | ending id registered =>
    rw [handle, hc] at he
    cases he
    have hall : seen = all := by simpa only [Framed, hc] using h
    unfold finish
    split <;> simp [Framed, deliveries, hall]
  | ended =>
    rw [handle, hc] at he
    cases he

/-- A loop that cannot go on has raised everything, or there is more to come. -/
theorem all_of_stuck (h : Framed sessionId all seen c)
    (hpieces : c.pieces = []) (hstuck : handle s i c = none) :
    seen = all ∧ (c.closed = true → c.phase = .ended) := by
  refine ⟨?_, fun hclosed => ?_⟩
  · by_cases hrest : rest c = []
    · exact h.all_of_rest_nil hrest
    · -- with something to read, a read does not wait
      have hincoming : c.incoming ≠ [] := by
        intro hnil
        exact hrest (by simp [rest, hnil, hpieces])
      have hread : ∀ count, c.read count =
          some (c.incoming.take count, { c with incoming := c.incoming.drop count }) := by
        intro count
        simp [Connection.read, hincoming]
      cases hc : c.phase with
      | handshake => simp only [Framed, hc] at h
      | registering id => simp only [Framed, hc] at h
      | header id lengthBuffer =>
        rw [handle, hc] at hstuck
        simp [readHeader, hread] at hstuck
      | body id messageLength messageBuffer =>
        rw [handle, hc] at hstuck
        simp only [readBody, hread, Option.bind_eq_bind, Option.bind_some] at hstuck
        split at hstuck
        · cases hstuck
        · split at hstuck
          · cases hstuck
          · split at hstuck <;> cases hstuck
      | ending id registered =>
        rw [handle, hc] at hstuck
        cases hstuck
      | ended => simpa only [Framed, hc] using h
  · by_contra hended
    obtain ⟨e, he⟩ := exists_handle (s := s) (i := i) hclosed hended
    rw [hstuck] at he
    cases he

/-! ## Runs of the server -/

/-- The steps of connection `i`. -/
def own (i : Nat) : Step → Bool
  | .write j | .close j | .handle j => j = i
  | _ => false

/-- The client closes when it has sent everything, and nothing is thrown in its handler. -/
def Undisturbed (i : Nat) (s : State) : Step → Prop
  | .close j => j = i → ∀ c ∈ s.connections[j]?, c.pieces = []
  | .fault j => j ≠ i
  | _ => True

instance (i : Nat) (s : State) : (t : Step) → Decidable (Undisturbed i s t)
  | .connect _ | .write _ | .handle _ => .isTrue trivial
  | .close j => inferInstanceAs (Decidable (j = i → ∀ c ∈ s.connections[j]?, c.pieces = []))
  | .fault j => inferInstanceAs (Decidable (j ≠ i))

/-- Connection `i` is in step with its client; it has taken `spent` steps of at most `bound`. -/
def Tracks (i : Nat) (sessionId : UInt32) (all : List (UInt32 × PipeMessage)) (bound spent : Nat)
    (s : State) : Prop :=
  ∃ c, s.connections[i]? = some c ∧ Closes c ∧ Framed sessionId all (deliveries i s.events) c ∧
    spent + remaining c ≤ bound

variable {bound spent : Nat} {t : Step}

/-- A step of connection `j`: it matters if that is connection `i`. -/
theorem Tracks.apply {j : Nat} (h : Tracks i sessionId all bound spent s)
    (hget : s.connections[j]? = some c) (hothers : ∀ k ≠ j, deliveries k e.events = [])
    (hown : j = i → Closes c → Framed sessionId all (deliveries j s.events) c →
      Closes e.connection ∧
        Framed sessionId all (deliveries j s.events ++ deliveries j e.events) e.connection)
    (hless : remaining e.connection < remaining c) :
    Tracks i sessionId all bound (spent + if j = i then 1 else 0) (s.apply j e) := by
  obtain ⟨d, hd, hcloses, hframed, hspent⟩ := h
  have hlt : j < s.connections.length := (List.getElem?_eq_some_iff.mp hget).1
  by_cases hji : j = i
  · subst hji
    obtain rfl : c = d := Option.some.inj (hget.symm.trans hd)
    obtain ⟨hcloses', hframed'⟩ := hown rfl hcloses hframed
    refine ⟨e.connection, by simp [State.apply, hlt], hcloses', ?_, ?_⟩
    · rw [State.apply, deliveries_append]
      exact hframed'
    · rw [if_pos rfl]
      omega
  · refine ⟨d, ?_, hcloses, ?_, ?_⟩
    · simpa [State.apply, List.getElem?_set_ne hji] using hd
    · rw [State.apply, deliveries_append, hothers i (Ne.symm hji), List.append_nil]
      exact hframed
    · rw [if_neg hji]
      exact hspent

/-- A step of a client: its handler hears nothing yet, and the same bytes are still to be read. -/
theorem Tracks.set {j : Nat} {c' : Connection} (h : Tracks i sessionId all bound spent s)
    (hget : s.connections[j]? = some c) (hcloses : j = i → Closes c')
    (hphase : c'.phase = c.phase) (hrest : rest c' = rest c) (hless : remaining c' < remaining c) :
    Tracks i sessionId all bound (spent + if j = i then 1 else 0) (s.set j c') := by
  rw [set_eq_apply]
  refine h.apply hget (fun _ _ => rfl) (fun hji _ hframed => ⟨hcloses hji, ?_⟩) hless
  rw [show deliveries j [] = [] from rfl, List.append_nil]
  exact hframed.congr hphase hrest

/-- **One step of the server**: connection `i` stays in step with its client, and comes nearer to
    its end when it moves. -/
theorem tracks_step (h : Tracks i sessionId all bound spent s) (hg : Undisturbed i s t)
    (hs : step s t = some s') :
    Tracks i sessionId all bound (spent + if own i t then 1 else 0) s' := by
  cases t with
  | connect pieces =>
    cases hs
    obtain ⟨c, hget, hrest⟩ := h
    have hlt := (List.getElem?_eq_some_iff.mp hget).1
    exact ⟨c, (List.getElem?_append_left hlt).trans hget, hrest⟩
  | write j =>
    obtain ⟨c, hget, hs⟩ := Option.bind_eq_some_iff.mp hs
    obtain ⟨c', hwrite, rfl⟩ := Option.map_eq_some_iff.mp hs
    obtain ⟨piece, pieces, hpieces, hopen, rfl⟩ := write_spec hwrite
    simp only [own, decide_eq_true_eq]
    refine h.set hget (fun _ hclosed => absurd hclosed (by simp [hopen])) rfl ?_ ?_
    · rw [rest, rest, hpieces, List.flatten_cons, List.append_assoc]
    · simp only [remaining, rest, hpieces, List.flatten_cons, List.length_cons, List.length_append]
      omega
  | close j =>
    obtain ⟨c, hget, hs⟩ := Option.bind_eq_some_iff.mp hs
    obtain ⟨c', hclose, rfl⟩ := Option.map_eq_some_iff.mp hs
    obtain ⟨hopen, rfl⟩ := close_spec hclose
    simp only [own, decide_eq_true_eq]
    refine h.set hget (fun hji _ => hg hji c hget) rfl rfl ?_
    simp [remaining, rest, hopen]
  | handle j =>
    obtain ⟨c, hget, hs⟩ := Option.bind_eq_some_iff.mp hs
    obtain ⟨e, he, rfl⟩ := Option.map_eq_some_iff.mp hs
    have hforward := forward_handle he
    simp only [own, decide_eq_true_eq]
    refine h.apply hget hforward.others (fun _ hcloses hframed => ⟨?_, ?_⟩) (work_handle he)
    · rw [Closes, hforward.closed, hforward.pieces]
      exact hcloses
    · exact framed_handle hcloses hframed he
  | fault j =>
    obtain ⟨c, hget, hs⟩ := Option.bind_eq_some_iff.mp hs
    obtain ⟨phase, hfault, rfl⟩ := Option.map_eq_some_iff.mp hs
    obtain ⟨d, hd, hrest⟩ := h
    exact ⟨d, by simpa [State.set, List.getElem?_set_ne hg] using hd, hrest⟩

/-- A run of the server, with any other clients. -/
theorem tracks_run {steps : List Step} (h : Tracks i sessionId all bound spent s)
    (hg : EachStep step (fun s t _ => Undisturbed i s t) s steps)
    (hrun : run step s steps = some s') :
    Tracks i sessionId all bound (spent + steps.countP (own i)) s' := by
  induction steps generalizing s spent with
  | nil =>
    cases hrun
    exact h
  | cons t steps ih =>
    obtain ⟨m, hm, hrun⟩ := run_cons_eq_some.mp hrun
    have hstep := ih (tracks_step h (hg m hm).1 hm) (hg m hm).2 hrun
    rw [List.countP_cons]
    rwa [Nat.add_assoc, Nat.add_comm (ite _ _ _)] at hstep

/-- **Framing is exact.**  A connection whose handler is about to read its first header is sent the
    first part, or all, of the frames of messages of at most 10 MB.  In every run of the server in
    which it is undisturbed, it takes a bounded number of steps; it has raised, at any time, the
    first of the messages that are complete, each once and in order; and when it can take no further
    step and its client has sent everything, it has raised all of them and, if the stream has ended,
    come to its end.  In a stream that is not cut off all messages are complete. -/
theorem framing_exact {messages : List PipeMessage} {steps : List Step}
    (hshort : ∀ m ∈ messages, Short m) (hget : s.connections[i]? = some c)
    (hphase : c.phase = .header sessionId []) (hcloses : Closes c)
    (hsent : rest c <+: stream messages)
    (hg : EachStep step (fun s t _ => Undisturbed i s t) s steps)
    (hrun : run step s steps = some s') :
    ∃ c', s'.connections[i]? = some c' ∧ steps.countP (own i) ≤ remaining c ∧
      deliveries i s'.events <+:
        deliveries i s.events ++ arrivals sessionId messages (rest c).length ∧
      (c'.pieces = [] → handle s' i c' = none →
        deliveries i s'.events =
            deliveries i s.events ++ arrivals sessionId messages (rest c).length ∧
          (c'.closed = true → c'.phase = .ended)) ∧
      complete messages (stream messages).length = messages := by
  have hstart : Tracks i sessionId
      (deliveries i s.events ++ arrivals sessionId messages (rest c).length) (remaining c) 0 s := by
    refine ⟨c, hget, hcloses, ?_, Nat.le_of_eq (Nat.zero_add _)⟩
    simp only [Framed, hphase]
    refine ⟨trivial, by simp, messages, hshort, hsent, ?_⟩
    rw [List.length_nil, Nat.zero_add]
  obtain ⟨c', hget', hcloses', hframed, hspent⟩ := tracks_run hstart hg hrun
  refine ⟨c', hget', by omega, hframed.seen_prefix, ?_, complete_stream messages⟩
  exact fun hpieces hstuck => all_of_stuck hframed hpieces hstuck

/-! ## A stream that is cut off -/

def activity (messageId : String) : PipeMessage where
  type := .activity
  messageId
  createdUtc := .minValue
  sessionId := 1

/-- Two messages; the second one lacks its last byte. -/
def cutOff : Bytes := (stream [activity "a", activity "b"]).dropLast

/-- They arrive in two pieces, torn inside the first header, and the client closes. -/
def reading : State where
  connections := [{ pieces := [cutOff.take 2, cutOff.drop 2], phase := .header 1 [] }]

def readingSteps : List Step :=
  [.write 0, .handle 0, .write 0, .close 0, .handle 0, .handle 0, .handle 0, .handle 0, .handle 0,
    .handle 0]

/-- Of the two messages the first is raised. -/
theorem framing_exact_cutOff : ∃ s', run step reading readingSteps = some s' ∧
    deliveries 0 s'.events = [(1, (activity "a").received)] := by
  have hlast : ((run step reading readingSteps).map fun s' =>
      s'.connections.map fun c => (c.pieces, c.phase)) = some [([], .ended)] := by decide +kernel
  obtain ⟨s', hrun, hends⟩ := Option.map_eq_some_iff.mp hlast
  have hsent : rest { pieces := [cutOff.take 2, cutOff.drop 2], phase := .header 1 [] } <+:
      stream [activity "a", activity "b"] := by
    simp only [rest, List.nil_append, List.flatten_cons, List.flatten_nil, List.append_nil,
      List.take_append_drop]
    exact List.dropLast_prefix _
  have hget : reading.connections[0]? =
      some { pieces := [cutOff.take 2, cutOff.drop 2], phase := .header 1 [] } := rfl
  obtain ⟨c', hget', -, -, hstuck, -⟩ := framing_exact (by decide) hget rfl
    (fun hclosed => absurd hclosed Bool.false_ne_true) hsent (by decide +kernel) hrun
  have hc' := congrArg (·[0]?) hends
  simp only [List.getElem?_map, hget', Option.map_some] at hc'
  obtain ⟨hpieces, hended⟩ := Prod.mk.inj (Option.some.inj hc')
  refine ⟨s', hrun, (hstuck hpieces ?_).1⟩
  rw [handle, hended]

end Ipc.Framing
