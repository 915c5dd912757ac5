/-
  THE DASHBOARD'S SOCKET (client/src/services/socket.ts).

  Handlers are registered with the service, which puts them on the sockets that it creates.
  `connect` creates another one whenever the last is not connected (yet), and closes none; the
  callback of a socket that has connected puts the handlers on `this.socket`, which need not be that
  socket.

  1. **The sockets** (`Socket`): the listeners of each in the order in which they were added.  A
     listener can be on a socket twice, and `off` takes away one.

  2. `deliversOnce_iff`: whatever the network does next reaches each handler once, in every state of
     a run, exactly when no step of it `Breaks` this: a handler added again, or added while a socket
     that is not `this.socket` is connected, or such a socket connecting.
-/
import Mathlib.Data.List.Basic
import Vorsight.Library.Run

namespace Dashboard.SocketService

variable {H : Type}

/-- What a socket emits of itself. -/
def reserved : List String := ["connect", "disconnect", "connect_error"]

inductive Phase
  | connecting | connected | closed
deriving DecidableEq, Repr

/-- A socket of socket.io-client, without the listeners that the service itself has on it. -/
structure Socket (H : Type) where
  phase : Phase := .connecting
  listeners : List (String × H) := []

/-- The service and every socket created so far; `socket` is the place of `this.socket` among
    them. -/
structure State (H : Type) where
  sockets : List (Socket H) := []
  socket : Option Nat := none
  /-- the map of sets, as its pairs -/
  eventHandlers : List (String × H) := []

def State.phase (s : State H) (k : Nat) : Option Phase := s.sockets[k]?.map (·.phase)

def State.listeners (s : State H) (k : Nat) : List (String × H) :=
  (s.sockets[k]?.map (·.listeners)).getD []

def isConnected (s : State H) : Bool := s.socket.bind s.phase = some .connected

/-- `this.socket?.…` -/
def onCurrent (f : Socket H → Socket H) (s : State H) : State H :=
  match s.socket with
  | some k => { s with sockets := s.sockets.modify k f }
  | none => s

theorem phase_eq_some {s : State H} {k : Nat} {p : Phase} :
    s.phase k = some p ↔ ∃ c, s.sockets[k]? = some c ∧ c.phase = p :=
  Option.map_eq_some_iff

theorem current_eq_some {s : State H} {p : Phase} :
    s.socket.bind s.phase = some p ↔
      ∃ k c, s.socket = some k ∧ s.sockets[k]? = some c ∧ c.phase = p := by
  rw [Option.bind_eq_some_iff]
  constructor
  · rintro ⟨k, hk, hp⟩
    obtain ⟨c, hc, hp⟩ := phase_eq_some.mp hp
    exact ⟨k, c, hk, hc, hp⟩
  · rintro ⟨k, c, hk, hc, hp⟩
    exact ⟨k, hk, phase_eq_some.mpr ⟨c, hc, hp⟩⟩

/-- `isConnected` is about `this.socket`. -/
theorem isConnected_iff {s : State H} {k : Nat} {c : Socket H} (hk : s.socket = some k)
    (hc : s.sockets[k]? = some c) : isConnected s ↔ c.phase = .connected := by
  rw [isConnected, hk, decide_eq_true_iff, Option.bind_some, State.phase, hc]
  exact Option.some_inj

theorem listeners_eq {s : State H} {k : Nat} {c : Socket H} (hc : s.sockets[k]? = some c) :
    s.listeners k = c.listeners := by
  rw [State.listeners, hc]
  rfl

@[simp] theorem onCurrent_socket (f : Socket H → Socket H) (s : State H) :
    (onCurrent f s).socket = s.socket := by
  unfold onCurrent
  split <;> rfl

@[simp] theorem onCurrent_eventHandlers (f : Socket H → Socket H) (s : State H) :
    (onCurrent f s).eventHandlers = s.eventHandlers := by
  unfold onCurrent
  split <;> rfl

theorem getElem?_modify_eq_some {α : Type} {l : List α} {f : α → α} {j k : Nat} {y : α} :
    (l.modify j f)[k]? = some y ↔ ∃ x, l[k]? = some x ∧ y = if j = k then f x else x := by
  rw [List.getElem?_modify]
  cases l[k]? with
  | none => simp
  | some x => split <;> simp [*, eq_comm]

/-- `this.socket` alone is changed. -/
theorem sockets_onCurrent {f : Socket H → Socket H} {s : State H} {k : Nat} {c : Socket H} :
    (onCurrent f s).sockets[k]? = some c ↔
      ∃ c', s.sockets[k]? = some c' ∧ c = if s.socket = some k then f c' else c' := by
  unfold onCurrent
  cases hs : s.socket with
  | none => simp
  | some j => simp [getElem?_modify_eq_some]

/-! ## The operations -/

def connect (s : State H) : State H :=
  if isConnected s then s
  else { s with sockets := s.sockets ++ [{}], socket := some s.sockets.length }

/-- "Re-register all event handlers after reconnection" -/
def reRegister (s : State H) : State H :=
  onCurrent (fun c => { c with listeners := c.listeners ++ s.eventHandlers }) s

def setPhase (k : Nat) (phase : Phase) (s : State H) : State H :=
  { s with sockets := s.sockets.modify k fun c => { c with phase } }

@[simp] theorem setPhase_socket (k : Nat) (phase : Phase) (s : State H) :
    (setPhase k phase s).socket = s.socket := rfl

@[simp] theorem setPhase_eventHandlers (k : Nat) (phase : Phase) (s : State H) :
    (setPhase k phase s).eventHandlers = s.eventHandlers := rfl

/-- What the callback of a socket that has connected does. -/
theorem sockets_established {s : State H} {k j : Nat} {c : Socket H} :
    (reRegister (setPhase k .connected s)).sockets[j]? = some c ↔
      ∃ c', s.sockets[j]? = some c' ∧ c =
        { phase := if k = j then .connected else c'.phase
          listeners :=
            if s.socket = some j then c'.listeners ++ s.eventHandlers else c'.listeners } := by
  have hphase : ∀ c₁, (setPhase k .connected s).sockets[j]? = some c₁ ↔ ∃ c', s.sockets[j]? =
      some c' ∧ c₁ = if k = j then { c' with phase := .connected } else c' :=
    fun _ => getElem?_modify_eq_some
  rw [reRegister, sockets_onCurrent]
  constructor
  · rintro ⟨c₁, hc₁, rfl⟩
    obtain ⟨c', hc', rfl⟩ := (hphase c₁).mp hc₁
    refine ⟨c', hc', ?_⟩
    by_cases hkj : k = j <;> by_cases hcur : s.socket = some j <;> simp [hkj, hcur]
  · rintro ⟨c', hc', rfl⟩
    refine ⟨_, (hphase _).mpr ⟨c', hc', rfl⟩, ?_⟩
    by_cases hkj : k = j <;> by_cases hcur : s.socket = some j <;> simp [hkj, hcur]

def disconnect (s : State H) : State H :=
  { onCurrent (fun c => { c with phase := .closed }) s with socket := none }

variable [DecidableEq H]

def Socket.on (event : String) (handler : H) (c : Socket H) : Socket H :=
  { c with listeners := c.listeners ++ [(event, handler)] }

def Socket.off (event : String) (handler : H) (c : Socket H) : Socket H :=
  { c with listeners := c.listeners.erase (event, handler) }

def register (event : String) (handler : H) (s : State H) : State H :=
  if (event, handler) ∈ s.eventHandlers then s
  else { s with eventHandlers := s.eventHandlers ++ [(event, handler)] }

def on (event : String) (handler : H) (s : State H) : State H :=
  let s := register event handler s
  if isConnected s then onCurrent (·.on event handler) s else s

def off (event : String) (handler : H) (s : State H) : State H :=
  onCurrent (·.off event handler) { s with eventHandlers := s.eventHandlers.erase (event, handler) }

inductive Event (H : Type)
  | connect
  | disconnect
  | on (event : String) (handler : H)
  | off (event : String) (handler : H)
  /-- the socket has connected; it does so once, since reconnection is disabled -/
  | established (k : Nat)
  /-- the socket is disconnected, or could not connect -/
  | lost (k : Nat)
  | arrive (k : Nat) (event : String)

def step (s : State H) : Event H → Option (State H)
  | .connect => some (connect s)
  | .disconnect => some (disconnect s)
  | .on event handler => some (on event handler s)
  | .off event handler => some (off event handler s)
  | .established k =>
    if s.phase k = some .connecting then some (reRegister (setPhase k .connected s))
    else none
  | .lost k =>
    if s.phase k = some .connecting ∨ s.phase k = some .connected then some (setPhase k .closed s)
    else none
  | .arrive k event =>
    if s.phase k = some .connected ∧ event ∉ reserved then some s else none

/-! ## What is invoked -/

def handlersOf (event : String) (l : List (String × H)) : List H :=
  (l.filter (·.1 = event)).map (·.2)

/-- The handlers that are called, in order.  The listeners of a socket that has connected are those
    from before its callback: a socket emits to a copy of the list. -/
def invoked (s : State H) : Event H → List H
  | .established k => handlersOf "connect" s.eventHandlers ++ handlersOf "connect" (s.listeners k)
  | .arrive k event => handlersOf event (s.listeners k)
  | _ => []

def Event.emits : Event H → Option String
  | .established _ => some "connect"
  | .arrive _ event => some event
  | _ => none

/-- What is emitted calls each handler registered for it once, and no other. -/
def Delivers (s : State H) (e : Event H) : Prop :=
  ∀ event, e.emits = some event → ∀ handler,
    (invoked s e).count handler = if (event, handler) ∈ s.eventHandlers then 1 else 0

/-- Whatever is emitted next. -/
def DeliversOnce (s : State H) : Prop := ∀ e s', step s e = some s' → Delivers s e

/-! ## When it goes wrong -/

/-- A connected socket that is not `this.socket`. -/
def Orphan (s : State H) : Prop :=
  ∃ k c, s.sockets[k]? = some c ∧ c.phase = .connected ∧ s.socket ≠ some k

def Breaks (s : State H) : Event H → Prop
  | .on event handler => event ∉ reserved ∧
      (((event, handler) ∈ s.eventHandlers ∧ isConnected s) ∨
        ((event, handler) ∉ s.eventHandlers ∧ Orphan s))
  | .established k => s.socket ≠ some k ∧
      ((∃ event handler, event ∉ reserved ∧ (event, handler) ∈ s.eventHandlers) ∨
        (s.socket.bind s.phase = some .connecting ∧
          ∃ handler, ("connect", handler) ∈ s.eventHandlers))
  | _ => False

/-- What holds of a socket while nothing has gone wrong; `current` says whether it is
    `this.socket`. -/
structure Socket.Fits (registered : List (String × H)) (current : Prop) (c : Socket H) : Prop where
  fresh : c.phase = .connecting → ∀ event handler, event = "connect" ∨ event ∉ reserved →
    (event, handler) ∉ c.listeners
  attached : c.phase = .connected → ∀ event handler, event ∉ reserved →
    c.listeners.count (event, handler) = registered.count (event, handler)
  unused : c.phase = .connected → ¬ current → ∀ event handler, event ∉ reserved →
    (event, handler) ∉ registered

structure Inv (s : State H) : Prop where
  nodup : s.eventHandlers.Nodup
  fits (k : Nat) (c : Socket H) : s.sockets[k]? = some c →
    c.Fits s.eventHandlers (s.socket = some k)

/-! ## What is owed -/

theorem count_handlersOf (event : String) (handler : H) (l : List (String × H)) :
    (handlersOf event l).count handler = l.count (event, handler) := by
  unfold handlersOf
  induction l with
  | nil => rfl
  | cons p l ih =>
    obtain ⟨event', handler'⟩ := p
    by_cases he : event' = event
    · subst he
      rw [List.filter_cons_of_pos (by simp), List.map_cons, List.count_cons, List.count_cons, ih]
      simp
    · rw [List.filter_cons_of_neg (by simpa using he), List.count_cons, ih]
      simp [he]

/-- **What is owed**, socket by socket: each listener once on a connected socket, and none on one
    that is connecting, beside what the callback calls. -/
theorem deliversOnce_iff_count {s : State H} :
    DeliversOnce s ↔ ∀ (k : Nat) (c : Socket H), s.sockets[k]? = some c →
      (c.phase = .connected → ∀ event handler, event ∉ reserved →
        c.listeners.count (event, handler) = if (event, handler) ∈ s.eventHandlers then 1 else 0) ∧
      (c.phase = .connecting → ∀ handler,
        s.eventHandlers.count ("connect", handler) + c.listeners.count ("connect", handler) =
          if ("connect", handler) ∈ s.eventHandlers then 1 else 0) := by
  constructor
  · intro h k c hc
    refine ⟨fun hphase event handler hevent => ?_, fun hphase handler => ?_⟩
    · have hstep : step s (.arrive k event) = some s :=
        if_pos ⟨phase_eq_some.mpr ⟨c, hc, hphase⟩, hevent⟩
      have hcount := h _ _ hstep event rfl handler
      rwa [invoked, count_handlersOf, listeners_eq hc] at hcount
    · have hstep : step s (.established k) = some (reRegister (setPhase k .connected s)) :=
        if_pos (phase_eq_some.mpr ⟨c, hc, hphase⟩)
      have hcount := h _ _ hstep "connect" rfl handler
      rwa [invoked, List.count_append, count_handlersOf, count_handlersOf, listeners_eq hc]
        at hcount
  · intro h e s' hstep event hemits handler
    cases e with
    | established k =>
      cases hemits
      obtain ⟨c, hc, hphase⟩ := phase_eq_some.mp (Option.ite_none_right_eq_some.mp hstep).1
      rw [invoked, List.count_append, count_handlersOf, count_handlersOf, listeners_eq hc]
      exact (h k c hc).2 hphase handler
    | arrive k event' =>
      cases hemits
      obtain ⟨hphase, hevent⟩ := (Option.ite_none_right_eq_some.mp hstep).1
      obtain ⟨c, hc, hphase⟩ := phase_eq_some.mp hphase
      rw [invoked, count_handlersOf, listeners_eq hc]
      exact (h k c hc).1 hphase event handler hevent
    | connect => cases hemits
    | disconnect => cases hemits
    | on event' handler' => cases hemits
    | off event' handler' => cases hemits
    | lost k => cases hemits

/-- The invariant gives what is owed. -/
theorem Inv.deliversOnce {s : State H} (hi : Inv s) : DeliversOnce s := by
  rw [deliversOnce_iff_count]
  intro k c hc
  have hfits := hi.fits k c hc
  refine ⟨fun hphase event handler hevent => ?_, fun hphase handler => ?_⟩
  · rw [hfits.attached hphase event handler hevent]
    exact hi.nodup.count
  · have hnone := hfits.fresh hphase "connect" handler (.inl rfl)
    rw [List.count_eq_zero_of_not_mem hnone, Nat.add_zero]
    exact hi.nodup.count

/-! ## One socket -/

section Socket

variable {registered : List (String × H)} {current : Prop} {c : Socket H} {event : String}
  {handler : H}

theorem count_concat_of_ne {l : List (String × H)} {event' : String} {handler' : H}
    (he : event ≠ event') :
    (l ++ [(event, handler)]).count (event', handler') = l.count (event', handler') := by
  rw [List.count_append, List.count_singleton]
  simp [he]

/-- Names of the socket's own are not counted. -/
theorem Socket.Fits.register_reserved (h : c.Fits registered current) (hr : event ∈ reserved) :
    c.Fits (registered ++ [(event, handler)]) current where
  fresh := h.fresh
  attached hphase event' handler' hevent := by
    have hne : event ≠ event' := fun he => hevent (he ▸ hr)
    rw [count_concat_of_ne hne]
    exact h.attached hphase event' handler' hevent
  unused hphase hcur event' handler' hevent hmem := by
    rcases List.mem_append.mp hmem with hmem | hmem
    · exact h.unused hphase hcur event' handler' hevent hmem
    · cases List.mem_singleton.mp hmem
      exact hevent hr

theorem Socket.Fits.on_reserved (h : c.Fits registered current) (hphase : c.phase = .connected)
    (hr : event ∈ reserved) : (c.on event handler).Fits registered current where
  fresh hconnecting := by cases hphase.symm.trans hconnecting
  attached _ event' handler' hevent := by
    have hne : event ≠ event' := fun he => hevent (he ▸ hr)
    show (c.listeners ++ [(event, handler)]).count (event', handler') = _
    rw [count_concat_of_ne hne]
    exact h.attached hphase event' handler' hevent
  unused := h.unused

/-- A handler put on `this.socket` as it is registered. -/
theorem Socket.Fits.register_on (h : c.Fits registered current) (hphase : c.phase = .connected)
    (hcur : current) : (c.on event handler).Fits (registered ++ [(event, handler)]) current where
  fresh hconnecting := by cases hphase.symm.trans hconnecting
  attached _ event' handler' hevent := by
    show (c.listeners ++ [(event, handler)]).count (event', handler') = _
    rw [List.count_append, List.count_append, h.attached hphase event' handler' hevent]
  unused _ hnot := absurd hcur hnot

/-- A socket that is not connected does not care what is registered. -/
theorem Socket.Fits.of_not_connected {registered' : List (String × H)} {current' : Prop}
    (h : c.Fits registered current) (hphase : c.phase ≠ .connected) :
    c.Fits registered' current' where
  fresh := h.fresh
  attached hconnected := absurd hconnected hphase
  unused hconnected := absurd hconnected hphase

theorem fits_of_closed (hphase : c.phase = .closed) : c.Fits registered current where
  fresh h := by cases hphase.symm.trans h
  attached h := by cases hphase.symm.trans h
  unused h := by cases hphase.symm.trans h

theorem Socket.Fits.off (h : c.Fits registered current) :
    (c.off event handler).Fits (registered.erase (event, handler)) current where
  fresh hphase event' handler' hevent hmem :=
    h.fresh hphase event' handler' hevent (List.mem_of_mem_erase hmem)
  attached hphase event' handler' hevent := by
    show (c.listeners.erase (event, handler)).count (event', handler') = _
    rw [List.count_erase, List.count_erase, h.attached hphase event' handler' hevent]
  unused hphase hcur event' handler' hevent hmem :=
    h.unused hphase hcur event' handler' hevent (List.mem_of_mem_erase hmem)

/-- Taken away from another socket: there was nothing on this one. -/
theorem Socket.Fits.unregister (h : c.Fits registered current) (hcur : ¬ current) :
    c.Fits (registered.erase (event, handler)) current where
  fresh := h.fresh
  attached hphase event' handler' hevent := by
    have hnone := h.unused hphase hcur event' handler' hevent
    rw [h.attached hphase event' handler' hevent, List.count_eq_zero_of_not_mem hnone]
    exact (List.count_eq_zero_of_not_mem fun hmem => hnone (List.mem_of_mem_erase hmem)).symm
  unused hphase hcur event' handler' hevent hmem :=
    h.unused hphase hcur event' handler' hevent (List.mem_of_mem_erase hmem)

/-- `this.socket` has connected, and gets every handler. -/
theorem Socket.Fits.connected (h : c.Fits registered current) (hphase : c.phase = .connecting)
    (hcur : current) :
    Socket.Fits registered current ⟨.connected, c.listeners ++ registered⟩ where
  fresh hconnecting := by cases hconnecting
  attached _ event handler hevent := by
    have hnone := h.fresh hphase event handler (.inr hevent)
    show (c.listeners ++ registered).count (event, handler) = _
    rw [List.count_append, List.count_eq_zero_of_not_mem hnone, Nat.zero_add]
  unused _ hnot := absurd hcur hnot

/-- Another socket has connected: it gets no handler, and there is none for what it receives. -/
theorem Socket.Fits.orphaned (h : c.Fits registered current) (hphase : c.phase = .connecting)
    (hserver : ∀ event handler, event ∉ reserved → (event, handler) ∉ registered) :
    Socket.Fits registered current ⟨.connected, c.listeners⟩ where
  fresh hconnecting := by cases hconnecting
  attached _ event handler hevent := by
    have hnone := h.fresh hphase event handler (.inr hevent)
    show c.listeners.count (event, handler) = _
    rw [List.count_eq_zero_of_not_mem hnone,
      List.count_eq_zero_of_not_mem (hserver event handler hevent)]
  unused _ _ := hserver

/-- `this.socket` gets the handlers from the callback of another socket. -/
theorem Socket.Fits.again (h : c.Fits registered current) (hcur : current)
    (hserver : ∀ event handler, event ∉ reserved → (event, handler) ∉ registered)
    (hconnect : c.phase = .connecting → ∀ handler, ("connect", handler) ∉ registered) :
    Socket.Fits registered current ⟨c.phase, c.listeners ++ registered⟩ where
  fresh hphase event handler hevent hmem := by
    rcases List.mem_append.mp hmem with hmem | hmem
    · exact h.fresh hphase event handler hevent hmem
    · rcases hevent with rfl | hevent
      · exact hconnect hphase handler hmem
      · exact hserver event handler hevent hmem
  attached hphase event handler hevent := by
    show (c.listeners ++ registered).count (event, handler) = _
    rw [List.count_append, h.attached hphase event handler hevent,
      List.count_eq_zero_of_not_mem (hserver event handler hevent)]
  unused _ hnot := absurd hcur hnot

end Socket

/-! ## One step -/

variable {s : State H} {event : String} {handler : H} {k : Nat}

theorem inv_connect (hi : Inv s) : Inv (connect s) := by
  unfold connect
  split
  · exact hi
  · rename_i hoff
    refine ⟨hi.nodup, fun j c hc => ?_⟩
    rcases Nat.lt_or_ge j s.sockets.length with hj | hj
    · rw [List.getElem?_append_left hj] at hc
      have hfits := hi.fits j c hc
      refine ⟨hfits.fresh, hfits.attached, fun hphase _ => hfits.unused hphase fun hcur => ?_⟩
      exact hoff ((isConnected_iff hcur hc).mpr hphase)
    · rw [List.getElem?_append_right hj] at hc
      obtain rfl := List.mem_singleton.mp (List.mem_of_getElem? hc)
      refine ⟨fun _ _ _ _ hmem => ?_, fun hphase => ?_, fun hphase => ?_⟩
      · cases hmem
      · cases hphase
      · cases hphase

theorem inv_disconnect (hi : Inv s) : Inv (disconnect s) := by
  refine ⟨by simpa [disconnect] using hi.nodup, fun j c' hc' => ?_⟩
  obtain ⟨c, hc, rfl⟩ := sockets_onCurrent.mp hc'
  split
  · exact fits_of_closed rfl
  · rename_i hcur
    have hfits := hi.fits j c hc
    refine ⟨hfits.fresh, fun hphase => ?_, fun hphase _ => ?_⟩
    · simpa [disconnect] using hfits.attached hphase
    · simpa [disconnect] using hfits.unused hphase hcur

theorem inv_off (hi : Inv s) : Inv (off event handler s) := by
  refine ⟨by simpa [off] using hi.nodup.erase _, fun j c' hc' => ?_⟩
  obtain ⟨c, hc, rfl⟩ := sockets_onCurrent.mp hc'
  have hfits := hi.fits j c hc
  simp only [off, onCurrent_socket, onCurrent_eventHandlers]
  split
  · exact hfits.off
  · rename_i hcur
    exact hfits.unregister hcur

theorem inv_setPhase_closed (hi : Inv s) : Inv (setPhase k .closed s) := by
  refine ⟨hi.nodup, fun j c' hc' => ?_⟩
  obtain ⟨c, hc, rfl⟩ := getElem?_modify_eq_some.mp hc'
  split
  · exact fits_of_closed rfl
  · exact hi.fits j c hc

theorem on_eq : on event handler s =
    if isConnected s then onCurrent (·.on event handler) (register event handler s)
    else register event handler s := by
  have hsame : isConnected (register event handler s) = isConnected s := by
    unfold register
    split <;> rfl
  rw [on, hsame]

/-- A handler that is registered already: only for a name of the socket's own may a connected socket
    get it again. -/
theorem inv_on_of_mem (hi : Inv s) (hg : ¬ Breaks s (.on event handler))
    (hmem : (event, handler) ∈ s.eventHandlers) : Inv (on event handler s) := by
  rw [on_eq, register, if_pos hmem]
  by_cases hon : isConnected s
  · rw [if_pos hon]
    have hr : event ∈ reserved := by
      by_contra hevent
      exact hg ⟨hevent, .inl ⟨hmem, hon⟩⟩
    refine ⟨by simpa using hi.nodup, fun j c' hc' => ?_⟩
    obtain ⟨c, hc, rfl⟩ := sockets_onCurrent.mp hc'
    have hfits := hi.fits j c hc
    rw [onCurrent_socket, onCurrent_eventHandlers]
    split
    · rename_i hcur
      exact hfits.on_reserved ((isConnected_iff hcur hc).mp hon) hr
    · exact hfits
  · rw [if_neg hon]
    exact hi

/-- A new handler, put on `this.socket` where that is connected. -/
theorem inv_on_of_not_mem (hi : Inv s) (hg : ¬ Breaks s (.on event handler))
    (hmem : (event, handler) ∉ s.eventHandlers) : Inv (on event handler s) := by
  have hnodup : (s.eventHandlers ++ [(event, handler)]).Nodup := by
    rw [List.nodup_append]
    refine ⟨hi.nodup, List.pairwise_singleton _ _, fun p hp q hq => ?_⟩
    rw [List.mem_singleton.mp hq]
    rintro rfl
    exact hmem hp
  have hother : ∀ j c, s.sockets[j]? = some c → (c.phase = .connected → s.socket ≠ some j) →
      c.Fits (s.eventHandlers ++ [(event, handler)]) (s.socket = some j) := by
    intro j c hc hcur
    by_cases hphase : c.phase = .connected
    · have hr : event ∈ reserved := by
        by_contra hevent
        exact hg ⟨hevent, .inr ⟨hmem, j, c, hc, hphase, hcur hphase⟩⟩
      exact (hi.fits j c hc).register_reserved hr
    · exact (hi.fits j c hc).of_not_connected hphase
  rw [on_eq, register, if_neg hmem]
  by_cases hon : isConnected s
  · rw [if_pos hon]
    refine ⟨by simpa using hnodup, fun j c' hc' => ?_⟩
    obtain ⟨c, hc, rfl⟩ := sockets_onCurrent.mp hc'
    rw [onCurrent_socket, onCurrent_eventHandlers]
    split
    · rename_i hcur
      exact (hi.fits j c hc).register_on ((isConnected_iff hcur hc).mp hon) hcur
    · rename_i hcur
      exact hother j c hc fun _ => hcur
  · rw [if_neg hon]
    refine ⟨hnodup, fun j c hc => hother j c hc fun hphase hcur => ?_⟩
    exact hon ((isConnected_iff hcur hc).mpr hphase)

theorem inv_established (hi : Inv s) (hg : ¬ Breaks s (.established k))
    (hk : s.phase k = some .connecting) : Inv (reRegister (setPhase k .connected s)) := by
  have hserver : s.socket ≠ some k → ∀ event handler, event ∉ reserved →
      (event, handler) ∉ s.eventHandlers :=
    fun hcur event handler hevent hmem => hg ⟨hcur, .inl ⟨event, handler, hevent, hmem⟩⟩
  refine ⟨by simpa [reRegister, setPhase] using hi.nodup, fun j c' hc' => ?_⟩
  obtain ⟨c, hc, rfl⟩ := sockets_established.mp hc'
  have hfits := hi.fits j c hc
  simp only [reRegister, onCurrent_socket, onCurrent_eventHandlers, setPhase]
  by_cases hkj : k = j
  · subst hkj
    obtain ⟨d, hd, hphase⟩ := phase_eq_some.mp hk
    cases hc.symm.trans hd
    rw [if_pos rfl]
    by_cases hcur : s.socket = some k
    · rw [if_pos hcur]
      exact hfits.connected hphase hcur
    · rw [if_neg hcur]
      exact hfits.orphaned hphase (hserver hcur)
  · rw [if_neg hkj]
    by_cases hcur : s.socket = some j
    · rw [if_pos hcur]
      have hne : s.socket ≠ some k := by
        rw [hcur]
        intro h
        exact hkj (Option.some.inj h).symm
      refine hfits.again hcur (hserver hne) fun hphase handler hmem => ?_
      have hconnecting := current_eq_some.mpr ⟨j, c, hcur, hc, hphase⟩
      exact hg ⟨hne, .inr ⟨hconnecting, handler, hmem⟩⟩
    · rw [if_neg hcur]
      exact hfits

/-- Every step that breaks nothing keeps the invariant. -/
theorem inv_step {s' : State H} {e : Event H} (hi : Inv s) (hg : ¬ Breaks s e)
    (hs : step s e = some s') : Inv s' := by
  cases e with
  | connect =>
    cases hs
    exact inv_connect hi
  | disconnect =>
    cases hs
    exact inv_disconnect hi
  | on event handler =>
    cases hs
    by_cases hmem : (event, handler) ∈ s.eventHandlers
    · exact inv_on_of_mem hi hg hmem
    · exact inv_on_of_not_mem hi hg hmem
  | off event handler =>
    cases hs
    exact inv_off hi
  | established k =>
    obtain ⟨hk, hs⟩ := Option.ite_none_right_eq_some.mp hs
    cases hs
    exact inv_established hi hg hk
  | lost k =>
    obtain ⟨-, hs⟩ := Option.ite_none_right_eq_some.mp hs
    cases hs
    exact inv_setPhase_closed hi
  | arrive k event =>
    obtain ⟨-, hs⟩ := Option.ite_none_right_eq_some.mp hs
    cases hs
    exact hi

/-! ## A step that breaks it -/

/-- The handler is on `this.socket` twice. -/
theorem not_deliversOnce_on_again (hi : Inv s) (hevent : event ∉ reserved)
    (hmem : (event, handler) ∈ s.eventHandlers) (hon : isConnected s) :
    ¬ DeliversOnce (on event handler s) := by
  intro h
  rw [on_eq, if_pos hon, register, if_pos hmem] at h
  obtain ⟨k, c, hk, hc, hphase⟩ := current_eq_some.mp (decide_eq_true_iff.mp hon)
  have hsocket : (onCurrent (·.on event handler) s).sockets[k]? = some (c.on event handler) :=
    sockets_onCurrent.mpr ⟨c, hc, (if_pos hk).symm⟩
  have htwice := (deliversOnce_iff_count.mp h k _ hsocket).1 hphase event handler hevent
  have hcount : (c.on event handler).listeners.count (event, handler) = 2 := by
    show (c.listeners ++ [(event, handler)]).count (event, handler) = 2
    rw [List.count_append, (hi.fits k c hc).attached hphase event handler hevent, hi.nodup.count,
      if_pos hmem, List.count_singleton_self]
  rw [hcount] at htwice
  split at htwice <;> cases htwice

/-- A connected socket that is not `this.socket` does not have the new handler. -/
theorem not_deliversOnce_on_orphan (hi : Inv s) (hevent : event ∉ reserved)
    (hmem : (event, handler) ∉ s.eventHandlers) (horphan : Orphan s) :
    ¬ DeliversOnce (on event handler s) := by
  intro h
  obtain ⟨k, c, hc, hphase, hcur⟩ := horphan
  have hsocket : (on event handler s).sockets[k]? = some c := by
    rw [on_eq, register, if_neg hmem]
    split
    · exact sockets_onCurrent.mpr ⟨c, hc, (if_neg hcur).symm⟩
    · exact hc
  have hregistered : (event, handler) ∈ (on event handler s).eventHandlers := by
    rw [on_eq, register, if_neg hmem]
    split <;> simp
  have honce := (deliversOnce_iff_count.mp h k c hsocket).1 hphase event handler hevent
  rw [if_pos hregistered, (hi.fits k c hc).attached hphase event handler hevent,
    List.count_eq_zero_of_not_mem hmem] at honce
  cases honce

/-- A socket that has connected, and is not `this.socket`, has no handler for what it receives. -/
theorem not_deliversOnce_established (hi : Inv s) (hk : s.phase k = some .connecting)
    (hcur : s.socket ≠ some k) (hevent : event ∉ reserved)
    (hmem : (event, handler) ∈ s.eventHandlers) :
    ¬ DeliversOnce (reRegister (setPhase k .connected s)) := by
  intro h
  obtain ⟨c, hc, hphase⟩ := phase_eq_some.mp hk
  have hsocket : (reRegister (setPhase k .connected s)).sockets[k]? =
      some { c with phase := .connected } :=
    sockets_established.mpr ⟨c, hc, by rw [if_pos rfl, if_neg hcur]⟩
  have honce := (deliversOnce_iff_count.mp h k _ hsocket).1 rfl event handler hevent
  have hnone := (hi.fits k c hc).fresh hphase event handler (.inr hevent)
  rw [List.count_eq_zero_of_not_mem hnone, reRegister, onCurrent_eventHandlers,
    setPhase_eventHandlers, if_pos hmem] at honce
  cases honce

/-- `this.socket` has been given the handlers of 'connect' before it has connected itself, so that
    they will be called from the callback and as listeners. -/
theorem not_deliversOnce_early (hcur : s.socket ≠ some k)
    (hconnecting : s.socket.bind s.phase = some .connecting)
    (hmem : ("connect", handler) ∈ s.eventHandlers) :
    ¬ DeliversOnce (reRegister (setPhase k .connected s)) := by
  intro h
  obtain ⟨j, c, hj, hc, hphase⟩ := current_eq_some.mp hconnecting
  have hne : k ≠ j := by
    rintro rfl
    exact hcur hj
  have hsocket : (reRegister (setPhase k .connected s)).sockets[j]? =
      some { c with listeners := c.listeners ++ s.eventHandlers } :=
    sockets_established.mpr ⟨c, hc, by rw [if_neg hne, if_pos hj]⟩
  have honce := (deliversOnce_iff_count.mp h j _ hsocket).2 hphase handler
  have hpos : 0 < s.eventHandlers.count ("connect", handler) := List.count_pos_iff.mpr hmem
  rw [reRegister, onCurrent_eventHandlers, setPhase_eventHandlers, if_pos hmem, List.count_append]
    at honce
  omega

theorem not_deliversOnce_of_breaks {s' : State H} {e : Event H} (hi : Inv s) (hb : Breaks s e)
    (hs : step s e = some s') : ¬ DeliversOnce s' := by
  cases e with
  | on event handler =>
    cases hs
    obtain ⟨hevent, ⟨hmem, hon⟩ | ⟨hmem, horphan⟩⟩ := hb
    · exact not_deliversOnce_on_again hi hevent hmem hon
    · exact not_deliversOnce_on_orphan hi hevent hmem horphan
  | established k =>
    obtain ⟨hk, hs⟩ := Option.ite_none_right_eq_some.mp hs
    cases hs
    obtain ⟨hcur, ⟨event, handler, hevent, hmem⟩ | ⟨hconnecting, handler, hmem⟩⟩ := hb
    · exact not_deliversOnce_established hi hk hcur hevent hmem
    · exact not_deliversOnce_early hcur hconnecting hmem
  | connect => cases hb
  | disconnect => cases hb
  | off event handler => cases hb
  | lost k => cases hb
  | arrive k event => cases hb

theorem inv_init : Inv ({} : State H) := by
  refine ⟨List.nodup_nil, fun k c hc => ?_⟩
  cases hc

/-- **Whatever is emitted next reaches each handler once**, in every state of a run, exactly when no
    step of the run breaks this. -/
theorem deliversOnce_iff (events : List (Event H)) :
    Runs.EachState step DeliversOnce {} events ↔
      Runs.EachStep step (fun s e _ => ¬ Breaks s e) {} events :=
  Runs.eachState_iff (fun _ _ _ hi hg hs => inv_step hi hg hs) (fun _ hi => hi.deliversOnce)
    (fun _ _ _ hi hb hs => not_deliversOnce_of_breaks hi (not_not.mp hb) hs) inv_init

/-- In particular what is emitted in a run whose steps break nothing. -/
theorem delivers_of_run {events : List (Event H)}
    (hg : Runs.EachStep step (fun s e _ => ¬ Breaks s e) {} events) :
    Runs.EachStep step (fun s e _ => Delivers s e) {} events := by
  refine Runs.eachStep_of_guard (fun _ _ _ hi hg hs => inv_step hi hg hs) ?_ inv_init hg
  exact fun s e s' hi _ hs => hi.deliversOnce e s' hs

/-- The page connects a second time while the first socket is still connecting: its callback puts
    the handler on the second socket, and that one's callback puts it there again. -/
theorem not_delivers_twoConnects : ¬ ∀ events : List (Event Nat),
    Runs.EachStep step (fun s e _ => Delivers s e) {} events := by
  intro h
  obtain ⟨-, hsteps⟩ := h [.on "machines:list" 0, .connect, .connect, .established 0,
    .established 1, .arrive 1 "machines:list"] _ rfl
  obtain ⟨-, hsteps⟩ := hsteps _ rfl
  obtain ⟨-, hsteps⟩ := hsteps _ rfl
  obtain ⟨-, hsteps⟩ := hsteps _ rfl
  obtain ⟨-, hsteps⟩ := hsteps _ rfl
  obtain ⟨hdelivers, -⟩ := hsteps _ rfl
  have htwice := hdelivers "machines:list" rfl 0
  exact absurd htwice (by decide)

end Dashboard.SocketService
