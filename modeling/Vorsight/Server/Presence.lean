/-
  PRESENCE: who is online, by the log of connections and by the notices.

  `machine:connect` marks its socket with the machine's id and then logs `Connected`; the handler of
  a disconnect logs `Disconnected` and announces `machine:offline` for the id its own socket is
  marked with.  Neither looks at other sockets.

  1. **System** — any number of sockets that open, send `machine:connect` and close; the handlers
     interleave at each step.  `Phase` says how far each has come; no step depends on it.

  2. **Condition** (`Harmless`) — what must not come between: credentials are taken on an open
     socket that has no other id, and not between the log entry and the notice of a disconnect of
     that machine; an entry is made only while it is, or is about to be, the last word.

  3. **Two bridges** (`Inv`) — a machine with an open socket is logged as connected, or that entry
     is still to come; one that is logged as connected has an open socket, or an entry is to come.

  4. **Truthful** (`truthful_of_harmless`) — in a run that meets the condition every notice is
     true, and the log is right whenever no handler is outstanding.
-/
import Vorsight.Server.Channels

namespace Server.Presence

open Js Tables Tasks

section Presence

variable [Runtime]

/-! ## The system -/

/-- What a handler runs for. -/
inductive Origin
  | connect (socket : String) (data : Value)
  | disconnect (socket : String)

def handler : Origin → Task Store Unit
  | .connect socket data => machineConnect socket data
  | .disconnect socket => Server.disconnect socket

/-- The machine id of a message whose credentials are found in the table. -/
def verified (data : Value) (db : Database) : Option Value := do
  let machineId ← prop data "machineId"
  let apiKey ← prop data "apiKey"
  if !truthy machineId || !truthy apiKey then none
  else
    let idFilter ← textFilter machineId
    let keyFilter ← textFilter apiKey
    let _ ← db.machines.rows.find? fun m => idFilter m.id && keyFilter m.apiKey
    pure machineId

/-- How far a handler has come. -/
inductive Phase
  | arriving (socket : String) (data : Value)
  | accepting (socket : String) (machineId : Value)
  | looking (machine : String)
  | updating (machine : String)
  | logging (machine : String)
  | closing (socket : String)
  | closed (socket : String)
  | leaving (machine : String)
  | announcing (machine : String)
  | resting

/-- Where a handler starts. -/
def Origin.phase : Origin → Phase
  | .connect socket data => .arriving socket data
  | .disconnect socket => .closing socket

/-- The machine id a socket is marked with. -/
def marked (s : Store) (socket : String) : Value := (s.sockets.find socket).bind (·.machineId)

/-- The phase after a step in `s`. -/
def Phase.next (s : Store) : Phase → Phase
  | .arriving socket data =>
    match verified data s.db with
    | some machineId => .accepting socket machineId
    | none => .resting
  | .accepting _ machineId => match requiredText machineId with
    | some machine => .looking machine
    | none => .resting
  | .looking machine => .updating machine
  | .updating machine => .logging machine
  | .logging _ => .resting
  | .closing socket => .closed socket
  | .closed socket => match marked s socket with
    | some (.str machine) => if machine = "" then .resting else .leaving machine
    | _ => .resting
  | .leaving machine => .announcing machine
  | .announcing _ => .resting
  | .resting => .resting

/-- The server with its handlers, and how far each of them has come. -/
structure State where
  pool : Pool Origin Store
  phases : List Phase

def State.spawn (s : State) (w : Origin) : State where
  pool := { s.pool with tasks := s.pool.tasks ++ [(w, handler w)] }
  phases := s.phases ++ [w.phase]

inductive Turn
  | open (socket address : String)
  | send (socket : String) (data : Value)
  | close (socket : String)
  | advance (i : Nat)
  | tick (now : DateTime)

/-- The socket is open. -/
def isOpen (s : Store) (socket : String) : Bool := (s.sockets.find socket).any (·.connected)

/-- A socket opens, an open socket sends credentials or closes, a handler takes its next step, or
    time goes on.  No operation fails. -/
def step (s : State) : Turn → Option State
  | .open id address =>
    (s.pool.store.sockets.create { id, address }).map fun sockets =>
      { s with pool := { s.pool with store := { s.pool.store with sockets } } }
  | .send socket data =>
    if isOpen s.pool.store socket then some (s.spawn (.connect socket data)) else none
  | .close socket =>
    if isOpen s.pool.store socket then some (s.spawn (.disconnect socket)) else none
  | .advance i =>
    (s.pool.step handler (fun now t => { t with now }) (.advance i : Label Origin DateTime)).map
      fun pool => { pool, phases := s.phases.modify i (·.next s.pool.store) }
  | .tick now => some { s with pool := { s.pool with store := { s.pool.store with now } } }

/-- The server at its start: no socket, no handler. -/
def initial (db : Database) (now : DateTime) : State where
  pool := { store := { db, now, sockets := .empty }, tasks := [] }
  phases := []

/-! ## What is to be true -/

/-- An authenticated socket of the machine is open. -/
def Open (s : Store) (machine : String) : Prop :=
  ∃ k ∈ s.sockets.rows, k.connected = true ∧ k.machineId = some (.str machine)

/-- The last entry of a machine in the log of connections. -/
def lastEvent (db : Database) (machine : String) : Option String :=
  ((db.connectionEvents.rows.filter fun e => e.machineId = machine &&
    (e.eventType = "Connected" || e.eventType = "Disconnected")).getLast?).map (·.eventType)

/-- The machine has authenticated. -/
def Authenticated (s : Store) (machine : String) : Prop :=
  ∃ c ∈ s.connects, c.machineId = some (.str machine)

/-- No handler is outstanding. -/
def Settled (s : State) : Prop := ∀ t ∈ s.pool.tasks, ¬ t.2.Live

instance (s : State) : Decidable (Settled s) := inferInstanceAs (Decidable (∀ _ ∈ _, _))

/-- What a step announces is true. -/
def Notices (s s' : State) : Prop :=
  ∀ e ∈ s'.pool.store.emitted.drop s.pool.store.emitted.length, ∀ machine now,
    e.event = .machineOffline machine now → ¬ Open s.pool.store machine

/-- When no handler is outstanding, the log says who is online. -/
def Truthful (s : State) : Prop :=
  Settled s → ∀ machine, Authenticated s.pool.store machine →
    (lastEvent s.pool.store.db machine = some "Connected" ↔ Open s.pool.store machine)

/-! ## The condition -/

/-- The handler has yet to log `Connected` for the machine. -/
def Phase.Connects (machine : String) : Phase → Prop
  | .looking m => m = machine
  | .updating m => m = machine
  | .logging m => m = machine
  | _ => False

/-- The handler has yet to log `Disconnected` for the machine. -/
def Phase.Disconnects (s : Store) (machine : String) : Phase → Prop
  | .closed socket => marked s socket = some (.str machine)
  | .leaving m => m = machine
  | _ => False

/-- What must hold when a handler takes its step.  It accepts credentials on a socket that is open
    and not marked with the id of another machine, while no disconnect of the machine is about to
    be announced.  It logs `Connected` while the machine has an open socket, or `Disconnected` is
    still to come, and `Disconnected` while the machine has no open socket. -/
def Phase.Meets (s : Store) (phases : List Phase) : Phase → Prop
  | .accepting socket machineId =>
    isOpen s socket = true ∧
      (∀ machine, marked s socket = some (.str machine) → machineId = some (.str machine)) ∧
      ∀ machine, machineId = some (.str machine) → .announcing machine ∉ phases
  | .logging machine => Open s machine ∨ ∃ a ∈ phases, a.Disconnects s machine
  | .leaving machine => ¬ Open s machine
  | _ => True

def Harmless (s : State) : Turn → Prop
  | .advance i => ∀ a, s.phases[i]? = some a → a.Meets s.pool.store s.phases
  | _ => True

/-! ## The protocol of a handler -/

/-- The handler neither marks, closes, logs nor announces. -/
def Phase.still : Phase → Bool
  | .arriving .. | .looking _ | .updating _ | .closed _ | .resting => true
  | _ => false

/-- Sockets, log and accepted credentials are as before, and no machine comes or goes. -/
structure Same (s s' : Store) : Prop where
  sockets : s'.sockets = s.sockets
  events : s'.db.connectionEvents = s.db.connectionEvents
  connects : s'.connects = s.connects
  names : s'.db.machines.rows.map Machine.id = s.db.machines.rows.map Machine.id

/-- Nothing is announced. -/
def Quiet (s s' : Store) : Prop :=
  ∃ es, s'.emitted = s.emitted ++ es ∧ ∀ e ∈ es, ∀ machine now,
    e.event ≠ .machineOffline machine now

def entry (machine eventType : String) (now : DateTime) : ConnectionEvent where
  id := 0
  machineId := machine
  eventType := eventType
  timestamp := now

/-- What a handler does in a phase. -/
inductive Does (s s' : Store) : Phase → Prop
  | still {a : Phase} (ha : a.still = true) (hsame : Same s s') (hquiet : Quiet s s') : Does s s' a
  | accept {socket : String} {machineId apiKey : Value}
      (h : ((accept socket machineId apiKey).exec s).1 = s') :
      Does s s' (.accepting socket machineId)
  | connected {machine : String} {db : Database} (h : s' = { s with db })
      (hentry : s.db.createConnectionEvent machine (entry machine "Connected" s.now) = some db) :
      Does s s' (.logging machine)
  | close {socket : String}
      (h : s' = s.updateSocket socket (fun k => { k with connected := false }) fun _ => rfl) :
      Does s s' (.closing socket)
  | disconnected {machine : String} {db : Database} (h : s' = { s with db })
      (hentry : s.db.createConnectionEvent machine (entry machine "Disconnected" s.now) = some db) :
      Does s s' (.leaving machine)
  | announce {machine : String} (h : s' = s.emit .everyone (.machineOffline machine s.now)) :
      Does s s' (.announcing machine)

/-- One step of a handler. -/
def Takes (a : Phase) (s s' : Store) (b : Phase) : Prop := b = a.next s ∧ Does s s' a

/-- The machines are those with the given ids, and sockets are marked with those only. -/
structure Marked (ids : List String) (s : Store) : Prop where
  names : s.db.machines.rows.map Machine.id = ids
  marks : ∀ k ∈ s.sockets.rows, ∀ machine, k.machineId = some (.str machine) →
    machine ≠ "" ∧ machine ∈ ids

/-- The task follows the protocol from a phase on, and ends in phase `resting`. -/
abbrev Obeys {α : Type} (ids : List String) (P : α → Phase → Prop) (F : Phase → Prop)
    (p : Task Store α) (a : Phase) : Prop :=
  p.Follows (Marked ids) Takes P F a

variable {ids : List String} {α : Type} {a : Phase} {s s' : Store} {socket machine : String}

omit [Runtime] in
theorem Same.refl (s : Store) : Same s s := ⟨rfl, rfl, rfl, rfl⟩

omit [Runtime] in
theorem Quiet.refl (s : Store) : Quiet s s :=
  ⟨[], (List.append_nil _).symm, fun _ he => nomatch he⟩

/-- A step that changes nothing that counts. -/
theorem takes_still {b : Phase} (ha : a.still = true) (hb : b = a.next s) (hsame : Same s s')
    (hquiet : Quiet s s') : Takes a s s' b :=
  ⟨hb, .still ha hsame hquiet⟩

omit [Runtime] in
theorem quiet_emit {target : Target} {event : Event}
    (h : ∀ machine now, event ≠ .machineOffline machine now) : Quiet s (s.emit target event) := by
  refine ⟨_, rfl, fun e he => ?_⟩
  cases List.mem_singleton.mp he
  exact h

/-- An event other than a notice, at the end of a handler. -/
theorem obeys_emit {target : Target} {event : DateTime → Event} {F : Phase → Prop}
    (h : ∀ now machine time, event now ≠ .machineOffline machine time) :
    Obeys ids (fun _ a => a = .resting) F (emit target event) .resting :=
  Task.Follows.effect fun s _ =>
    ⟨.resting, takes_still rfl rfl ⟨rfl, rfl, rfl, rfl⟩ (quiet_emit (h s.now)), rfl⟩

theorem obeys_broadcastMachineList {target : Target} {F : Phase → Prop} :
    Obeys ids (fun _ a => a = .resting) F (broadcastMachineList target) .resting := by
  refine Task.Follows.handle (F := fun _ => False) (fun _ h => h.elim) ?_
  refine Task.Follows.bind (P := fun _ a => a = .resting) ?_ (Task.Follows.query fun s _ =>
    ⟨.resting, takes_still rfl rfl (.refl s) (.refl s), rfl⟩)
  rintro machines _ rfl
  exact obeys_emit fun _ _ _ => nofun

/-! ## `machine:connect` -/

/-- A message with both credentials is verified by what its filters select. -/
theorem verified_eq {data machineId apiKey : Value} {idFilter keyFilter : String → Bool}
    (hid : prop data "machineId" = some machineId) (hkey : prop data "apiKey" = some apiKey)
    (hgiven : ¬ (!truthy machineId || !truthy apiKey) = true)
    (hidFilter : textFilter machineId = some idFilter)
    (hkeyFilter : textFilter apiKey = some keyFilter) (db : Database) :
    verified data db = (db.machines.rows.find? fun m => idFilter m.id && keyFilter m.apiKey).bind
      fun _ => some machineId := by
  simp only [verified, hid, hkey, Option.bind_eq_bind, Option.bind_some, if_neg hgiven, hidFilter,
    hkeyFilter]
  rfl

/-- The rows a filter selects have ids of the table. -/
theorem verified_mem {data : Value} {db : Database}
    (h : verified data db = some (some (.str machine))) :
    machine ≠ "" ∧ machine ∈ db.machines.rows.map Machine.id := by
  unfold verified at h
  obtain ⟨machineId, -, h⟩ := Option.bind_eq_some_iff.mp h
  obtain ⟨apiKey, -, h⟩ := Option.bind_eq_some_iff.mp h
  split at h
  · cases h
  rename_i htruthy
  obtain ⟨idFilter, hid, h⟩ := Option.bind_eq_some_iff.mp h
  obtain ⟨keyFilter, -, h⟩ := Option.bind_eq_some_iff.mp h
  obtain ⟨m, hm, h⟩ := Option.bind_eq_some_iff.mp h
  cases h
  cases hid
  refine ⟨fun he => ?_, List.mem_map.mpr ⟨m, List.mem_of_find?_eq_some hm, ?_⟩⟩
  · simp [truthy, he] at htruthy
  · have hm := List.find?_some hm
    simp only [Bool.and_eq_true, decide_eq_true_eq] at hm
    exact hm.1

omit [Runtime] in
theorem find_of_mem (hs : Marked ids s) (hmem : machine ∈ ids) :
    (s.db.machines.find machine).isSome := by
  rw [← hs.names] at hmem
  obtain ⟨m, hm, rfl⟩ := List.mem_map.mp hmem
  rw [Table.find_eq_some.mpr ⟨hm, rfl⟩]
  rfl

omit [Runtime] in
/-- An update keeps the ids. -/
theorem names_update {f : Machine → Machine} {hf : ∀ m, (f m).id = m.id} {db db' : Database}
    (h : db.updateMachine machine f hf = some db') :
    db'.machines.rows.map Machine.id = db.machines.rows.map Machine.id := by
  obtain ⟨-, rfl⟩ := Database.forMachine_eq_some.mp h
  rw [Table.rows_update, List.map_map]
  refine List.map_congr_left fun m _ => ?_
  simp only [Function.comp_apply]
  split
  · exact hf m
  · rfl

/-- The step that updates the machine's row. -/
theorem obeys_updateMachine (hmem : machine ∈ ids) {f : DateTime → Machine → Machine}
    {hf : ∀ now m, (f now m).id = m.id} {F : Phase → Prop} :
    Obeys ids (fun _ a => a = .logging machine) F
      (write fun db now => db.updateMachine machine (f now) (hf now)) (.updating machine) := by
  refine Task.Follows.op (fun s t x _ hft => ?_) fun s hs hft => ?_
  · obtain ⟨db, hdb, ⟨⟩⟩ := Option.map_eq_some_iff.mp hft
    refine ⟨_, takes_still rfl rfl ⟨rfl, ?_, rfl, names_update hdb⟩ (.refl s), rfl⟩
    obtain ⟨-, rfl⟩ := Database.forMachine_eq_some.mp hdb
    rfl
  · have hnone : s.db.updateMachine machine (f s.now) (hf s.now) = none :=
      Option.map_eq_none_iff.mp hft
    rw [Database.updateMachine, Database.forMachine, if_pos (find_of_mem hs hmem)] at hnone
    cases hnone

/-- The step that logs. -/
theorem obeys_entry (hmem : machine ∈ ids) {eventType : String} {b : Phase} {F : Phase → Prop}
    (hnext : ∀ s, b = a.next s)
    (hdoes : ∀ s s' db, s' = { s with db } →
      s.db.createConnectionEvent machine (entry machine eventType s.now) = some db →
      Does s s' a) :
    Obeys ids (fun _ a => a = b) F (write fun db now => db.createConnectionEvent machine
      { id := 0, machineId := machine, eventType, timestamp := now }) a := by
  refine Task.Follows.op (fun s t x _ hft => ?_) fun s hs hft => ?_
  · obtain ⟨db, hdb, ⟨⟩⟩ := Option.map_eq_some_iff.mp hft
    exact ⟨b, ⟨hnext s, hdoes s _ db rfl hdb⟩, rfl⟩
  · have hnone : s.db.createConnectionEvent machine (entry machine eventType s.now) = none :=
      Option.map_eq_none_iff.mp hft
    rw [Database.createConnectionEvent, Database.forMachine,
      if_pos (find_of_mem hs hmem)] at hnone
    cases hnone

/-- What follows accepted credentials. -/
theorem obeys_announce (hmem : machine ∈ ids) {m : Machine} {F : Phase → Prop} :
    Obeys ids (fun _ a => a = .resting) F (announce socket (some (.str machine)) m)
      (.looking machine) := by
  unfold announce
  simp only [requiredText, Task.get_some, Task.done_bind]
  refine Task.Follows.bind (P := fun _ a => a = .updating machine) ?_ (Task.Follows.look fun s _ =>
    ⟨_, takes_still rfl rfl (.refl s) (.refl s), rfl⟩)
  rintro address _ rfl
  refine Task.Follows.bind ?_ (obeys_updateMachine hmem)
  rintro _ _ rfl
  refine Task.Follows.bind ?_ (obeys_entry hmem (b := .resting) (fun _ => rfl)
    fun s s' db hs' hentry => .connected hs' hentry)
  rintro _ _ rfl
  split
  · refine Task.Follows.bind ?_ (obeys_emit fun _ _ _ he => by cases he)
    rintro _ _ rfl
    exact obeys_emit fun _ _ _ he => by cases he
  · refine Task.Follows.bind ?_ (obeys_emit fun _ _ _ he => by cases he)
    rintro _ _ rfl
    refine Task.Follows.bind ?_ obeys_broadcastMachineList
    rintro _ _ rfl
    exact obeys_emit fun _ _ _ he => by cases he

/-- A step from arrival that leads nowhere. -/
theorem obeys_error {data : Value} {error : String} (h : ∀ db, verified data db = none)
    {F : Phase → Prop} :
    Obeys ids (fun _ a => a = .resting) F
      (emit (.socket socket) fun _ => .machineError error) (.arriving socket data) := by
  refine Task.Follows.effect fun s _ => ⟨.resting, takes_still rfl ?_ ⟨rfl, rfl, rfl, rfl⟩
    (quiet_emit fun _ _ => nofun), rfl⟩
  rw [Phase.next, h]

/-- A handler that has thrown: it is at its end, or its message leads nowhere. -/
def Thrown (socket : String) (data : Value) (a : Phase) : Prop :=
  a = .resting ∨ (a = .arriving socket data ∧ ∀ db, verified data db = none)

omit [Runtime] in
theorem text_of_required {v : Value} (h : requiredText v = some machine) :
    v = some (.str machine) := by
  unfold requiredText at h
  split at h
  · cases h
    rfl
  · cases h

/-- The handler of `machine:connect`, from its arrival on. -/
theorem obeys_machineConnect {data : Value} :
    Obeys ids (fun _ a => a = .resting) (fun _ => False) (machineConnect socket data)
      (.arriving socket data) := by
  unfold machineConnect
  refine Task.Follows.handle (F := Thrown socket data) ?_ ?_
  · rintro _ (rfl | ⟨rfl, hnone⟩)
    · exact obeys_emit fun _ _ _ => nofun
    · exact obeys_error hnone
  cases hid : prop data "machineId" with
  | none => exact .inr ⟨rfl, fun db => by simp [verified, hid]⟩
  | some machineId =>
  cases hkey : prop data "apiKey" with
  | none => exact .inr ⟨rfl, fun db => by simp [verified, hid, hkey]⟩
  | some apiKey =>
  simp only [Task.get_some, Task.done_bind]
  by_cases hempty : (!truthy machineId || !truthy apiKey) = true
  · rw [if_pos hempty]
    refine obeys_error fun db => ?_
    simp only [verified, hid, hkey, Option.bind_eq_bind, Option.bind_some]
    exact if_pos hempty
  rw [if_neg hempty]
  unfold findCredentials
  cases hidFilter : textFilter machineId with
  | none => exact .inr ⟨rfl, fun db => by simp [verified, hid, hkey, hidFilter]⟩
  | some idFilter =>
  cases hkeyFilter : textFilter apiKey with
  | none => exact .inr ⟨rfl, fun db => by simp [verified, hid, hkey, hkeyFilter]⟩
  | some keyFilter =>
  simp only [Task.get_some, Task.done_bind]
  have hverified := verified_eq hid hkey hempty hidFilter hkeyFilter
  refine Task.Follows.bind (P := fun found a =>
    (found = none ∧ a = .resting) ∨ (found.isSome ∧ a = .accepting socket machineId ∧
      ∀ machine, machineId = some (.str machine) → machine ∈ ids)) ?_ ?_
  · rintro _ _ (⟨rfl, rfl⟩ | ⟨hfound, rfl, hmem⟩)
    · exact obeys_emit fun _ _ _ => nofun
    obtain ⟨m, rfl⟩ := Option.isSome_iff_exists.mp hfound
    cases hrequired : requiredText machineId with
    | none =>
      -- an object as the id: the socket is marked with it, and the handler throws
      refine Task.Follows.bind (P := fun _ a => a = .resting) ?_ (Task.Follows.effect fun t _ =>
        ⟨.resting, ⟨by simp [Phase.next, hrequired], Does.accept rfl⟩, rfl⟩)
      rintro _ _ rfl
      unfold announce
      rw [hrequired]
      exact .inl rfl
    | some machine =>
      obtain rfl := text_of_required hrequired
      refine Task.Follows.bind (P := fun _ a => a = .looking machine) ?_
        (Task.Follows.effect fun t _ => ⟨_, ⟨rfl, Does.accept rfl⟩, rfl⟩)
      rintro _ _ rfl
      exact obeys_announce (hmem machine rfl)
  · refine Task.Follows.query fun s hs => ⟨_, takes_still rfl rfl (.refl s) (.refl s), ?_⟩
    rw [Phase.next, hverified]
    cases hfound : s.db.machines.rows.find? fun m => idFilter m.id && keyFilter m.apiKey with
    | none => exact .inl ⟨hfound, rfl⟩
    | some m =>
      refine .inr ⟨Option.isSome_iff_exists.mpr ⟨m, hfound⟩, rfl, ?_⟩
      rintro machine rfl
      rw [← hs.names]
      refine (@verified_mem _ machine data s.db ?_).2
      rw [hverified, hfound]
      rfl

/-! ## `disconnect` -/

omit [Runtime] in
theorem marks_of_marked (hs : Marked ids s) (h : marked s socket = some (.str machine)) :
    machine ≠ "" ∧ machine ∈ ids := by
  obtain ⟨k, hk, hmark⟩ := Option.bind_eq_some_iff.mp h
  exact hs.marks k (Table.find_eq_some.mp hk).1 machine hmark

/-- A disconnect is logged if its socket is marked with the id of a machine. -/
theorem next_closed (hs : Marked ids s) :
    (∃ machine, marked s socket = some (.str machine) ∧ machine ≠ "" ∧ machine ∈ ids ∧
      Phase.next s (.closed socket) = .leaving machine) ∨
    ((∀ machine, marked s socket = some (.str machine) → machine = "") ∧
      Phase.next s (.closed socket) = .resting) := by
  simp only [Phase.next]
  split
  · rename_i machine hmark
    obtain ⟨hne, hmem⟩ := marks_of_marked hs hmark
    exact .inl ⟨machine, hmark, hne, hmem, if_neg hne⟩
  · rename_i hnone
    exact .inr ⟨fun machine hmark => absurd hmark (hnone machine), rfl⟩

/-- The handler of a disconnect. -/
theorem obeys_disconnect :
    Obeys ids (fun _ a => a = .resting) (fun _ => False) (Server.disconnect socket)
      (.closing socket) := by
  unfold Server.disconnect
  refine Task.Follows.bind (P := fun _ a => a = .closed socket) ?_
    (Task.Follows.effect fun s _ => ⟨_, ⟨rfl, .close rfl⟩, rfl⟩)
  rintro _ _ rfl
  refine Task.Follows.bind (P := fun (machineId : Value) (a : Phase) =>
    (∃ machine, machineId = some (.str machine) ∧ machine ≠ "" ∧ machine ∈ ids ∧
      a = .leaving machine) ∨
    ((∀ machine, machineId = some (.str machine) → machine = "") ∧ a = .resting)) ?_
    (Task.Follows.look fun s hs =>
      ⟨_, takes_still rfl rfl (.refl s) (.refl s), next_closed hs⟩)
  · rintro machineId _ (⟨machine, rfl, hne, hmem, rfl⟩ | ⟨hnone, rfl⟩)
    · have htruthy : truthy (some (.str machine)) = true := by simpa [truthy] using hne
      rw [if_pos htruthy]
      refine Task.Follows.handle (F := fun _ => False) (fun _ h => h.elim) ?_
      simp only [requiredText, Task.get_some, Task.done_bind]
      refine Task.Follows.bind ?_ (obeys_entry hmem (b := .announcing machine) (fun _ => rfl)
        fun s s' db hs' hentry => .disconnected hs' hentry)
      rintro _ _ rfl
      refine Task.Follows.bind (P := fun _ a => a = .resting) ?_
        (Task.Follows.effect fun s _ => ⟨_, ⟨rfl, .announce rfl⟩, rfl⟩)
      rintro _ _ rfl
      exact obeys_broadcastMachineList
    · split
      · rename_i htruthy
        -- an object as the id: the log is not reached
        refine Task.Follows.handle (F := fun a => a = .resting) ?_ ?_
        · rintro _ rfl
          exact rfl
        cases hrequired : requiredText machineId with
        | none => exact rfl
        | some machine =>
          obtain rfl := text_of_required hrequired
          rw [hnone machine rfl] at htruthy
          cases htruthy
      · exact rfl

theorem obeys_handler (w : Origin) :
    Obeys ids (fun _ a => a = .resting) (fun _ => False) (handler w) w.phase := by
  cases w with
  | connect socket data => exact obeys_machineConnect
  | disconnect socket => exact obeys_disconnect

/-! ## The two bridges -/

variable {t t' : Store} {phases : List Phase} {i : Nat} {b : Phase}

/-- What connects the sockets, the log and the handlers in progress. -/
structure Bridges (t : Store) (phases : List Phase) : Prop where
  closing : ∀ socket, .closing socket ∈ phases → ∃ k, t.sockets.find socket = some k
  closed : ∀ socket, .closed socket ∈ phases →
    ∃ k, t.sockets.find socket = some k ∧ k.connected = false
  online : ∀ machine, Open t machine →
    lastEvent t.db machine = some "Connected" ∨ ∃ a ∈ phases, a.Connects machine
  offline : ∀ machine, Authenticated t machine → lastEvent t.db machine = some "Connected" →
    Open t machine ∨ (∃ a ∈ phases, a.Connects machine) ∨ ∃ a ∈ phases, a.Disconnects t machine
  silent : ∀ machine, .announcing machine ∈ phases → ¬ Open t machine

/-- The machine ids that are about to be accepted are in the table. -/
def Known (ids : List String) (phases : List Phase) : Prop :=
  ∀ socket machineId, .accepting socket machineId ∈ phases →
    ∀ machine, machineId = some (.str machine) → machine ≠ "" ∧ machine ∈ ids

omit [Runtime] in
theorem exists_set {P Q : Phase → Prop} (hi : phases[i]? = some a) (hab : P a → Q b)
    (hPQ : ∀ x ∈ phases, P x → Q x) (h : ∃ x ∈ phases, P x) : ∃ x ∈ phases.set i b, Q x := by
  obtain ⟨x, hx, hP⟩ := h
  obtain ⟨j, hj⟩ := List.mem_iff_getElem?.mp hx
  have hlt : i < phases.length := (List.getElem?_eq_some_iff.mp hi).1
  by_cases hji : j = i
  · subst hji
    cases hi.symm.trans hj
    exact ⟨b, List.mem_set hlt b, hab hP⟩
  · refine ⟨x, List.mem_iff_getElem?.mpr ⟨j, ?_⟩, hPQ x hx hP⟩
    rw [List.getElem?_set_ne (Ne.symm hji)]
    exact hj

omit [Runtime] in
theorem mem_of_set {x : Phase} (h : x ∈ phases.set i b) (hb : b ≠ x) : x ∈ phases := by
  rcases List.mem_or_eq_of_mem_set h with hx | rfl
  · exact hx
  · exact absurd rfl hb

/-- Where the steps lead that do nothing to sockets and log. -/
structure Stays (ids : List String) (t : Store) (a b : Phase) : Prop where
  connects : ∀ machine, a.Connects machine → b.Connects machine
  disconnects : ∀ machine, a.Disconnects t machine → b.Disconnects t machine
  announcing : ∀ machine, b ≠ .announcing machine
  closing : ∀ socket, b ≠ .closing socket
  closed : ∀ socket, b ≠ .closed socket
  known : ∀ socket machineId, b = .accepting socket machineId →
    ∀ machine, machineId = some (.str machine) → machine ≠ "" ∧ machine ∈ ids

theorem stays_next (hs : Marked ids t) (ha : a.still = true) : Stays ids t a (a.next t) := by
  cases a with
  | arriving socket data =>
    simp only [Phase.next]
    split
    · rename_i machineId hverified
      refine ⟨nofun, nofun, nofun, nofun, nofun, ?_⟩
      rintro _ _ ⟨⟩ machine rfl
      rw [← hs.names]
      exact verified_mem hverified
    · exact ⟨nofun, nofun, nofun, nofun, nofun, nofun⟩
  | looking machine => exact ⟨fun _ h => h, nofun, nofun, nofun, nofun, nofun⟩
  | updating machine => exact ⟨fun _ h => h, nofun, nofun, nofun, nofun, nofun⟩
  | closed socket =>
    rcases @next_closed _ ids t socket hs with ⟨machine, hmark, -, -, hnext⟩ | ⟨hnone, hnext⟩
    · rw [hnext]
      refine ⟨nofun, fun machine' h => ?_, nofun, nofun, nofun, nofun⟩
      cases hmark.symm.trans h
      rfl
    · rw [hnext]
      refine ⟨nofun, fun machine' h => ?_, nofun, nofun, nofun, nofun⟩
      exact absurd (hnone machine' h) (marks_of_marked hs h).1
  | resting => exact ⟨nofun, nofun, nofun, nofun, nofun, nofun⟩
  | accepting => cases ha
  | logging => cases ha
  | closing => cases ha
  | leaving => cases ha
  | announcing => cases ha

omit [Runtime] in
theorem open_congr (h : t'.sockets = t.sockets) : Open t' machine ↔ Open t machine := by
  rw [Open, h]
  exact Iff.rfl

omit [Runtime] in
theorem lastEvent_congr {db db' : Database} (h : db'.connectionEvents = db.connectionEvents) :
    lastEvent db' machine = lastEvent db machine := by
  rw [lastEvent, h]
  rfl

omit [Runtime] in
theorem disconnects_congr (h : t'.sockets = t.sockets) :
    a.Disconnects t' machine ↔ a.Disconnects t machine := by
  cases a with
  | closed socket =>
    show (t'.sockets.find socket).bind _ = _ ↔ _
    rw [h]
    exact Iff.rfl
  | _ => exact Iff.rfl

omit [Runtime] in
/-- Steps that do nothing to sockets and log. -/
theorem Bridges.still (h : Bridges t phases) (hi : phases[i]? = some a) (hsame : Same t t')
    (hstays : Stays ids t a b) : Bridges t' (phases.set i b) := by
  have hevents := fun machine => @lastEvent_congr machine _ _ hsame.events
  have hdisconnects : ∀ machine (x : Phase), x.Disconnects t machine → x.Disconnects t' machine :=
    fun machine x => (disconnects_congr hsame.sockets).mpr
  refine ⟨fun socket hm => ?_, fun socket hm => ?_, fun machine ho => ?_,
    fun machine hauth hlast => ?_, fun machine hm ho => ?_⟩
  · rw [hsame.sockets]
    exact h.closing socket (mem_of_set hm (hstays.closing socket))
  · rw [hsame.sockets]
    exact h.closed socket (mem_of_set hm (hstays.closed socket))
  · rw [hevents]
    exact (h.online machine ((open_congr hsame.sockets).mp ho)).imp id
      (exists_set hi (hstays.connects machine) fun _ _ hx => hx)
  · rw [hevents] at hlast
    rw [Authenticated, hsame.connects] at hauth
    rcases h.offline machine hauth hlast with ho | hc | hd
    · exact .inl ((open_congr hsame.sockets).mpr ho)
    · exact .inr (.inl (exists_set hi (hstays.connects machine) (fun _ _ hx => hx) hc))
    · exact .inr (.inr (exists_set hi
        (fun ha => hdisconnects machine b (hstays.disconnects machine ha))
        (fun x _ => hdisconnects machine x) hd))
  · exact h.silent machine (mem_of_set hm (hstays.announcing machine))
      ((open_congr hsame.sockets).mp ho)

omit [Runtime] in
/-- The last entry after one more. -/
theorem lastEvent_entry {db db' : Database} {eventType : String} {now : DateTime}
    (h : db.createConnectionEvent machine (entry machine eventType now) = some db')
    (htype : eventType = "Connected" ∨ eventType = "Disconnected") (other : String) :
    lastEvent db' other = if other = machine then some eventType else lastEvent db other := by
  obtain ⟨-, rfl⟩ := Database.forMachine_eq_some.mp h
  unfold lastEvent
  rw [Sequence.rows_create, List.filter_append]
  by_cases hother : other = machine
  · subst hother
    rw [if_pos rfl, List.filter_cons_of_pos (by rcases htype with rfl | rfl <;> simp [entry])]
    simp [entry]
  · rw [if_neg hother, List.filter_cons_of_neg (by simp [entry, Ne.symm hother]),
      List.filter_nil, List.append_nil]

omit [Runtime] in
/-- `Connected` is logged: the machine has an open socket, or `Disconnected` is to come. -/
theorem Bridges.connected {db : Database} (h : Bridges t phases)
    (hi : phases[i]? = some (.logging machine))
    (hentry : t.db.createConnectionEvent machine (entry machine "Connected" t.now) = some db)
    (hguard : Open t machine ∨ ∃ a ∈ phases, a.Disconnects t machine) :
    Bridges { t with db } (phases.set i .resting) := by
  have hlast := lastEvent_entry hentry (.inl rfl)
  have hdisconnects : ∀ {other}, (∃ a ∈ phases, a.Disconnects t other) →
      ∃ a ∈ phases.set i .resting, a.Disconnects { t with db } other :=
    exists_set hi nofun fun x _ => (disconnects_congr (by rfl)).mpr
  refine ⟨fun socket hm => h.closing socket (mem_of_set hm nofun),
    fun socket hm => h.closed socket (mem_of_set hm nofun), fun other ho => ?_,
    fun other hauth hcon => ?_, fun other hm => h.silent other (mem_of_set hm nofun)⟩
  · rw [hlast]
    split
    · exact .inl rfl
    · rename_i hother
      exact (h.online other ho).imp id
        (exists_set hi (fun hsame => absurd hsame.symm hother) fun _ _ hx => hx)
  · rw [hlast] at hcon
    by_cases hother : other = machine
    · subst hother
      exact hguard.imp id fun hd => .inr (hdisconnects hd)
    · rw [if_neg hother] at hcon
      rcases h.offline other hauth hcon with ho | hc | hd
      · exact .inl ho
      · exact .inr (.inl (exists_set hi (fun hsame => absurd hsame.symm hother)
          (fun _ _ hx => hx) hc))
      · exact .inr (.inr (hdisconnects hd))

omit [Runtime] in
/-- `Disconnected` is logged: the machine has no open socket. -/
theorem Bridges.disconnected {db : Database} (h : Bridges t phases)
    (hi : phases[i]? = some (.leaving machine))
    (hentry : t.db.createConnectionEvent machine (entry machine "Disconnected" t.now) = some db)
    (hguard : ¬ Open t machine) :
    Bridges { t with db } (phases.set i (.announcing machine)) := by
  have hlast := lastEvent_entry hentry (.inr rfl)
  refine ⟨fun socket hm => h.closing socket (mem_of_set hm nofun),
    fun socket hm => h.closed socket (mem_of_set hm nofun), fun other ho => ?_,
    fun other hauth hcon => ?_, fun other hm => ?_⟩
  · rw [hlast]
    split
    · rename_i hother
      exact absurd (hother ▸ ho) hguard
    · exact (h.online other ho).imp id (exists_set hi nofun fun _ _ hx => hx)
  · rw [hlast] at hcon
    by_cases hother : other = machine
    · rw [if_pos hother] at hcon
      exact absurd hcon (by decide)
    · rw [if_neg hother] at hcon
      rcases h.offline other hauth hcon with ho | hc | hd
      · exact .inl ho
      · exact .inr (.inl (exists_set hi nofun (fun _ _ hx => hx) hc))
      · exact .inr (.inr (exists_set hi (fun hsame => absurd hsame.symm hother)
          (fun x _ => (disconnects_congr (by rfl)).mpr) hd))
  · by_cases hother : machine = other
    · exact hother ▸ hguard
    · exact h.silent other (mem_of_set hm fun he => hother (by cases he; rfl))

/-- A socket that has closed. -/
def closedSocket (k : Socket) : Socket := { k with connected := false }

omit [Runtime] in
theorem closedSocket_id (k : Socket) : (closedSocket k).id = k.id := rfl

/-- The store once a socket is closed. -/
def shut (t : Store) (socket : String) : Store :=
  t.updateSocket socket closedSocket closedSocket_id

omit [Runtime] in
theorem find_shut (t : Store) (socket other : String) : (shut t socket).sockets.find other =
    if other = socket then (t.sockets.find socket).map closedSocket else t.sockets.find other :=
  Table.find_update t.sockets socket other closedSocket closedSocket_id

omit [Runtime] in
theorem mem_shut {k : Socket} : k ∈ (shut t socket).sockets.rows ↔
    (k ∈ t.sockets.rows ∧ k.id ≠ socket) ∨
      ∃ k' ∈ t.sockets.rows, k'.id = socket ∧ k = closedSocket k' :=
  @Store.mem_updateSocket t socket closedSocket closedSocket_id k

omit [Runtime] in
theorem marked_shut (t : Store) (socket other : String) :
    marked (shut t socket) other = marked t other := by
  unfold marked
  rw [find_shut]
  split
  · rename_i hsame
    rw [hsame]
    cases t.sockets.find socket <;> rfl
  · rfl

omit [Runtime] in
/-- An open socket is another one, and was open. -/
theorem open_shut : Open (shut t socket) machine ↔
    ∃ k ∈ t.sockets.rows, k.id ≠ socket ∧ k.connected = true ∧
      k.machineId = some (.str machine) := by
  constructor
  · rintro ⟨k, hk, hconnected, hmark⟩
    rcases mem_shut.mp hk with ⟨hk, hid⟩ | ⟨k', -, -, rfl⟩
    · exact ⟨k, hk, hid, hconnected, hmark⟩
    · cases hconnected
  · rintro ⟨k, hk, hid, hconnected, hmark⟩
    exact ⟨k, mem_shut.mpr (.inl ⟨hk, hid⟩), hconnected, hmark⟩

omit [Runtime] in
/-- A socket closes: if it was marked, its disconnect is to be logged. -/
theorem Bridges.close (h : Bridges t phases) (hi : phases[i]? = some (.closing socket)) :
    Bridges (shut t socket) (phases.set i (.closed socket)) := by
  have hopen : ∀ machine, Open (shut t socket) machine → Open t machine := by
    intro machine ho
    obtain ⟨k, hk, -, hconnected, hmark⟩ := open_shut.mp ho
    exact ⟨k, hk, hconnected, hmark⟩
  have hdisconnects : ∀ machine (x : Phase), x.Disconnects t machine →
      x.Disconnects (shut t socket) machine := by
    intro machine x hx
    cases x with
    | closed other => exact (marked_shut t socket other).trans hx
    | leaving => exact hx
    | _ => exact hx.elim
  refine ⟨fun other hm => ?_, fun other hm => ?_, fun machine ho => ?_,
    fun machine hauth hlast => ?_, fun machine hm ho => ?_⟩
  · obtain ⟨k, hk⟩ := h.closing other (mem_of_set hm fun he => by cases he)
    rw [find_shut]
    split
    · rename_i hsame
      exact ⟨_, by rw [← hsame, hk]; rfl⟩
    · exact ⟨k, hk⟩
  · rw [find_shut]
    by_cases hsame : other = socket
    · obtain ⟨k, hk⟩ := h.closing socket (List.mem_of_getElem? hi)
      rw [if_pos hsame, hk]
      exact ⟨_, rfl, rfl⟩
    · rw [if_neg hsame]
      exact h.closed other (mem_of_set hm fun he => hsame (by cases he; rfl))
  · exact (h.online machine (hopen machine ho)).imp id (exists_set hi False.elim fun _ _ hx => hx)
  · rcases h.offline machine hauth hlast with ⟨k, hk, hconnected, hmark⟩ | hc | hd
    · by_cases hid : k.id = socket
      · refine .inr (.inr ⟨.closed socket, List.mem_set (List.getElem?_eq_some_iff.mp hi).1 _, ?_⟩)
        show marked _ socket = _
        rw [marked_shut, marked, Table.find_eq_some.mpr ⟨hk, hid⟩]
        exact hmark
      · exact .inl (open_shut.mpr ⟨k, hk, hid, hconnected, hmark⟩)
    · exact .inr (.inl (exists_set hi False.elim (fun _ _ hx => hx) hc))
    · exact .inr (.inr (exists_set hi False.elim (fun x _ => hdisconnects machine x) hd))
  · exact h.silent machine (mem_of_set hm fun he => by cases he) (hopen machine ho)

/-- A socket that has been marked. -/
def markedSocket (machineId : Value) (k : Socket) : Socket :=
  { k with machineId, rooms := machineRoom (template machineId) :: k.rooms }

omit [Runtime] in
theorem markedSocket_id (machineId : Value) (k : Socket) : (markedSocket machineId k).id = k.id :=
  rfl

/-- The store once credentials are accepted. -/
def accepted (t : Store) (socket : String) (machineId apiKey : Value) : Store :=
  ((accept socket machineId apiKey).exec t).1

section Accepted

variable {machineId apiKey : Value}

omit [Runtime] in
theorem find_accepted (other : String) : (accepted t socket machineId apiKey).sockets.find other =
    if other = socket then (t.sockets.find socket).map (markedSocket machineId)
    else t.sockets.find other :=
  Table.find_update t.sockets socket other (markedSocket machineId) (markedSocket_id machineId)

omit [Runtime] in
theorem mem_accepted {k : Socket} : k ∈ (accepted t socket machineId apiKey).sockets.rows ↔
    (k ∈ t.sockets.rows ∧ k.id ≠ socket) ∨
      ∃ k' ∈ t.sockets.rows, k'.id = socket ∧ k = markedSocket machineId k' :=
  @Store.mem_updateSocket t socket (markedSocket machineId) (markedSocket_id machineId) k

omit [Runtime] in
/-- The open sockets of a machine, once one has been marked. -/
theorem open_accepted (hopen : isOpen t socket = true) :
    Open (accepted t socket machineId apiKey) machine ↔ machineId = some (.str machine) ∨
      ∃ k ∈ t.sockets.rows, k.id ≠ socket ∧ k.connected = true ∧
        k.machineId = some (.str machine) := by
  constructor
  · rintro ⟨k, hk, hconnected, hmark⟩
    rcases mem_accepted.mp hk with ⟨hk, hid⟩ | ⟨k', -, -, rfl⟩
    · exact .inr ⟨k, hk, hid, hconnected, hmark⟩
    · exact .inl hmark
  · rintro (hmark | ⟨k, hk, hid, hconnected, hmark⟩)
    · obtain ⟨k, hk, hconnected⟩ := (Option.any_eq_true _ _).mp hopen
      obtain ⟨hmem, hid⟩ := Table.find_eq_some.mp hk
      exact ⟨_, mem_accepted.mpr (.inr ⟨k, hmem, hid, rfl⟩), hconnected, hmark⟩
    · exact ⟨k, mem_accepted.mpr (.inl ⟨hk, hid⟩), hconnected, hmark⟩

omit [Runtime] in
/-- Credentials are accepted, on an open socket that is not another machine's. -/
theorem Bridges.accept (h : Bridges t phases) (hi : phases[i]? = some (.accepting socket machineId))
    (hopen : isOpen t socket = true)
    (hmark : ∀ machine, marked t socket = some (.str machine) → machineId = some (.str machine))
    (hquiet : ∀ machine, machineId = some (.str machine) → .announcing machine ∉ phases)
    (hb : ∀ machine, machineId = some (.str machine) → b = .looking machine)
    (hrest : b = .resting ∨ ∃ machine, b = .looking machine) :
    Bridges (accepted t socket machineId apiKey) (phases.set i b) := by
  -- the new phase is none of those that the invariant speaks of
  have hnew : ∀ other machine,
      b ≠ .announcing machine ∧ b ≠ .closing other ∧ b ≠ .closed other := by
    intro other machine
    rcases hrest with rfl | ⟨_, rfl⟩ <;> exact ⟨by rintro ⟨⟩, by rintro ⟨⟩, by rintro ⟨⟩⟩
  have hlt : i < phases.length := (List.getElem?_eq_some_iff.mp hi).1
  -- a socket whose disconnect is to be logged is closed, so it is not the one that is marked
  have hother : ∀ other, .closed other ∈ phases → other ≠ socket := by
    rintro other hm rfl
    obtain ⟨k, hk, hshut⟩ := h.closed other hm
    rw [isOpen, hk, Option.any_some, hshut] at hopen
    cases hopen
  have hdisconnects : ∀ machine, ∀ x ∈ phases, x.Disconnects t machine →
      x.Disconnects (accepted t socket machineId apiKey) machine := by
    intro machine x hx hd
    cases x with
    | closed other =>
      show marked _ other = _
      rw [marked, find_accepted, if_neg (hother other hx)]
      exact hd
    | leaving => exact hd
    | _ => exact hd.elim
  refine ⟨fun other hm => ?_, fun other hm => ?_, fun machine ho => ?_,
    fun machine hauth hlast => ?_, fun machine hm ho => ?_⟩
  · obtain ⟨k, hk⟩ := h.closing other (mem_of_set hm (hnew other other).2.1)
    rw [find_accepted]
    split
    · rename_i hsame
      exact ⟨_, by rw [← hsame, hk]; rfl⟩
    · exact ⟨k, hk⟩
  · have hm := mem_of_set hm (hnew other other).2.2
    rw [find_accepted, if_neg (hother other hm)]
    exact h.closed other hm
  · rcases (open_accepted hopen).mp ho with hid | ⟨k, hk, -, hconnected, hk'⟩
    · refine .inr ⟨b, List.mem_set hlt b, ?_⟩
      rw [hb machine hid]
      rfl
    · exact (h.online machine ⟨k, hk, hconnected, hk'⟩).imp id
        (exists_set hi False.elim fun _ _ hx => hx)
  · by_cases hid : machineId = some (.str machine)
    · exact .inl ((open_accepted hopen).mpr (.inl hid))
    have hauth : Authenticated t machine := by
      obtain ⟨c, hc, hmachine⟩ := hauth
      rcases List.mem_append.mp hc with hc | hc
      · exact ⟨c, hc, hmachine⟩
      · cases List.mem_singleton.mp hc
        exact absurd hmachine hid
    rcases h.offline machine hauth hlast with ⟨k, hk, hconnected, hk'⟩ | hc | hd
    · refine .inl ((open_accepted hopen).mpr (.inr ⟨k, hk, fun hsame => ?_, hconnected, hk'⟩))
      refine hid (hmark machine ?_)
      rw [marked, Table.find_eq_some.mpr ⟨hk, hsame⟩]
      exact hk'
    · exact .inr (.inl (exists_set hi False.elim (fun _ _ hx => hx) hc))
    · exact .inr (.inr (exists_set hi False.elim (hdisconnects machine) hd))
  · have hm := mem_of_set hm (hnew machine machine).1
    rcases (open_accepted hopen).mp ho with hid | ⟨k, hk, -, hconnected, hk'⟩
    · exact hquiet machine hid hm
    · exact h.silent machine hm ⟨k, hk, hconnected, hk'⟩

end Accepted

/-! ## Every run -/

omit [Runtime] in
theorem marked_of_same (hs : Marked ids t) (hsame : Same t t') : Marked ids t' :=
  ⟨hsame.names.trans hs.names, by rw [hsame.sockets]; exact hs.marks⟩

omit [Runtime] in
/-- An entry leaves the machines alone. -/
theorem marked_of_entry {db : Database} {eventType : String} (hs : Marked ids t)
    (hentry : t.db.createConnectionEvent machine (entry machine eventType t.now) = some db) :
    Marked ids { t with db } := by
  obtain ⟨-, rfl⟩ := Database.forMachine_eq_some.mp hentry
  exact ⟨hs.names, hs.marks⟩

/-- A socket is marked with the id of a machine, or with something else. -/
theorem next_accepting (socket : String) (machineId : Value) :
    (∀ machine, machineId = some (.str machine) →
      Phase.next t (.accepting socket machineId) = .looking machine) ∧
    (Phase.next t (.accepting socket machineId) = .resting ∨
      ∃ machine, Phase.next t (.accepting socket machineId) = .looking machine) := by
  constructor
  · rintro machine rfl
    rfl
  · simp only [Phase.next]
    split
    · exact .inr ⟨_, rfl⟩
    · exact .inl rfl

/-- **A step of a handler** keeps the bridges. -/
theorem bridges_step (hs : Marked ids t) (hknown : Known ids phases) (h : Bridges t phases)
    (hi : phases[i]? = some a) (hstep : Takes a t t' b) (hmeets : a.Meets t phases) :
    Marked ids t' ∧ Known ids (phases.set i b) ∧ Bridges t' (phases.set i b) := by
  have hkeep : (∀ socket machineId, b ≠ .accepting socket machineId) →
      Known ids (phases.set i b) := fun hb socket machineId hm =>
    hknown socket machineId (mem_of_set hm (hb socket machineId))
  obtain ⟨rfl, hdoes⟩ := hstep
  cases hdoes with
  | still ha hsame hquiet =>
    have hstays := stays_next hs ha
    refine ⟨marked_of_same hs hsame, fun socket machineId hm => ?_, h.still hi hsame hstays⟩
    rcases List.mem_or_eq_of_mem_set hm with hm | he
    · exact hknown socket machineId hm
    · exact hstays.known socket machineId he.symm
  | @accept socket machineId apiKey haccept =>
    subst haccept
    have hmem := hknown socket machineId (List.mem_of_getElem? hi)
    obtain ⟨hlooking, hresting⟩ := next_accepting (t := t) socket machineId
    refine ⟨⟨hs.names, fun k hk machine hmark => ?_⟩, hkeep ?_,
      h.accept hi hmeets.1 hmeets.2.1 hmeets.2.2 hlooking hresting⟩
    · rcases mem_accepted.mp hk with ⟨hk, -⟩ | ⟨k', -, -, rfl⟩
      · exact hs.marks k hk machine hmark
      · exact hmem machine hmark
    · intro socket' machineId' he
      rcases hresting with hnext | ⟨_, hnext⟩ <;> rw [hnext] at he <;> cases he
  | connected hdb hentry =>
    subst hdb
    exact ⟨marked_of_entry hs hentry, hkeep nofun, h.connected hi hentry hmeets⟩
  | @close socket hclose =>
    subst hclose
    refine ⟨⟨hs.names, fun k hk machine hmark => ?_⟩, hkeep nofun, h.close hi⟩
    rcases mem_shut.mp hk with ⟨hk, -⟩ | ⟨k', hk', -, rfl⟩
    · exact hs.marks k hk machine hmark
    · exact hs.marks k' hk' machine hmark
  | disconnected hdb hentry =>
    subst hdb
    exact ⟨marked_of_entry hs hentry, hkeep nofun, h.disconnected hi hentry hmeets⟩
  | @announce machine hemit =>
    subst hemit
    have hsame : Same t (t.emit .everyone (.machineOffline machine t.now)) :=
      ⟨rfl, rfl, rfl, rfl⟩
    have hstays : Stays ids t (.announcing machine) .resting :=
      ⟨nofun, nofun, nofun, nofun, nofun, nofun⟩
    exact ⟨marked_of_same hs hsame, hkeep nofun, h.still hi hsame hstays⟩

/-- A notice that a step of a handler makes is true. -/
theorem notice_of_step (h : Bridges t phases) (hi : phases[i]? = some a)
    (hstep : Takes a t t' b) : ∀ e ∈ t'.emitted.drop t.emitted.length, ∀ machine now,
      e.event = .machineOffline machine now → ¬ Open t machine := by
  have hsilent : t'.emitted = t.emitted → ∀ e ∈ t'.emitted.drop t.emitted.length,
      ∀ machine now, e.event = .machineOffline machine now → ¬ Open t machine := by
    intro he e hmem
    rw [he, List.drop_length] at hmem
    cases hmem
  obtain ⟨rfl, hdoes⟩ := hstep
  cases hdoes with
  | still ha hsame hquiet =>
    obtain ⟨es, hes, hno⟩ := hquiet
    rw [hes, List.drop_left]
    exact fun e he machine now hevent => absurd hevent (hno e he machine now)
  | accept haccept =>
    subst haccept
    exact hsilent rfl
  | connected hdb =>
    subst hdb
    exact hsilent rfl
  | close hclose =>
    subst hclose
    exact hsilent rfl
  | disconnected hdb =>
    subst hdb
    exact hsilent rfl
  | @announce machine hemit =>
    subst hemit
    intro e he machine' now hevent
    rw [Store.emit, List.drop_left, List.mem_singleton] at he
    subst he
    cases hevent
    exact h.silent machine (List.mem_of_getElem? hi)

/-- What a run keeps. -/
structure Inv (ids : List String) (s : State) : Prop where
  marked : Marked ids s.pool.store
  known : Known ids s.phases
  bridges : Bridges s.pool.store s.phases
  length : s.phases.length = s.pool.tasks.length
  obeys : ∀ (i : Nat) w q a, s.pool.tasks[i]? = some (w, q) → s.phases[i]? = some a →
    Obeys ids (fun _ a => a = .resting) (fun _ => False) q a

variable {σ σ' : State} {turn : Turn}

/-- A handler starts. -/
theorem inv_spawn (h : Inv ids σ) (w : Origin)
    (hw : ∀ socket, w = .disconnect socket → isOpen σ.pool.store socket = true) :
    Inv ids (σ.spawn w) := by
  have hold : ∀ {x}, x ∈ σ.phases ++ [w.phase] → w.phase ≠ x → x ∈ σ.phases := by
    intro x hx hne
    rcases List.mem_append.mp hx with hx | hx
    · exact hx
    · exact absurd (List.mem_singleton.mp hx).symm hne
  have hgrow : ∀ {P : Phase → Prop}, (∃ x ∈ σ.phases, P x) → ∃ x ∈ σ.phases ++ [w.phase], P x :=
    fun ⟨x, hx, hP⟩ => ⟨x, List.mem_append_left _ hx, hP⟩
  refine ⟨h.marked, fun socket machineId hm => ?_, ⟨fun socket hm => ?_, fun socket hm => ?_,
    fun machine ho => ?_, fun machine hauth hlast => ?_, fun machine hm => ?_⟩, ?_, ?_⟩
  · exact h.known socket machineId (hold hm (by cases w <;> exact nofun))
  · cases w with
    | connect => exact h.bridges.closing socket (hold hm nofun)
    | disconnect other =>
      by_cases hsame : other = socket
      · obtain ⟨k, hk, -⟩ := (Option.any_eq_true _ _).mp (hw socket (hsame ▸ rfl))
        exact ⟨k, hk⟩
      · exact h.bridges.closing socket (hold hm fun he => hsame (by cases he; rfl))
  · exact h.bridges.closed socket (hold hm (by cases w <;> exact nofun))
  · exact (h.bridges.online machine ho).imp id hgrow
  · exact (h.bridges.offline machine hauth hlast).imp id (Or.imp hgrow hgrow)
  · exact h.bridges.silent machine (hold hm (by cases w <;> exact nofun))
  · simp only [State.spawn, List.length_append, List.length_singleton, h.length]
  · intro i w' q a hq ha
    by_cases hlt : i < σ.phases.length
    · have hq' : (σ.pool.tasks ++ [(w, handler w)])[i]? = some (w', q) := hq
      have ha' : (σ.phases ++ [w.phase])[i]? = some a := ha
      rw [List.getElem?_append_left (h.length ▸ hlt)] at hq'
      rw [List.getElem?_append_left hlt] at ha'
      exact h.obeys i w' q a hq' ha'
    · have hq' : (σ.pool.tasks ++ [(w, handler w)])[i]? = some (w', q) := hq
      have ha' : (σ.phases ++ [w.phase])[i]? = some a := ha
      rw [List.getElem?_append_right (by rw [← h.length]; omega)] at hq'
      rw [List.getElem?_append_right (by omega)] at ha'
      rw [← h.length] at hq'
      cases hlast : i - σ.phases.length with
      | zero =>
        rw [hlast] at hq' ha'
        cases hq'
        cases ha'
        exact obeys_handler w
      | succ n =>
        rw [hlast] at ha'
        cases ha'

omit [Runtime] in
/-- A socket opens: it is nobody's. -/
theorem bridges_open {address : String} {sockets : Table Socket.id} (h : Bridges t phases)
    (hcreate : t.sockets.create { id := socket, address } = some sockets) :
    Bridges { t with sockets } phases := by
  have hopen : ∀ machine, Open { t with sockets } machine ↔ Open t machine := by
    intro machine
    obtain ⟨-, hrows⟩ := Table.create_eq_some.mp hcreate
    constructor
    · rintro ⟨k, hk, hconnected, hmark⟩
      rcases List.mem_append.mp (hrows ▸ hk) with hk | hk
      · exact ⟨k, hk, hconnected, hmark⟩
      · cases List.mem_singleton.mp hk
        cases hmark
    · rintro ⟨k, hk, hconnected, hmark⟩
      exact ⟨k, hrows ▸ List.mem_append_left _ hk, hconnected, hmark⟩
  have hfind : ∀ other k, t.sockets.find other = some k → sockets.find other = some k := by
    intro other k hk
    rw [Table.find_create hcreate, if_neg]
    · exact hk
    · rintro rfl
      rw [(Table.create_eq_some.mp hcreate).1] at hk
      cases hk
  refine ⟨fun other hm => ?_, fun other hm => ?_, fun machine ho => ?_,
    fun machine hauth hlast => ?_, fun machine hm ho => ?_⟩
  · obtain ⟨k, hk⟩ := h.closing other hm
    exact ⟨k, hfind other k hk⟩
  · obtain ⟨k, hk, hclosed⟩ := h.closed other hm
    exact ⟨k, hfind other k hk, hclosed⟩
  · exact h.online machine ((hopen machine).mp ho)
  · refine (h.offline machine hauth hlast).imp (hopen machine).mpr (Or.imp id ?_)
    rintro ⟨x, hx, hd⟩
    refine ⟨x, hx, ?_⟩
    cases x with
    | closed other =>
      obtain ⟨k, hk, -⟩ := h.closed other hx
      show (sockets.find other).bind _ = _
      rw [hfind other k hk, ← hk]
      exact hd
    | leaving => exact hd
    | _ => exact hd.elim
  · exact h.silent machine hm ((hopen machine).mp ho)

/-- A handler takes its next step, and its phase goes with it. -/
theorem inv_advance {i : Nat} {w : Origin} {q q' : Task Store Unit} {t' : Store}
    (h : Inv ids σ) (hharm : Harmless σ (.advance i)) (hget : σ.pool.tasks[i]? = some (w, q))
    (hm : q.Moves σ.pool.store t' q') :
    Inv ids { pool := { store := t', tasks := σ.pool.tasks.set i (w, q') },
              phases := σ.phases.modify i (·.next σ.pool.store) } ∧
      Notices σ { pool := { store := t', tasks := σ.pool.tasks.set i (w, q') },
                  phases := σ.phases.modify i (·.next σ.pool.store) } := by
  have hlt : i < σ.phases.length := by
    rw [h.length]
    exact (List.getElem?_eq_some_iff.mp hget).1
  obtain ⟨a, ha⟩ : ∃ a, σ.phases[i]? = some a := ⟨_, List.getElem?_eq_getElem hlt⟩
  obtain ⟨b, hstep, hq'⟩ := Task.Follows.moves (h.obeys i w q a hget ha) h.marked hm
  have hphases : σ.phases.modify i (·.next σ.pool.store) = σ.phases.set i b := by
    rw [hstep.1, List.modify_eq_set_getElem?, ha]
    rfl
  refine ⟨?_, notice_of_step h.bridges ha hstep⟩
  obtain ⟨hmarked, hknown, hbridges⟩ :=
    bridges_step h.marked h.known h.bridges ha hstep (hharm a ha)
  rw [hphases]
  refine ⟨hmarked, hknown, hbridges, ?_, fun j w' r c hj hc => ?_⟩
  · rw [List.length_set, List.length_set]
    exact h.length
  · have hj : (σ.pool.tasks.set i (w, q'))[j]? = some (w', r) := hj
    have hc : (σ.phases.set i b)[j]? = some c := hc
    by_cases hji : j = i
    · subst hji
      rw [List.getElem?_set_self (List.getElem?_eq_some_iff.mp hget).1] at hj
      rw [List.getElem?_set_self hlt] at hc
      cases hj
      cases hc
      exact hq'
    · rw [List.getElem?_set_ne (Ne.symm hji)] at hj hc
      exact h.obeys j w' r c hj hc

/-- **A step of the system** that meets the condition keeps the invariant, and what it announces is
    true. -/
theorem inv_step (h : Inv ids σ) (hharm : Harmless σ turn) (hs : step σ turn = some σ') :
    Inv ids σ' ∧ Notices σ σ' := by
  have hsilent : ∀ {u : Store}, u.emitted = σ.pool.store.emitted →
      ∀ e ∈ u.emitted.drop σ.pool.store.emitted.length, ∀ machine now,
        e.event = .machineOffline machine now → ¬ Open σ.pool.store machine := by
    intro u hu e he
    rw [hu, List.drop_length] at he
    cases he
  cases turn with
  | «open» socket address =>
    obtain ⟨sockets, hcreate, rfl⟩ := Option.map_eq_some_iff.mp hs
    refine ⟨⟨⟨h.marked.names, fun k hk machine hmark => ?_⟩, h.known,
      bridges_open h.bridges hcreate, h.length, h.obeys⟩, hsilent rfl⟩
    rcases List.mem_append.mp ((Table.create_eq_some.mp hcreate).2 ▸ hk) with hk | hk
    · exact h.marked.marks k hk machine hmark
    · cases List.mem_singleton.mp hk
      cases hmark
  | send socket data =>
    simp only [step] at hs
    split at hs
    · cases hs
      exact ⟨inv_spawn h _ nofun, hsilent rfl⟩
    · cases hs
  | close socket =>
    simp only [step] at hs
    split at hs
    · rename_i hopen
      cases hs
      refine ⟨inv_spawn h _ ?_, hsilent rfl⟩
      rintro _ ⟨⟩
      exact hopen
    · cases hs
  | tick now =>
    cases hs
    exact ⟨⟨⟨h.marked.names, h.marked.marks⟩, h.known, ⟨h.bridges.closing, h.bridges.closed,
      h.bridges.online, h.bridges.offline, h.bridges.silent⟩, h.length, h.obeys⟩, hsilent rfl⟩
  | advance i =>
    obtain ⟨pool, hpool, rfl⟩ := Option.map_eq_some_iff.mp hs
    rcases Pool.step_cases hpool with ⟨_, ⟨⟩, _⟩ | ⟨_, w, q, q', t', ⟨⟩, hget, hm, rfl⟩ |
      ⟨_, _, _, _, ⟨⟩, _⟩ | ⟨_, ⟨⟩, _⟩
    exact inv_advance h hharm hget hm

theorem inv_initial (db : Database) (now : DateTime) :
    Inv (db.machines.rows.map Machine.id) (initial db now) :=
  ⟨⟨rfl, nofun⟩, nofun, ⟨nofun, nofun, fun _ ⟨_, hk, _⟩ => absurd hk List.not_mem_nil,
    fun _ ⟨_, hc, _⟩ => absurd hc List.not_mem_nil, nofun⟩, rfl, nofun⟩

/-- A handler that has come to its end rests. -/
theorem resting_of_settled (h : Inv ids σ) (hs : Settled σ) {a : Phase} (ha : a ∈ σ.phases) :
    a = .resting := by
  obtain ⟨i, hi⟩ := List.mem_iff_getElem?.mp ha
  have hlt : i < σ.pool.tasks.length := by
    rw [← h.length]
    exact (List.getElem?_eq_some_iff.mp hi).1
  have hget : σ.pool.tasks[i]? = some (σ.pool.tasks[i].1, σ.pool.tasks[i].2) :=
    List.getElem?_eq_getElem hlt
  rcases Task.Follows.ended (h.obeys i _ _ a hget hi) (hs _ (List.getElem_mem hlt)) with
    ⟨-, hend⟩ | hend
  · exact hend
  · exact hend.elim

/-- The bridges, when no handler is outstanding. -/
theorem truthful_of_inv (h : Inv ids σ) : Truthful σ := by
  intro hs machine hauth
  have hnone : ∀ {P : Phase → Prop}, ¬ P .resting → ¬ ∃ a ∈ σ.phases, P a := by
    rintro P hP ⟨a, ha, hPa⟩
    exact hP (resting_of_settled h hs ha ▸ hPa)
  constructor
  · intro hlast
    rcases h.bridges.offline machine hauth hlast with ho | hc | hd
    · exact ho
    · exact absurd hc (hnone id)
    · exact absurd hd (hnone id)
  · intro ho
    rcases h.bridges.online machine ho with hlast | hc
    · exact hlast
    · exact absurd hc (hnone id)

end Presence

/-! ## A reconnect -/

/-- What the machine of `Store.adopted` sends. -/
def credentials : Value :=
  some (.obj [("machineId", .str "PC-1"), ("apiKey", .str "4f1c")])

/-- A socket connects, up to the log entry. -/
def connecting : List Turn :=
  [.open "a" "10.0.0.7", .send "a" credentials, .advance 0, .advance 0, .advance 0, .advance 0,
    .advance 0]

/-- A machine connects on a second socket before the first is closed. -/
def overlap : List Turn :=
  [.open "a" "10.0.0.7", .send "a" credentials] ++ List.replicate 9 (.advance 0) ++
    [.open "b" "10.0.0.7", .send "b" credentials] ++ List.replicate 9 (.advance 1) ++
    [.close "a"] ++ List.replicate 6 (.advance 2)

end Server.Presence
