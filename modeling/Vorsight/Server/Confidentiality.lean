/-
  WHO IS TOLD ABOUT A MACHINE.

  Machines' data leaves the server on the socket in two ways.  Activities, audit alerts and
  screenshots go to the room of the machine; the list of machines, states and global audit events go
  to every open socket, or to the one that subscribes.  `web:watch` lets any socket into any room,
  and a socket never presents a web login.

  1. **The claim of the design** (`Confidential`): what a step emits about a machine reaches only
     sockets that have completed `machine:connect` with the machine's id and key.

  2. **The condition** (`Harmless`): only such sockets watch the machine, no filter is accepted as a
     credential, and what goes out to all goes out while all have connected as the machine.

  3. **Rooms** (`Private`) — the sockets in a machine's room have connected as it.  `first_handler`
     says of each handler, from its first step on, whom it lets into a room and whom it writes to.
-/
import Vorsight.Server.Presence

namespace Server.Confidentiality

open Js Tables Tasks
open Channels (Connected Injects)

section Confidentiality

variable [Runtime]

/-! ## The system -/

/-- A socket, and what it has sent. -/
abbrev Origin := String × Message

def handler (w : Origin) : Task Store Unit := onMessage w.1 w.2

/-- Keys that have been given out stay. -/
def KeysKept (db db' : Database) : Prop :=
  ∀ id key, db.keyOf id = some key → db'.keyOf id = some key

/-- What happens beside the handlers: a socket opens, time goes on, a route or a job changes the
    database. -/
inductive Outside
  | open (socket address : String)
  | tick (now : DateTime)
  | change (f : Database → Database) (h : ∀ db, KeysKept db (f db))

def Outside.apply : Outside → Store → Store
  | .open id address, s => { s with sockets := (s.sockets.create { id, address }).getD s.sockets }
  | .tick now, s => { s with now }
  | .change f _, s => { s with db := f s.db }

/-- The server with its sockets. -/
def step : Pool Origin Store → Label Origin Outside → Option (Pool Origin Store) :=
  Pool.step handler Outside.apply

/-- The server at its start. -/
def initial (db : Database) (now : DateTime) : Pool Origin Store where
  store := { db, now, sockets := .empty }
  tasks := []

/-! ## The design's claim -/

/-- The event names the machines its data is about. -/
def mentions : Event → String → Prop
  | .machinesList machines, machine => ∃ m ∈ machines, m.1.id = machine
  | .machineState id .., machine => id = machine
  | .auditGlobal id .., machine => id = machine
  | _, _ => False

/-- The event carries data of one machine, and does not name it. -/
def isDetail : Event → Bool
  | .activityUpdate .. | .auditAlert _ | .screenshotNew _ => true
  | _ => false

/-- The machine a message is about. -/
def named : Message → Option String
  | .machineActivity data | .machineAudit data | .machineScreenshot data =>
    (prop data "machineId").bind requiredText
  | _ => none

/-- What a handler emits carries data of the machine. -/
def Discloses (w : Origin) (event : Event) (machine : String) : Prop :=
  mentions event machine ∨ (isDetail event = true ∧ named w.2 = some machine)

/-- What a step emits. -/
def news (s s' : Store) : List Emission := s'.emitted.drop s.emitted.length

/-- Data of a machine reaches only sockets that have connected as it. -/
def Confidential (p : Pool Origin Store) (l : Label Origin Outside) (p' : Pool Origin Store) :
    Prop :=
  ∀ e ∈ news p.store p'.store, ∃ w ∈ p.mover l, ∀ machine, Discloses w e.event machine →
    ∀ socket ∈ e.recipients, Connected p.store socket machine

/-! ## The condition -/

/-- Those an event is meant for that is not sent to a room. -/
def Audience (s : Store) : Origin → String → Prop
  | (subscriber, .webSubscribe), socket => socket = subscriber
  | _, socket => ∃ k ∈ s.sockets.rows, k.id = socket ∧ k.connected = true

/-- A socket watches only machines it has connected as, and credentials that are accepted are the
    id and the key, not filters. -/
def Admits (s : Store) : Origin → Prop
  | (socket, .webWatch machine) => Connected s socket machine
  | (_, .machineConnect data) => ¬ Injects s data ∧
    ∀ v, Presence.verified data s.db = some v → ∃ machine, v = some (.str machine)
  | _ => True

/-- The handler that is to move sends the event next. -/
def Sends (p : Pool Origin Store) : Label Origin Outside → Event → Prop
  | .advance i, event => ∃ w q s' q', p.tasks[i]? = some (w, q) ∧ q.Moves p.store s' q' ∧
      ∃ e ∈ news p.store s', e.event = event
  | _, _ => False

/-- The handler that is to move is admitted; and if it is about to send an event that names
    machines, everyone the event is meant for has connected as each of them. -/
def Harmless (p : Pool Origin Store) (l : Label Origin Outside) : Prop :=
  ∀ w ∈ p.mover l, Admits p.store w ∧
    ∀ event, Sends p l event → ∀ machine, mentions event machine →
      ∀ socket, Audience p.store w socket → Connected p.store socket machine

/-! ## Rely and guarantee -/

/-- Keys stay, and so do completed connects. -/
structure Rely (s s' : Store) : Prop where
  keys : KeysKept s.db s'.db
  connects : ∀ c ∈ s.connects, c ∈ s'.connects

/-- The addressees of an emission are in order: it carries no machine's data, or goes to the room of
    the machine it is about, or is meant for its audience. -/
def Addressed (w : Origin) (s : Store) (e : Emission) : Prop :=
  (∀ machine, ¬ Discloses w e.event machine) ∨
  (isDetail e.event = true ∧ ∃ machine, named w.2 = some machine ∧ ∀ socket ∈ e.recipients,
    ∃ k ∈ s.sockets.rows, k.id = socket ∧ machineRoom machine ∈ k.rooms) ∨
  (isDetail e.event = false ∧ ∀ socket ∈ e.recipients, Audience s w socket)

/-- A step of the handler for `w`. -/
structure Acts (w : Origin) (s s' : Store) : Prop where
  rely : Rely s s'
  rooms : ∀ k' ∈ s'.sockets.rows, ∀ machine, machineRoom machine ∈ k'.rooms →
    (∃ k ∈ s.sockets.rows, k.id = k'.id ∧ machineRoom machine ∈ k.rooms) ∨
      Connected s' k'.id machine ∨ w = (k'.id, .webWatch machine)
  news : ∀ e ∈ news s s', Addressed w s e

variable {w : Origin} {s s' : Store} {machine socket : String} {α : Type}

omit [Runtime] in
theorem Rely.refl (s : Store) : Rely s s := ⟨fun _ _ h => h, fun _ h => h⟩

omit [Runtime] in
theorem Rely.trans {a b c : Store} (hab : Rely a b) (hbc : Rely b c) : Rely a c :=
  ⟨fun id key h => hbc.keys id key (hab.keys id key h),
    fun x hx => hbc.connects x (hab.connects x hx)⟩

omit [Runtime] in
theorem connected_stable (h : Connected s socket machine) (hr : Rely s s') :
    Connected s' socket machine := by
  obtain ⟨key, hkey, hmem⟩ := h
  exact ⟨key, hr.keys machine key hkey, hr.connects _ hmem⟩

omit [Runtime] in
/-- A change of the database. -/
theorem acts_of_keys {db : Database} (hkeys : KeysKept s.db db) : Acts w s { s with db } := by
  refine ⟨⟨hkeys, fun _ h => h⟩, fun k hk _ hroom => .inl ⟨k, hk, rfl, hroom⟩, fun e he => ?_⟩
  rw [news, List.drop_length] at he
  cases he

omit [Runtime] in
theorem acts_refl : Acts w s s := acts_of_keys fun _ _ h => h

/-- The triple for a part of the handler for `w`: it may throw at any point. -/
abbrev Keeps (w : Origin) (Q : α → Store → Prop) (p : Task Store α) (s : Store) : Prop :=
  p.Guar Rely (Acts w) Q (fun _ => True) s

omit [Runtime] in
theorem keeps_write {f : Database → DateTime → Option Database}
    (hf : ∀ db now db', f db now = some db' → KeysKept db db') :
    Keeps w (fun _ u => Rely s u) (write f) s := by
  refine Task.Guar.op (fun _ => acts_refl) (fun t _ _ hst hft => ?_) fun _ => trivial
  obtain ⟨db, hdb, ⟨⟩⟩ := Option.map_eq_some_iff.mp hft
  have hacts : Acts w t { t with db } := acts_of_keys (hf t.db t.now db hdb)
  exact ⟨hacts, fun v hv => hst.trans (hacts.rely.trans hv)⟩

omit [Runtime] in
theorem keeps_read {f : Database → α} :
    Keeps w (fun a u => ∃ t, Rely s t ∧ Rely t u ∧ a = f t.db) (read f) s :=
  Task.Guar.query (fun _ => acts_refl) (fun t _ hst htu => ⟨t, hst, htu, rfl⟩) fun _ => trivial

omit [Runtime] in
theorem keeps_look {f : Store → α} : Keeps w (fun _ u => Rely s u) (Tasks.Task.look f) s :=
  Task.Guar.look (fun _ => acts_refl) fun _ _ hst htu => hst.trans htu

omit [Runtime] in
theorem keeps_get {o : Option α} :
    Keeps w (fun a u => o = some a ∧ Rely s u) (Tasks.Task.get o) s :=
  Task.Guar.get (fun _ _ ho hs => ⟨ho, hs⟩) fun _ => trivial

omit [Runtime] in
theorem keeps_done {a : α} : Keeps w (fun _ _ => True) (Tasks.Task.done a) s := fun _ _ => trivial

omit [Runtime] in
theorem keeps_bind {β : Type} {Q : α → Store → Prop} {p : Task Store α} {k : α → Task Store β}
    {Q' : β → Store → Prop} (hp : Keeps w Q p s) (hk : ∀ a t, Q a t → Keeps w Q' (k a) t) :
    Keeps w Q' (p >>= k) s :=
  Task.Guar.bind Rely.refl hk hp

omit [Runtime] in
theorem keeps_handle {Q : α → Store → Prop} {p c : Task Store α} (hp : Keeps w Q p s)
    (hc : ∀ t, Keeps w Q c t) : Keeps w Q (p.handle c) s :=
  Task.Guar.handle Rely.refl (fun t _ => hc t) hp

omit [Runtime] in
theorem keeps_weaken {Q : α → Store → Prop} {p : Task Store α} (hp : Keeps w Q p s) :
    Keeps w (fun _ _ => True) p s :=
  hp.mono (fun _ _ _ => trivial) fun _ h => h

/-! ## What is emitted, and to whom -/

omit [Runtime] in
/-- An event, to whomever it is in order to send it. -/
theorem keeps_emit {target : Target} {event : DateTime → Event}
    (h : ∀ t : Store, Addressed w t
      ⟨event t.now, (t.sockets.rows.filter (Store.reaches target)).map Socket.id⟩) :
    Keeps w (fun _ u => Rely s u) (emit target event) s := by
  refine Task.Guar.effect (fun t _ => ?_) fun t u hst htu => ?_
  · refine ⟨⟨fun _ _ h => h, fun _ h => h⟩, fun k hk _ hroom => .inl ⟨k, hk, rfl, hroom⟩,
      fun e he => ?_⟩
    rw [news, Store.emit, List.drop_left, List.mem_singleton] at he
    subst he
    exact h t
  · exact hst.trans ⟨htu.keys, htu.connects⟩

omit [Runtime] in
/-- An event without a machine's data, to anyone. -/
theorem keeps_emit_plain {target : Target} {event : DateTime → Event}
    (h : ∀ now machine, ¬ Discloses w (event now) machine) :
    Keeps w (fun _ u => Rely s u) (emit target event) s :=
  keeps_emit fun t => .inl (h t.now)

omit [Runtime] in
/-- An event to the room of the machine it is about. -/
theorem keeps_emit_room {event : DateTime → Event} (hdetail : ∀ now, isDetail (event now) = true)
    (hnamed : named w.2 = some machine) :
    Keeps w (fun _ u => Rely s u) (emit (.room (machineRoom machine)) event) s := by
  refine keeps_emit fun t => .inr (.inl ⟨hdetail t.now, machine, hnamed, fun socket hmem => ?_⟩)
  obtain ⟨k, hk, rfl⟩ := List.mem_map.mp hmem
  obtain ⟨hk, hreach⟩ := List.mem_filter.mp hk
  exact ⟨k, hk, rfl, by simpa [Store.reaches] using (Bool.and_eq_true_iff.mp hreach).2⟩

omit [Runtime] in
/-- An event to all. -/
theorem keeps_emit_everyone {event : DateTime → Event}
    (hdetail : ∀ now, isDetail (event now) = false) (hw : ∀ k, w ≠ (k, .webSubscribe)) :
    Keeps w (fun _ u => Rely s u) (emit .everyone event) s := by
  refine keeps_emit fun t => .inr (.inr ⟨hdetail t.now, fun socket hmem => ?_⟩)
  obtain ⟨k, hk, rfl⟩ := List.mem_map.mp hmem
  obtain ⟨hk, hreach⟩ := List.mem_filter.mp hk
  obtain ⟨sender, message⟩ := w
  cases message with
  | webSubscribe => exact absurd rfl (hw sender)
  | _ => exact ⟨k, hk, rfl, hreach⟩

/-! ## The handlers behind their checks -/

omit [Runtime] in
theorem keysKept_of_machines {db db' : Database} (h : db'.machines = db.machines) :
    KeysKept db db' := by
  intro id key hkey
  rw [Database.keyOf, h]
  exact hkey

omit [Runtime] in
theorem keysKept_updateSession {db db' : Database} {session : Nat}
    {f : ActivitySession → ActivitySession} {hf : ∀ r, (f r).id = r.id}
    (h : db.updateSession session f hf = some db') : KeysKept db db' := by
  unfold Database.updateSession at h
  split at h
  · cases h
    exact keysKept_of_machines rfl
  · cases h

omit [Runtime] in
theorem keeps_broadcast (hw : ∀ k, w ≠ (k, .webSubscribe)) :
    Keeps w (fun _ _ => True) (broadcastMachineList .everyone) s :=
  keeps_handle (keeps_bind keeps_read fun _ _ _ =>
    keeps_weaken (keeps_emit_everyone (fun _ => rfl) hw)) fun _ => keeps_done

omit [Runtime] in
/-- The list, to the one that subscribes. -/
theorem keeps_webSubscribe :
    Keeps (socket, .webSubscribe) (fun _ _ => True) (webSubscribe socket) s := by
  refine keeps_handle (keeps_handle (keeps_bind keeps_read fun _ _ _ => keeps_weaken
    (keeps_emit fun t => .inr (.inr ⟨rfl, fun other hmem => ?_⟩))) fun _ => keeps_done)
    fun _ => keeps_done
  obtain ⟨k, hk, rfl⟩ := List.mem_map.mp hmem
  have hreach := (List.mem_filter.mp hk).2
  simp only [Store.reaches, Bool.and_eq_true, decide_eq_true_eq] at hreach
  exact hreach.2

omit [Runtime] in
theorem keeps_touch {id : String} : Keeps w (fun _ u => Rely s u) (touch id) s :=
  keeps_write fun _ _ _ h => (Database.touches_updateMachine h fun _ => rfl).keys

theorem keeps_storeHeartbeat {id : String} {state : Value} (hw : ∀ k, w ≠ (k, .webSubscribe)) :
    Keeps w (fun _ _ => True) (storeHeartbeat id state) s := by
  refine keeps_bind keeps_read fun settings _ _ => keeps_bind (keeps_write fun _ _ _ h => ?_)
    fun _ _ _ => keeps_bind keeps_touch fun _ _ _ =>
      keeps_weaken (keeps_emit_everyone (fun _ => rfl) hw)
  obtain ⟨fields, -, h⟩ := Option.bind_eq_some_iff.mp h
  exact (Database.touches_upsertState h).keys

omit [Runtime] in
theorem keeps_aggregate {id : String} {a : Activity} {timeSeconds : Int}
    {recent : Option ActivitySession} :
    Keeps w (fun _ u => Rely s u) (aggregate id a timeSeconds recent) s := by
  unfold aggregate
  split
  · refine keeps_write fun _ _ _ h => ?_
    obtain ⟨endTime, -, h⟩ := Option.bind_eq_some_iff.mp h
    exact keysKept_updateSession h
  · refine keeps_write fun _ _ _ h => ?_
    obtain ⟨row, -, h⟩ := Option.bind_eq_some_iff.mp h
    exact (Database.touches_createSession h).keys

theorem keeps_storeActivity {id : String} {activity : Value} (hnamed : named w.2 = some id) :
    Keeps w (fun _ _ => True) (storeActivity id activity) s := by
  refine keeps_bind keeps_get fun a _ _ => keeps_bind (keeps_write fun _ _ _ h => ?_)
    fun _ _ _ => keeps_bind keeps_read fun recent _ _ => keeps_bind keeps_get fun time _ _ =>
      keeps_bind keeps_aggregate fun _ _ _ =>
        keeps_weaken (keeps_emit_room (fun _ => rfl) hnamed)
  obtain ⟨row, -, h⟩ := Option.bind_eq_some_iff.mp h
  exact (Database.touches_createHistory h).keys

theorem keeps_storeAudit {id : String} {ae : Value} (hnamed : named w.2 = some id)
    (hw : ∀ k, w ≠ (k, .webSubscribe)) :
    Keeps w (fun _ _ => True) (storeAudit id ae) s := by
  refine keeps_bind keeps_get fun eventId _ _ => keeps_bind keeps_get fun eventFilter _ _ =>
    keeps_bind keeps_read fun existing _ _ => ?_
  split
  · refine keeps_bind (keeps_write fun _ _ _ h => ?_) fun _ _ _ =>
      keeps_bind (keeps_emit_room (fun _ => rfl) hnamed) fun _ _ _ =>
        keeps_weaken (keeps_emit_everyone (fun _ => rfl) hw)
    obtain ⟨row, -, h⟩ := Option.bind_eq_some_iff.mp h
    exact (Database.touches_createAudit h).keys
  · exact keeps_done

theorem keeps_storeScreenshot {id : String} {screenshot : Value}
    (hnamed : named w.2 = some id) :
    Keeps w (fun _ _ => True) (storeScreenshot id screenshot) s := by
  refine keeps_bind (keeps_write fun _ _ _ h => ?_) fun _ _ _ =>
    keeps_weaken (keeps_emit_room (fun _ => rfl) hnamed)
  obtain ⟨row, -, h⟩ := Option.bind_eq_some_iff.mp h
  exact (Database.touches_createScreenshot h).keys

omit [Runtime] in
/-- The frame of the handlers for active machines. -/
theorem keeps_whenActive {data : Value} {field : String} {store : String → Value → Task Store Unit}
    (hnamed : named w.2 = (prop data "machineId").bind requiredText)
    (hstore : ∀ id payload t, named w.2 = some id →
      Keeps w (fun _ _ => True) (store id payload) t) :
    Keeps w (fun _ _ => True) (whenActive data field store) s := by
  refine keeps_handle (keeps_bind keeps_get ?_) fun _ => keeps_done
  rintro machineId t ⟨hid, -⟩
  refine keeps_bind keeps_get fun payload _ _ => ?_
  split
  · refine keeps_bind keeps_get ?_
    rintro id u ⟨htext, -⟩
    refine keeps_bind keeps_read fun status _ _ => ?_
    split
    · refine hstore id payload _ ?_
      rw [hnamed, hid, Option.bind_some, htext]
    · exact keeps_done
  · exact keeps_done

theorem keeps_machineHeartbeat {data : Value} :
    Keeps (socket, .machineHeartbeat data) (fun _ _ => True) (machineHeartbeat data) s := by
  refine keeps_handle (keeps_bind keeps_get fun machineId _ _ => keeps_bind keeps_get
    fun state _ _ => ?_) fun _ => keeps_done
  split
  · refine keeps_bind keeps_get fun id _ _ => keeps_bind keeps_read fun status _ _ => ?_
    split
    · exact keeps_storeHeartbeat fun _ => nofun
    · exact keeps_weaken keeps_touch
    · exact keeps_done
  · exact keeps_done

/-! ## The handlers that change sockets -/

omit [Runtime] in
/-- A change of the sockets, with the rooms they get. -/
theorem keeps_sockets {f : Store → Store} (hdb : ∀ t, (f t).db = t.db)
    (hconnects : ∀ t, ∀ c ∈ t.connects, c ∈ (f t).connects)
    (hemitted : ∀ t, (f t).emitted = t.emitted)
    (hrooms : ∀ t, Rely s t → ∀ k' ∈ (f t).sockets.rows, ∀ machine,
      machineRoom machine ∈ k'.rooms →
        (∃ k ∈ t.sockets.rows, k.id = k'.id ∧ machineRoom machine ∈ k.rooms) ∨
          Connected (f t) k'.id machine ∨ w = (k'.id, .webWatch machine)) :
    Keeps w (fun _ u => Rely s u) (Tasks.Task.effect f) s := by
  have hrely : ∀ t, Rely t (f t) := fun t => ⟨keysKept_of_machines (by rw [hdb]), hconnects t⟩
  refine Tasks.Task.Guar.effect (fun t hst => ⟨hrely t, hrooms t hst, fun e he => ?_⟩)
    fun t u hst htu => hst.trans ((hrely t).trans htu)
  rw [news, hemitted, List.drop_length] at he
  cases he

omit [Runtime] in
/-- Who is in which room, once one socket is changed. -/
theorem rooms_update {t : Store} {f : Socket → Socket} {hf : ∀ k, (f k).id = k.id}
    {P : String → String → Prop}
    (h : ∀ k ∈ t.sockets.rows, k.id = socket → ∀ machine, machineRoom machine ∈ (f k).rooms →
      machineRoom machine ∈ k.rooms ∨ P k.id machine) :
    ∀ k' ∈ (t.updateSocket socket f hf).sockets.rows, ∀ machine, machineRoom machine ∈ k'.rooms →
      (∃ k ∈ t.sockets.rows, k.id = k'.id ∧ machineRoom machine ∈ k.rooms) ∨ P k'.id machine := by
  intro k' hk' machine hroom
  rcases Store.mem_updateSocket.mp hk' with ⟨hk, -⟩ | ⟨k, hk, hid, rfl⟩
  · exact .inl ⟨k', hk, rfl, hroom⟩
  · rw [hf k]
    exact (h k hk hid machine hroom).imp (fun hold => ⟨k, hk, rfl, hold⟩) id

omit [Runtime] in
theorem machineRoom_inj {a b : String} (h : machineRoom a = machineRoom b) : a = b := by
  simpa [machineRoom] using h

omit [Runtime] in
/-- A change of one socket that adds no room but one it asks to watch. -/
theorem keeps_updateSocket {f : Socket → Socket} {hf : ∀ k, (f k).id = k.id}
    (h : ∀ k, ∀ machine, machineRoom machine ∈ (f k).rooms →
      machineRoom machine ∈ k.rooms ∨ w = (socket, .webWatch machine)) :
    Keeps w (fun _ u => Rely s u)
      (Tasks.Task.effect fun t => t.updateSocket socket f hf) s := by
  refine keeps_sockets (fun _ => rfl) (fun _ _ h => h) (fun _ => rfl) ?_
  intro t _ k' hk' machine hroom
  refine (rooms_update (P := fun k machine => w = (k, .webWatch machine))
    (fun k _ hid machine hroom => ?_) k' hk' machine hroom).imp_right .inr
  exact hid ▸ h k machine hroom

omit [Runtime] in
theorem keeps_webWatch {machineId : String} :
    Keeps (socket, .webWatch machineId) (fun _ _ => True) (webWatch socket machineId) s := by
  unfold webWatch
  split
  · exact keeps_done
  · refine keeps_weaken (keeps_updateSocket fun k machine hroom => ?_)
    rcases List.mem_cons.mp hroom with hnew | hold
    · exact .inr (by rw [machineRoom_inj hnew])
    · exact .inl hold

omit [Runtime] in
theorem keeps_webUnwatch {machineId : String} :
    Keeps w (fun _ _ => True) (webUnwatch socket machineId) s := by
  unfold webUnwatch
  split
  · exact keeps_done
  · exact keeps_weaken (keeps_updateSocket fun k machine hroom =>
      .inl (List.mem_of_mem_filter hroom))

omit [Runtime] in
theorem keeps_disconnect :
    Keeps (socket, .disconnect) (fun _ _ => True) (disconnect socket) s := by
  refine keeps_bind (keeps_updateSocket fun k machine hroom => .inl hroom) fun _ t _ =>
    keeps_bind keeps_look fun machineId u _ => ?_
  split
  · refine keeps_handle (keeps_bind keeps_get fun id v _ => keeps_bind (keeps_write
      fun _ _ _ h => (Database.touches_createConnectionEvent h).keys) fun _ _ _ =>
        keeps_bind (keeps_emit_everyone (fun _ => rfl) fun _ => nofun) fun _ _ _ =>
          keeps_broadcast fun _ => nofun) fun _ => keeps_done
  · exact keeps_done

/-! ## `machine:connect`, from its first step -/

omit [Runtime] in
/-- An event that answers the socket. -/
theorem keeps_answer {target : Target} {event : DateTime → Event}
    (h : ∀ now machine, ¬ mentions (event now) machine)
    (hdetail : ∀ now, isDetail (event now) = false) :
    Keeps w (fun _ _ => True) (emit target event) s := by
  refine keeps_weaken (keeps_emit_plain fun now machine hdiscloses => ?_)
  rcases hdiscloses with hmentions | ⟨hd, -⟩
  · exact h now machine hmentions
  · rw [hdetail] at hd
    cases hd

omit [Runtime] in
/-- Accepting credentials, with the machine's id and key. -/
theorem keeps_accept {id key : String} (hkey : s.db.keyOf id = some key) :
    Keeps w (fun _ u => Rely s u) (accept socket (some (.str id)) (some (.str key))) s := by
  refine keeps_sockets (fun _ => rfl) (fun _ _ h => List.mem_append_left _ h) (fun _ => rfl) ?_
  intro t hst k' hk' machine hroom
  have hk' : k' ∈ (t.updateSocket socket (Presence.markedSocket (some (.str id)))
    (Presence.markedSocket_id _)).sockets.rows := hk'
  refine (rooms_update (P := fun k machine => k = socket ∧ machine = id)
    (fun k _ hid machine hroom => ?_) k' hk' machine hroom).imp_right ?_
  · rcases List.mem_cons.mp hroom with hnew | hold
    · exact .inr ⟨hid, machineRoom_inj hnew⟩
    · exact .inl hold
  · rintro ⟨rfl, rfl⟩
    exact .inl ⟨key, hst.keys _ _ hkey, List.mem_append_right _ (List.mem_singleton_self _)⟩

omit [Runtime] in
/-- What follows accepted credentials. -/
theorem keeps_announce {data machineId : Value} {found : Machine} :
    Keeps (socket, .machineConnect data) (fun _ _ => True) (announce socket machineId found)
      s := by
  refine keeps_bind keeps_get fun id _ _ => keeps_bind keeps_look fun address _ _ =>
    keeps_bind (keeps_write fun _ _ _ h => (Database.touches_updateMachine h fun _ => rfl).keys)
      fun _ _ _ => keeps_bind (keeps_write
        fun _ _ _ h => (Database.touches_createConnectionEvent h).keys) fun _ _ _ => ?_
  split
  · exact keeps_bind (keeps_answer (fun _ _ h => h) fun _ => rfl) fun _ _ _ =>
      keeps_answer (fun _ _ h => h) fun _ => rfl
  · exact keeps_bind (keeps_answer (fun _ _ h => h) fun _ => rfl) fun _ _ _ =>
      keeps_bind (keeps_broadcast fun _ => nofun) fun _ _ _ =>
        keeps_answer (fun _ _ h => h) fun _ => rfl

/-- The triple for a handler that is about to start. -/
abbrev Starts (w : Origin) (p : Task Store Unit) (s : Store) : Prop :=
  p.First Rely (Acts w) (fun _ _ => True) (fun _ => True) s

omit [Runtime] in
theorem starts_of_keeps {p : Task Store Unit} (h : Keeps w (fun _ _ => True) p s) :
    Starts w p s :=
  h.first Rely.refl

omit [Runtime] in
theorem starts_handle {p c : Task Store Unit} (hp : Starts w p s)
    (hc : ∀ t, Keeps w (fun _ _ => True) c t) : Starts w (p.handle c) s :=
  Tasks.Task.First.handle Rely.refl (fun t _ => hc t) hp

omit [Runtime] in
theorem starts_get {o : Option α} {k : α → Task Store Unit}
    (hk : ∀ a, o = some a → Starts w (k a) s) : Starts w (Tasks.Task.get o >>= k) s :=
  Tasks.Task.First.get_bind hk fun _ => trivial

omit [Runtime] in
theorem starts_read {f : Database → α} {k : α → Task Store Unit}
    (hk : ∀ t, Rely s t → Keeps w (fun _ _ => True) (k (f s.db)) t) :
    Starts w (read f >>= k) s := by
  have hread : (read f).First Rely (Acts w) (fun a t => a = f s.db ∧ Rely s t)
      (fun _ => True) s :=
    Tasks.Task.First.query acts_refl (fun t ht => ⟨rfl, ht⟩) fun _ => trivial
  refine hread.bind Rely.refl ?_
  rintro a t ⟨rfl, ht⟩
  exact hk t ht

theorem starts_machineConnect {data : Value} (hadmits : Admits s (socket, .machineConnect data)) :
    Starts (socket, .machineConnect data) (machineConnect socket data) s := by
  have herror : ∀ t error, Keeps (socket, .machineConnect data) (fun _ _ => True)
      (emit (.socket socket) fun _ => .machineError error) t :=
    fun t error => keeps_answer (fun _ _ h => h) fun _ => rfl
  refine starts_handle (starts_get fun machineId hid => starts_get fun apiKey hkey => ?_)
    fun t => herror t _
  split
  · exact starts_of_keeps (herror s _)
  rename_i hgiven
  simp only [findCredentials, Tasks.Task.bind_assoc]
  refine starts_get fun idFilter hidFilter => starts_get fun keyFilter hkeyFilter =>
    starts_read fun t ht => ?_
  split
  · rename_i found hfound
    -- credentials that are accepted are texts
    obtain ⟨id, rfl⟩ := hadmits.2 machineId (by
      rw [Presence.verified_eq hid hkey hgiven hidFilter hkeyFilter, hfound]
      rfl)
    have htruthy : truthy apiKey := by simp at hgiven; exact hgiven.2
    obtain ⟨hrow, rfl⟩ := Channels.key_of_credentials hadmits.1 hid hkey htruthy hidFilter
      hkeyFilter hfound rfl
    exact keeps_bind (keeps_accept (ht.keys id _ hrow)) fun _ _ _ => keeps_announce
  · exact herror t _

/-- **Each handler**, from its first step on: whom it lets into a room, and whom it writes to. -/
theorem first_handler (w : Origin) (hadmits : Admits s w) : Starts w (handler w) s := by
  obtain ⟨socket, message⟩ := w
  cases message with
  | webSubscribe => exact starts_of_keeps keeps_webSubscribe
  | webWatch machineId => exact starts_of_keeps keeps_webWatch
  | webUnwatch machineId => exact starts_of_keeps keeps_webUnwatch
  | machineConnect data => exact starts_machineConnect hadmits
  | machineHeartbeat data => exact starts_of_keeps keeps_machineHeartbeat
  | machineActivity data =>
    exact starts_of_keeps (keeps_whenActive rfl fun _ _ _ hnamed => keeps_storeActivity hnamed)
  | machineAudit data =>
    exact starts_of_keeps (keeps_whenActive rfl fun _ _ _ hnamed =>
      keeps_storeAudit hnamed fun _ => nofun)
  | machineScreenshot data =>
    exact starts_of_keeps (keeps_whenActive rfl fun _ _ _ hnamed => keeps_storeScreenshot hnamed)
  | disconnect => exact starts_of_keeps keeps_disconnect

/-! ## Every run -/

/-- The sockets in a machine's room have connected as it. -/
def Private (s : Store) : Prop :=
  ∀ k ∈ s.sockets.rows, ∀ machine, machineRoom machine ∈ k.rooms → Connected s k.id machine

/-- A step that is admitted keeps the rooms private. -/
theorem private_of_acts (h : Private s) (hacts : Acts w s s') (hadmits : Admits s w) :
    Private s' := by
  intro k' hk' machine hroom
  rcases hacts.rooms k' hk' machine hroom with ⟨k, hk, hid, hold⟩ | hnew | rfl
  · exact hid ▸ connected_stable (h k hk machine hold) hacts.rely
  · exact hnew
  · exact connected_stable hadmits hacts.rely

omit [Runtime] in
/-- What happens beside the handlers keeps them private, and emits nothing. -/
theorem private_outside (h : Private s) (x : Outside) :
    Private (x.apply s) ∧ (x.apply s).emitted = s.emitted := by
  cases x with
  | «open» id address =>
    refine ⟨fun k hk machine hroom => ?_, rfl⟩
    have hk : k ∈ ((s.sockets.create { id, address }).getD s.sockets).rows := hk
    cases hcreate : s.sockets.create { id, address } with
    | none =>
      rw [hcreate] at hk
      exact h k hk machine hroom
    | some sockets =>
      rw [hcreate, Option.getD_some, (Table.create_eq_some.mp hcreate).2] at hk
      rcases List.mem_append.mp hk with hk | hk
      · exact h k hk machine hroom
      · cases List.mem_singleton.mp hk
        cases hroom
  | tick now => exact ⟨h, rfl⟩
  | change f hf =>
    refine ⟨fun k hk machine hroom => ?_, rfl⟩
    exact connected_stable (h k hk machine hroom) ⟨hf s.db, fun _ hc => hc⟩

omit [Runtime] in
theorem rely_outside (x : Outside) (s : Store) : Rely s (x.apply s) := by
  cases x with
  | «open» => exact ⟨fun _ _ h => h, fun _ h => h⟩
  | tick => exact ⟨fun _ _ h => h, fun _ h => h⟩
  | change f hf => exact ⟨hf s.db, fun _ h => h⟩

omit [Runtime] in
theorem not_mentions_of_detail {event : Event} (h : isDetail event = true) (machine : String) :
    ¬ mentions event machine := by
  cases event <;> first | exact id | cases h

omit [Runtime] in
/-- An emission that is in order reaches only those who may have it, if rooms are private and the
    audience has connected. -/
theorem confidential_of_addressed {e : Emission} (h : Private s) (haddressed : Addressed w s e)
    (hmeant : ∀ machine, mentions e.event machine → ∀ socket, Audience s w socket →
      Connected s socket machine) :
    ∀ machine, Discloses w e.event machine → ∀ socket ∈ e.recipients,
      Connected s socket machine := by
  intro machine hdiscloses socket hsocket
  rcases haddressed with hplain | ⟨hdetail, id, hnamed, hroom⟩ | ⟨hdetail, haudience⟩
  · exact absurd hdiscloses (hplain machine)
  · rcases hdiscloses with hmentions | ⟨-, hname⟩
    · exact absurd hmentions (not_mentions_of_detail hdetail machine)
    · cases hnamed.symm.trans hname
      obtain ⟨k, hk, rfl, hin⟩ := hroom socket hsocket
      exact h k hk _ hin
  · rcases hdiscloses with hmentions | ⟨hd, -⟩
    · exact hmeant machine hmentions socket (haudience socket hsocket)
    · rw [hdetail] at hd
      cases hd

/-- What a run keeps. -/
def Inv (p : Pool Origin Store) : Prop := p.Inv handler Rely Acts ∧ Private p.store

/-- **One step**: rooms stay private, and what is emitted reaches only those who may have it. -/
theorem step_spec {p p' : Pool Origin Store} {l : Label Origin Outside} (hi : Inv p)
    (hharm : Harmless p l) (hs : step p l = some p') : Inv p' ∧ Confidential p l p' := by
  have hfirst : ∀ w ∈ p.mover l, Starts w (handler w) p.store :=
    fun w hw => first_handler w (hharm w hw).1
  have hpool := Pool.inv_step Rely.refl (fun _ _ _ => Rely.trans) (fun _ _ _ h => h.rely)
    rely_outside hi.1 hfirst hs
  have hsilent : p'.store.emitted = p.store.emitted → Confidential p l p' := by
    intro he e hmem
    rw [news, he, List.drop_length] at hmem
    cases hmem
  rcases Pool.step_cases hs with ⟨_, rfl, rfl⟩ | ⟨i, w, q, q', t, rfl, hget, hm, rfl⟩ |
    ⟨i, w, q, q', rfl, hget, hf, rfl⟩ | ⟨x, rfl, rfl⟩
  · exact ⟨⟨hpool, hi.2⟩, hsilent rfl⟩
  · have hw : w ∈ p.mover (.advance i : Label Origin Outside) := by simp [Pool.mover, hget]
    obtain ⟨⟨w', hw', hacts⟩, -⟩ := Pool.advance_spec Rely.refl (fun _ _ _ => Rely.trans)
      (fun _ _ _ h => h.rely) hi.1 hfirst hs
    obtain rfl := Option.mem_unique hw hw'
    obtain ⟨hadmits, hmeant⟩ := hharm w hw
    refine ⟨⟨hpool, private_of_acts hi.2 hacts hadmits⟩, fun e he => ⟨w, hw, ?_⟩⟩
    exact confidential_of_addressed hi.2 (hacts.news e he)
      (hmeant e.event ⟨w, q, t, q', hget, hm, e, he, rfl⟩)
  · exact ⟨⟨hpool, hi.2⟩, hsilent rfl⟩
  · obtain ⟨hprivate, he⟩ := private_outside hi.2 x
    exact ⟨⟨hpool, hprivate⟩, hsilent he⟩

end Confidentiality

/-! ## An unknown socket -/

/-- A socket connects as the machine, and watches it. -/
def watching : List (Label Origin Outside) :=
  [.outside (.open "a" "10.0.0.7"),
    .spawn ("a", .machineConnect Presence.credentials), .advance 0, .advance 0,
    .spawn ("a", .webWatch "PC-1"), .advance 1]

/-- A socket that has presented nothing subscribes. -/
def subscribing : List (Label Origin Outside) :=
  [.outside (.open "a" "10.0.0.7"), .spawn ("a", .webSubscribe), .advance 0, .advance 0]

end Server.Confidentiality
