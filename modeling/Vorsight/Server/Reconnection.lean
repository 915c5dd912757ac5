/-
  RECONNECTION (Vorsight.Service/Server/ServerConnection.cs and Clients/VorsightSocketClient.cs),
  against the server's `POST /machines/register` and `machine:connect`.

  The watchdog registers the machine where it has no key, opens the socket and sends the
  credentials.  Where the server rejects them, they are deleted, the machine is registered again and
  the new ones are sent; each rejection begins a call of its own, so several are under way at once.
  What is sent arrives in order, and the calls go on in any order.

  1. **The steps** (`step`): the watchdog and the calls of `HandleCredentialFailureAsync` at their
     awaits, the messages of both directions, and what may happen from outside.

  2. **The server's half** (`replies_known`, `replies_unknown`): a pair that is known is accepted,
     and any other is answered with one error.

  3. **It settles** (`reconnects`): from any state at rest and while nothing fails, a round of the
     watchdog ends, after a bounded number of steps in any order, with an accepted handshake.  The
     weight of what is under way falls with each step (`calm_step`), as long as there is no accepted
     handshake something is under way (`Inv.hope`), and what is under way goes on (`exists_step`).
-/
import Mathlib.Algebra.GroupWithZero.Nat
import Vorsight.Library.Run
import Vorsight.Server.Registration

namespace Server.Reconnection

open Js Tables Tasks Registration Runs

/-! ## The client -/

/-- A call that goes on later; `watchdog` tells `EnsureConnectedAsync` from
    `HandleCredentialFailureAsync`. -/
inductive Call
  /-- the request to register is under way, with the id it names -/
  | requested (watchdog : Bool) (machineId : Option String)
  /-- the answer is under way; `none` is an exception -/
  | answered (watchdog : Bool) (response : Option RegistrationResponse)
  /-- `SaveCredentialsAsync` -/
  | saving (watchdog : Bool) (machineId apiKey : String)
  /-- `_socket.ConnectAsync()`, with the credentials to be sent after it -/
  | dialing (machineId apiKey : Option String)

structure State where
  server : Store
  client : ServerConnection
  isConnected : Bool := false
  /-- the socket that is connected -/
  socket : Option String := none
  /-- the credentials of each `machine:connect` under way -/
  outbox : List (Option String × Option String) := []
  inbox : List Event := []
  calls : List Call := []

/-- `_socket.EmitAsync("machine:connect", …)` -/
def State.send (s : State) (machineId apiKey : Option String) : State :=
  { s with outbox := s.outbox ++ [(machineId, apiKey)] }

/-- `_realtimeClient.ConnectAsync(_machineId, _apiKey)` -/
def State.connectAsync (s : State) : State :=
  if s.socket.isSome then s.send s.client.machineId s.client.apiKey
  else { s with calls := s.calls ++ [.dialing s.client.machineId s.client.apiKey] }

/-- What follows the registration. -/
def State.registered (s : State) (watchdog : Bool) : State :=
  if watchdog && s.socket.isSome && s.isConnected then s
  else if (!watchdog || s.socket.isSome) && isNullOrEmpty s.client.apiKey then s
  else s.connectAsync

/-- `EnsureConnectedAsync` on Windows, to its first await; `generated` is
    `GenerateMachineId()`. -/
def State.ensureConnectedAsync (s : State) (generated : String) : State :=
  if isNullOrEmpty s.client.apiKey then
    let machineId := if isNullOrEmpty s.client.machineId then some generated
      else s.client.machineId
    { s with client.machineId := machineId, calls := s.calls ++ [.requested true machineId] }
  else s.registered true

section Step

variable [Runtime] [OrdinalCase] (machineName : String)

/-- The errors that mean new credentials are needed. -/
def rejects (error : String) : Bool :=
  equalsIgnoreCase (some error) (some "Invalid credentials") ||
    equalsIgnoreCase (some error) (some "Missing credentials")

/-- An event from the server.  `deletes` says whether the stored credentials can be deleted; where
    they cannot, the recovery ends with an error that is logged. -/
def State.receive (s : State) (deletes : Bool) : Event → State
  | .machineConnected => { s with isConnected := true }
  | .machineError error =>
    if rejects error && deletes then
      { s with
        client := { s.client with apiKey := none, stored := none }
        calls := s.calls ++ [.requested false s.client.machineId] }
    else s
  | _ => s

/-- The answer to a registration; a failed one ends the call. -/
def State.answer (s : State) (watchdog : Bool) : Option RegistrationResponse → State
  | some { success := true, apiKey, machineId } =>
    let client := { s.client with apiKey, machineId := adoptCanonical s.client.machineId machineId }
    match client.machineId, client.apiKey with
    | some machineId, some apiKey =>
      if machineId ≠ "" ∧ apiKey ≠ "" then
        { s with client, calls := s.calls ++ [.saving watchdog machineId apiKey] }
      else { s with client }.registered watchdog
    | _, _ => { s with client }.registered watchdog
  | _ => s

/-- The socket is connected: `OnConnected` authenticates it. -/
def State.openSocket (s : State) (id address : String) : Option State :=
  (s.server.sockets.create { id, address }).map fun sockets =>
    let opened := { s with server.sockets := sockets, socket := some id }
    if isNullOrEmpty s.client.machineId then opened
    else opened.send s.client.machineId s.client.apiKey

/-- What has been emitted to a socket between `t` and `u`. -/
def replies (socket : String) (t u : Store) : List Event :=
  ((u.emitted.drop t.emitted.length).filter (socket ∈ ·.recipients)).map Emission.event

/-- What the server makes of a `machine:connect`. -/
def handled (socket : String) (pair : Option String × Option String) (t : Store) : Store :=
  ((machineConnect socket (connectData ⟨pair.1, pair.2, none⟩)).exec t).1

inductive Label
  | watchdog (generated : String)
  /-- the socket is lost -/
  | disconnect
  /-- the library opens it again by itself -/
  | reconnect (socket address : String)
  /-- whatever else happens to the server's database -/
  | database (db : Database)
  /-- the server handles the first `machine:connect` under way -/
  | serve
  /-- the client handles the first event under way -/
  | deliver (deletes : Bool)
  /-- the server handles the registration of a call -/
  | post (i : Nat) (key : RandomKey)
  /-- the request of a call fails -/
  | fail (i : Nat)
  | answer (i : Nat)
  | save (i : Nat) (saves : Bool)
  /-- `_socket.ConnectAsync()` ends; `none` is an exception -/
  | dial (i : Nat) (socket : Option (String × String))

def lost (k : Socket) : Socket := { k with connected := false }

/-- The call is taken from the list. -/
def State.take (s : State) (i : Nat) : State := { s with calls := s.calls.eraseIdx i }

def step (s : State) : Label → Option State
  | .watchdog generated => some (s.ensureConnectedAsync generated)
  | .disconnect => s.socket.map fun socket => { s with
      server := s.server.updateSocket socket lost fun _ => rfl
      socket := none, outbox := [], inbox := [], isConnected := false }
  | .reconnect socket address => if s.socket.isNone then s.openSocket socket address else none
  | .database db => some { s with server.db := db }
  | .serve =>
    match s.socket, s.outbox with
    | some socket, pair :: outbox =>
      let server := handled socket pair s.server
      some { s with server, outbox, inbox := s.inbox ++ replies socket s.server server }
    | _, _ => none
  | .deliver deletes =>
    match s.inbox with
    | event :: inbox => some ({ s with inbox }.receive deletes event)
    | [] => none
  | .post i key =>
    match s.calls[i]? with
    | some (.requested watchdog machineId) =>
      let posted := (postRegister (registrationData machineId machineName) key.text).exec s.server
      some { s with
        server := posted.1
        calls := s.calls.eraseIdx i ++ [.answered watchdog (posted.2.bind readResponse)] }
    | _ => none
  | .fail i =>
    match s.calls[i]? with
    | some (.requested watchdog _) =>
      some { s with calls := s.calls.eraseIdx i ++ [.answered watchdog none] }
    | _ => none
  | .answer i =>
    match s.calls[i]? with
    | some (.answered watchdog response) => some ((s.take i).answer watchdog response)
    | _ => none
  | .save i saves =>
    match s.calls[i]? with
    | some (.saving watchdog machineId apiKey) =>
      if saves then
        some ({ s.take i with client.stored := some (machineId, apiKey) }.registered watchdog)
      else some (s.take i)
    | _ => none
  | .dial i socket =>
    match s.calls[i]? with
    | some (.dialing machineId apiKey) =>
      match socket with
      | some (id, address) =>
        if s.socket.isSome then some ((s.take i).send machineId apiKey)
        else ((s.take i).openSocket id address).map (·.send machineId apiKey)
      | none => some (s.take i)
    | _ => none

end Step

/-! ## The server's half -/

section Server

variable [Runtime] {t u : Store} {socket : String} {machineId apiKey : Option String}

/-- The machines as a registration and a handshake see them. -/
def identities (db : Database) : List (String × String × String) :=
  db.machines.rows.map fun m => (m.id, m.name, m.apiKey)

/-- The server has the socket, and it is connected. -/
def Open (t : Store) (socket : String) : Prop :=
  ∃ k ∈ t.sockets.rows, k.id = socket ∧ k.connected = true

/-- The handler has emitted the events to the socket, and not touched what others look at. -/
structure Emits (socket : String) (t : Store) (events : List Event) (u : Store) : Prop where
  opens : Open u socket
  same : identities u.db = identities t.db
  before : t.emitted <+: u.emitted
  replies : replies socket t u = events

omit [Runtime] in
theorem Emits.refl (h : Open t socket) : Emits socket t [] t := by
  refine ⟨h, rfl, List.prefix_refl _, ?_⟩
  rw [Reconnection.replies, List.drop_length]
  rfl

omit [Runtime] in
/-- One more event, to the socket or to everyone. -/
theorem Emits.emit {events : List Event} (h : Emits socket t events u) {target : Target}
    (htarget : target = .socket socket ∨ target = .everyone) (event : Event) :
    Emits socket t (events ++ [event]) (u.emit target event) := by
  have hmem : socket ∈ (u.sockets.rows.filter (Store.reaches target)).map Socket.id := by
    obtain ⟨k, hk, rfl, hconnected⟩ := h.opens
    refine List.mem_map_of_mem (List.mem_filter.mpr ⟨hk, ?_⟩)
    rcases htarget with rfl | rfl <;> simp [Store.reaches, hconnected]
  obtain ⟨es, hes⟩ := h.before
  have hreplies := h.replies
  rw [Reconnection.replies, ← hes, List.drop_left] at hreplies
  refine ⟨h.opens, h.same, h.before.trans (List.prefix_append _ _), ?_⟩
  · rw [Reconnection.replies, Store.emit, ← hes, List.append_assoc, List.drop_left,
      List.filter_append, List.map_append, hreplies]
    have hlast : [(⟨event, (u.sockets.rows.filter (Store.reaches target)).map Socket.id⟩ :
        Emission)].filter (socket ∈ ·.recipients) = [⟨event, _⟩] :=
      List.filter_cons_of_pos (decide_eq_true hmem)
    rw [hlast]
    rfl

omit [Runtime] in
/-- A change of the database that leaves the identities alone. -/
theorem Emits.write {events : List Event} (h : Emits socket t events u) {db : Database}
    (hsame : identities db = identities u.db) : Emits socket t events { u with db } :=
  ⟨h.opens, hsame.trans h.same, h.before, h.replies⟩

omit [Runtime] in
theorem identities_update {db db' : Database} {id : String} {f : Machine → Machine}
    {hf : ∀ m, (f m).id = m.id} (h : db.updateMachine id f hf = some db')
    (hkeep : ∀ m, (f m).name = m.name ∧ (f m).apiKey = m.apiKey) :
    identities db' = identities db := by
  obtain ⟨-, rfl⟩ := Database.forMachine_eq_some.mp h
  unfold identities
  rw [Table.rows_update, List.map_map]
  refine List.map_congr_left fun m _ => ?_
  show (fun m : Machine => (m.id, m.name, m.apiKey)) (if m.id = id then f m else m) = _
  split
  · show ((f m).id, (f m).name, (f m).apiKey) = _
    rw [hf, (hkeep m).1, (hkeep m).2]
  · rfl

omit [Runtime] in
/-- What follows accepted credentials. -/
theorem emits_announce {id : String} {m : Machine} (machine : Machine)
    (hm : u.db.machines.find id = some m) (h : Emits socket t [] u) : ∃ events,
      Emits socket t events ((announce socket (some (.str id)) machine).exec u).1 ∧
      ((announce socket (some (.str id)) machine).exec u).2 = some () ∧
      .machineConnected ∈ events ∧ (∀ error, .machineError error ∉ events) ∧
      events.length ≤ 3 := by
  obtain ⟨db, hupdate, hfound⟩ : ∃ db, u.db.updateMachine id (fun m => { m with
      lastSeen := some u.now, ipAddress := (u.sockets.find socket).map (·.address) })
      (fun _ => rfl) = some db ∧ (db.machines.find id).isSome := by
    refine ⟨_, Database.forMachine_eq_some.mpr ⟨by rw [hm]; rfl, rfl⟩, ?_⟩
    rw [Table.find_update, if_pos rfl, hm]
    rfl
  obtain ⟨db', hcreate⟩ : ∃ db', db.createConnectionEvent id
      { id := 0, machineId := id, eventType := "Connected", timestamp := u.now } = some db' :=
    ⟨_, Database.forMachine_eq_some.mpr ⟨hfound, rfl⟩⟩
  have hsame : identities db' = identities u.db := by
    have hfirst := identities_update hupdate fun _ => ⟨rfl, rfl⟩
    obtain ⟨-, rfl⟩ := Database.forMachine_eq_some.mp hcreate
    exact hfirst
  have hwritten := h.write hsame
  rw [announce, requiredText, Task.get_some, Task.done_bind,
    Task.exec_bind_of (Task.exec_look _ u), Task.exec_bind_of (exec_write_some hupdate),
    Task.exec_bind_of (exec_write_some (s := { u with db }) hcreate)]
  by_cases harchived : machine.status = .archived
  · rw [if_pos harchived, Task.exec_bind_of (exec_emit _ _ _)]
    refine ⟨_, (hwritten.emit (.inl rfl) .machineConnected).emit (.inl rfl) (.machineArchived id _),
      rfl, ?_, ?_, ?_⟩ <;> simp
  · obtain ⟨machines, hlist⟩ : ∃ machines, (broadcastMachineList .everyone).exec
        (({ u with db := db' } : Store).emit .everyone (.machineOnline id u.now)) =
        ((({ u with db := db' } : Store).emit .everyone (.machineOnline id u.now)).emit .everyone
          (.machinesList machines), some ()) := ⟨_, rfl⟩
    rw [if_neg harchived, Task.exec_bind_of (exec_emit _ _ _), Task.exec_bind_of hlist]
    refine ⟨_, ((hwritten.emit (.inr rfl) (.machineOnline id _)).emit (.inr rfl)
      (.machinesList machines)).emit (.inl rfl) .machineConnected, rfl, ?_, ?_, ?_⟩ <;> simp

/-- The pair is that of a machine. -/
def known (db : Database) (pair : Option String × Option String) : Bool :=
  (identities db).any fun (id, _, key) =>
    pair.1 = some id && pair.2 = some key && id ≠ "" && key ≠ ""

omit [Runtime] in
theorem known_iff {db : Database} {pair : Option String × Option String} : known db pair = true ↔
    ∃ m ∈ db.machines.rows, pair = (some m.id, some m.apiKey) ∧ m.id ≠ "" ∧ m.apiKey ≠ "" := by
  obtain ⟨machineId, apiKey⟩ := pair
  simp only [known, identities, List.any_map, List.any_eq_true, Function.comp_def,
    Bool.and_eq_true, decide_eq_true_eq, Prod.mk.injEq, and_assoc]

/-- **A known pair is accepted.** -/
theorem replies_known {pair : Option String × Option String} (hopen : Open t socket)
    (hknown : known t.db pair = true) : ∃ events,
      Emits socket t events (handled socket pair t) ∧ .machineConnected ∈ events ∧
      (∀ error, .machineError error ∉ events) ∧ events.length ≤ 3 := by
  obtain ⟨m, hm, rfl, hid, hkey⟩ := known_iff.mp hknown
  have hgiven : ¬ (isNullOrEmpty (some m.id) || isNullOrEmpty (some m.apiKey)) = true := by
    simp [isNullOrEmpty, hid, hkey]
  obtain ⟨found, hfind⟩ : ∃ found, t.db.machines.rows.find? (fun row =>
      row.id = m.id && row.apiKey = m.apiKey) = some found := by
    refine Option.isSome_iff_exists.mp (List.find?_isSome.mpr ⟨m, hm, ?_⟩)
    simp
  have hcredentials : (findCredentials (some (.str m.id)) (some (.str m.apiKey))).exec t =
      (t, some (some found)) := by
    rw [← hfind]
    rfl
  let accepted := ((accept socket (some (.str m.id)) (some (.str m.apiKey))).exec t).1
  have haccepted : Emits socket t [] accepted := by
    obtain ⟨k, hk, hkid, hconnected⟩ := hopen
    have hchanged := @Store.mem_updateSocket t socket
      (fun k => { k with
        machineId := some (.str m.id)
        rooms := machineRoom (template (some (.str m.id))) :: k.rooms })
      (fun _ => rfl)
    refine ⟨⟨_, hchanged.mpr (.inr ⟨k, hk, hkid, rfl⟩), hkid, hconnected⟩, rfl,
      List.prefix_refl _, ?_⟩
    show ((t.emitted.drop t.emitted.length).filter _).map _ = []
    rw [List.drop_length]
    rfl
  obtain ⟨events, hemits, hdone, hconnected, herror, hlength⟩ := emits_announce found
    (Table.find_eq_some.mpr ⟨hm, rfl⟩ : accepted.db.machines.find m.id = some m)
    haccepted
  refine ⟨events, ?_, hconnected, herror, hlength⟩
  have hrun : (accept socket (some (.str m.id)) (some (.str m.apiKey)) >>= fun _ =>
      announce socket (some (.str m.id)) found).exec t =
        (((announce socket (some (.str m.id)) found).exec accepted).1, some ()) :=
    Prod.ext rfl hdone
  rw [handled, connectData, machineConnect_eq, if_neg hgiven, Task.exec_handle,
    nullable, nullable, Task.exec_bind_of hcredentials]
  dsimp only
  rw [hrun]
  exact hemits

/-- **Any other pair is answered with one error**, for which new credentials are needed. -/
theorem replies_unknown [OrdinalCase] {pair : Option String × Option String}
    (hopen : Open t socket) (hunknown : known t.db pair = false) : ∃ error,
      Emits socket t [.machineError error] (handled socket pair t) ∧ rejects error = true := by
  have hone : ∀ error, Emits socket t [.machineError error]
      (t.emit (.socket socket) (.machineError error)) :=
    fun error => (Emits.refl hopen).emit (.inl rfl) (.machineError error)
  obtain ⟨machineId, apiKey⟩ := pair
  rw [handled, connectData, machineConnect_eq, Task.exec_handle]
  by_cases hempty : isNullOrEmpty machineId || isNullOrEmpty apiKey
  · rw [if_pos hempty, exec_emit]
    exact ⟨"Missing credentials", hone _, by simp [rejects, equalsIgnoreCase]⟩
  rw [if_neg hempty]
  obtain ⟨hidGiven, hkeyGiven⟩ := Bool.or_eq_false_iff.mp (Bool.eq_false_iff.mpr hempty)
  obtain ⟨id, rfl, hid⟩ := exists_of_isNullOrEmpty hidGiven
  obtain ⟨key, rfl, hkey⟩ := exists_of_isNullOrEmpty hkeyGiven
  have hnone : t.db.machines.rows.find? (fun m => m.id = id && m.apiKey = key) = none := by
    refine List.find?_eq_none.mpr fun m hm hmatch => ?_
    obtain ⟨rfl, rfl⟩ : m.id = id ∧ m.apiKey = key := by simpa using hmatch
    rw [known_iff.mpr ⟨m, hm, rfl, hid, hkey⟩] at hunknown
    cases hunknown
  have hcredentials : (findCredentials (some (.str id)) (some (.str key))).exec t =
      (t, some none) := by
    rw [← hnone]
    rfl
  rw [nullable, nullable, Task.exec_bind_of hcredentials]
  exact ⟨"Invalid credentials", hone _, by simp [rejects, equalsIgnoreCase]⟩

end Server

/-! ## Registrations -/

section Registrations

variable [Runtime] {machineName : String} {db db' : Database} {machineId : Option String}

/-- Id and key of the machine that a registration is answered with, if there is one. -/
def target (machineName : String) (db : Database) (machineId : Option String) :
    Option (String × String) :=
  (existing db machineId machineName).map fun m => (m.id, m.apiKey)

omit [Runtime] in
theorem target_congr (h : identities db' = identities db) :
    target machineName db' machineId = target machineName db machineId := by
  have hread : ∀ db, target machineName db machineId =
      ((machineId.bind fun id => (identities db).find? (·.1 = id)).or
        ((identities db).find? (·.2.1 = machineName))).map fun row => (row.1, row.2.2) := by
    intro db
    unfold target existing identities
    cases machineId with
    | none =>
      rw [Option.bind_none, Option.bind_none, Option.none_or, Option.none_or, List.find?_map,
        Option.map_map]
      rfl
    | some id =>
      rw [Option.bind_some, Option.bind_some, List.find?_map, List.find?_map, ← Option.map_or,
        Option.map_map]
      rfl
  rw [hread, hread, h]

omit [Runtime] in
theorem mem_of_existing {m : Machine} (h : existing db machineId machineName = some m) :
    m ∈ db.machines.rows := by
  rcases Option.or_eq_some_iff.mp h with hfind | ⟨-, hname⟩
  · obtain ⟨id, -, hfind⟩ := Option.bind_eq_some_iff.mp hfind
    exact (Table.find_eq_some.mp hfind).1
  · exact List.mem_of_find?_eq_some hname

omit [Runtime] in
/-- The pair of the target is known. -/
theorem known_target {id key : String} (h : target machineName db machineId = some (id, key))
    (hid : id ≠ "") (hkey : key ≠ "") : known db (some id, some key) = true := by
  obtain ⟨m, hm, hpair⟩ := Option.map_eq_some_iff.mp h
  cases hpair
  exact known_iff.mpr ⟨m, mem_of_existing hm, rfl, hid, hkey⟩

omit [Runtime] in
/-- A machine is found under its own id. -/
theorem target_own {m : Machine} (hm : m ∈ db.machines.rows) :
    target machineName db (some m.id) = some (m.id, m.apiKey) := by
  have hfind : db.machines.find m.id = some m := Table.find_eq_some.mpr ⟨hm, rfl⟩
  rw [target, existing, Option.bind_some, hfind]
  rfl

variable {t : Store} {key : RandomKey}

/-- A registration touches no socket and removes no machine. -/
theorem posted_frame {u : Store} {response : RegistrationResponse}
    (hu : ((postRegister (registrationData machineId machineName) key.text).exec t).1 = u)
    (h : ((postRegister (registrationData machineId machineName) key.text).exec t).2.bind
      readResponse = some response) :
    u.sockets = t.sockets ∧ ∀ row ∈ identities t.db, row ∈ identities u.db := by
  rw [postRegister_eq] at h hu
  have hnotEmpty : ¬ (isNullOrEmpty machineId || machineName = "") = true := by
    intro hempty
    rw [if_pos hempty] at h
    cases h
  rw [if_neg hnotEmpty] at h hu
  obtain ⟨hgiven, hname⟩ : isNullOrEmpty machineId = false ∧ machineName ≠ "" := by
    simpa using hnotEmpty
  obtain ⟨id, rfl, -⟩ := exists_of_isNullOrEmpty hgiven
  cases hex : existing t.db (some id) machineName with
  | some m =>
    have hrun := Task.exec_bind_of (k := (respond · machineName)) <|
      exec_registerMachine_existing hname (some (.str machineName)) key.text hex
    rw [nullable, Task.exec_handle, hrun] at hu
    rw [← hu]
    exact ⟨rfl, fun _ hrow => hrow⟩
  | none =>
    rcases exec_registerMachine_new hname key.text hex with ⟨hthrow, -⟩ |
      ⟨db', row, -, -, hcreate, hrun⟩
    · rw [nullable, Task.exec_handle, Task.exec_bind, hthrow] at h
      cases h
    · have hrun := Task.exec_bind_of (k := (respond · machineName)) hrun
      rw [nullable, Task.exec_handle, hrun] at hu
      rw [← hu]
      refine ⟨rfl, fun entry hentry => ?_⟩
      show entry ∈ identities db'
      unfold Database.createMachine at hcreate
      split at hcreate
      · cases hcreate
      · obtain ⟨machines, hrows, rfl⟩ := Option.map_eq_some_iff.mp hcreate
        unfold identities at hentry ⊢
        rw [(Table.create_eq_some.mp hrows).2, List.map_append]
        exact List.mem_append_left _ hentry

/-- What a registration that is answered changes: a machine may be added. -/
theorem posted {u : Store} {response : RegistrationResponse}
    (hu : ((postRegister (registrationData machineId machineName) key.text).exec t).1 = u)
    (h : ((postRegister (registrationData machineId machineName) key.text).exec t).2.bind
      readResponse = some response) :
    u.sockets = t.sockets ∧ (∀ row ∈ identities t.db, row ∈ identities u.db) ∧
      ∃ id key, response = { success := true, apiKey := some key, machineId := some id } ∧
        target machineName u.db machineId = some (id, key) ∧
        (u.db = t.db ∨ target machineName t.db machineId = none ∧ machineId = some id ∧
          id ≠ "" ∧ key ≠ "") := by
  obtain ⟨m, hm, hresponse, hgiven, hcase⟩ := answer_cases h
  rw [hu] at hm hcase
  have hown : machineId = some m.id ∧ m.id ≠ "" ∨ u.db = t.db := by
    rcases hcase with ⟨-, hdb⟩ | ⟨-, hown, -⟩
    · exact .inr hdb
    · refine .inl ⟨hown, ?_⟩
      simpa [hown, isNullOrEmpty] using hgiven
  have htarget : target machineName u.db machineId = some (m.id, m.apiKey) := by
    rcases hcase with ⟨hex, hdb⟩ | ⟨-, hown, -⟩
    · rw [hdb, target, hex]
      rfl
    · rw [hown]
      exact target_own hm
  have hframe := posted_frame hu h
  refine ⟨hframe.1, hframe.2, m.id, m.apiKey, hresponse, htarget, ?_⟩
  rcases hcase with ⟨-, hdb⟩ | ⟨hnone, hown, hkey⟩
  · exact .inl hdb
  · refine .inr ⟨?_, hown, ?_, hkey ▸ key.ne_empty⟩
    · rw [target, hnone]
      rfl
    · simpa [hown, isNullOrEmpty] using hgiven

/-- A registration with a new key is answered. -/
theorem exists_posted (hname : machineName ≠ "") (hid : isNullOrEmpty machineId = false)
    (hkey : ∀ m ∈ t.db.machines.rows, m.apiKey ≠ key.text) : ∃ response,
      ((postRegister (registrationData machineId machineName) key.text).exec t).2.bind
        readResponse = some response := by
  rw [postRegister_eq, if_neg (by simp [hid, hname])]
  obtain ⟨id, rfl, -⟩ := exists_of_isNullOrEmpty hid
  cases hex : existing t.db (some id) machineName with
  | some m =>
    have hrun := Task.exec_bind_of (k := (respond · machineName)) <|
      exec_registerMachine_existing hname (some (.str machineName)) key.text hex
    rw [nullable, Task.exec_handle, hrun]
    exact ⟨_, rfl⟩
  | none =>
    rcases exec_registerMachine_new hname key.text hex with ⟨-, m, hm, htaken⟩ |
      ⟨db, row, -, -, -, hrun⟩
    · exact absurd htaken (hkey m hm)
    · have hrun := Task.exec_bind_of (k := (respond · machineName)) hrun
      rw [nullable, Task.exec_handle, hrun]
      exact ⟨_, rfl⟩

end Registrations

/-! ## While nothing fails -/

section Calm

variable [Runtime] [OrdinalCase] (machineName : String)

/-- Nothing fails, nothing happens from outside, and a random key is new; credentials that are being
    written by another call may be locked. -/
def Calm (s : State) : Label → Prop
  | .serve => True
  | .deliver deletes => deletes = true ∨ s.calls ≠ []
  | .post _ key => ∀ m ∈ s.server.db.machines.rows, m.apiKey ≠ key.text
  | .answer _ => True
  | .save _ saves => saves = true ∨ 2 ≤ s.calls.length
  | .dial _ socket => socket ≠ none
  | _ => False

instance (s : State) : ∀ a, Decidable (Calm s a)
  | .serve => .isTrue trivial
  | .deliver deletes => inferInstanceAs (Decidable (deletes = true ∨ s.calls ≠ []))
  | .post _ key => inferInstanceAs (Decidable (∀ m ∈ s.server.db.machines.rows,
      m.apiKey ≠ key.text))
  | .answer _ => .isTrue trivial
  | .save _ saves => inferInstanceAs (Decidable (saves = true ∨ 2 ≤ s.calls.length))
  | .dial _ socket => inferInstanceAs (Decidable (socket ≠ none))
  | .watchdog _ => .isFalse id
  | .disconnect => .isFalse id
  | .reconnect .. => .isFalse id
  | .database _ => .isFalse id
  | .fail _ => .isFalse id

/-- The credentials of a new registration will come. -/
def Call.asks : Call → Bool
  | .requested .. => true
  | .answered .. => true
  | _ => false

def Call.isDialing : Call → Bool
  | .dialing .. => true
  | _ => false

variable (own : Option String)

/-- The id the client began with, or the one of the target. -/
def Ours (s : State) (machineId : Option String) : Prop :=
  machineId = own ∨
    ∃ id key, target machineName s.server.db own = some (id, key) ∧ machineId = some id

/-- What a call under way holds. -/
def Fits (s : State) : Call → Prop
  | .requested _ machineId => Ours machineName own s machineId
  | .answered _ response => ∃ id key, target machineName s.server.db own = some (id, key) ∧
      response = some { success := true, apiKey := some key, machineId := some id }
  | _ => True

/-- Something will lead to an accepted handshake, or has. -/
def Hope (s : State) : Prop :=
  s.isConnected = true ∨ .machineConnected ∈ s.inbox ∨ s.outbox ≠ [] ∨
    (∃ error, .machineError error ∈ s.inbox ∧ rejects error = true) ∨ s.calls ≠ []

structure Inv (s : State) : Prop where
  recognised : ∀ id key, target machineName s.server.db own = some (id, key) → id ≠ "" ∧ key ≠ "" ∧
    (some id = own ∨ equalsIgnoreCase (some id) own = false)
  machine : Ours machineName own s s.client.machineId
  calls : ∀ c ∈ s.calls, Fits machineName own s c
  /-- while calls go on, the pair is the target's, or has no key yet -/
  pair : ∀ c ∈ s.calls, c.isDialing = false → isNullOrEmpty s.client.apiKey = true ∨
    ∃ id key, target machineName s.server.db own = some (id, key) ∧
      s.client.machineId = some id ∧ s.client.apiKey = some key
  key : isNullOrEmpty s.client.apiKey = true → ∃ c ∈ s.calls, c.asks = true
  hope : Hope s
  down : s.socket = none → s.outbox = [] ∧ s.inbox = [] ∧ s.isConnected = false ∧
    s.calls.length = 1
  up : ∀ socket, s.socket = some socket →
    Open s.server socket ∧ ∀ c ∈ s.calls, c.isDialing = false

/-! ### What is under way -/

def pairWeight (db : Database) (pair : Option String × Option String) : Nat :=
  if known db pair then 4 else 14

def eventWeight : Event → Nat
  | .machineError _ => 13
  | _ => 1

def Call.weight : Call → Nat
  | .requested .. => 12
  | .answered .. => 11
  | .saving .. => 10
  | .dialing .. => 1

def weight (s : State) : Nat :=
  (s.outbox.map (pairWeight s.server.db)).sum + (s.inbox.map eventWeight).sum +
    (s.calls.map Call.weight).sum + if s.socket.isSome then 0 else 100

variable {machineName own} {s s' : State}

omit [Runtime] [OrdinalCase] in
/-- A call that is taken leaves the others. -/
theorem weight_eraseIdx {calls : List Call} {i : Nat} {c : Call} (h : calls[i]? = some c) :
    (calls.map Call.weight).sum = c.weight + ((calls.eraseIdx i).map Call.weight).sum := by
  induction calls generalizing i with
  | nil => cases h
  | cons head calls ih =>
    cases i with
    | zero =>
      cases h
      rfl
    | succ i =>
      rw [List.getElem?_cons_succ] at h
      rw [List.eraseIdx_cons_succ, List.map_cons, List.map_cons, List.sum_cons, List.sum_cons, ih h]
      omega

omit [Runtime] [OrdinalCase] in
/-- A call that goes on as another. -/
theorem weight_goesOn {calls : List Call} {i : Nat} {c : Call} (h : calls[i]? = some c)
    (c' : Call) : ((calls.eraseIdx i ++ [c']).map Call.weight).sum + c.weight =
      (calls.map Call.weight).sum + c'.weight := by
  rw [weight_eraseIdx h, List.map_append, List.sum_append, List.map_singleton, List.sum_singleton]
  omega

omit [Runtime] [OrdinalCase] in
theorem forall_goesOn {P : Call → Prop} {calls : List Call} {i : Nat} {c' : Call}
    (h : ∀ c ∈ calls, P c) (hlast : P c') : ∀ c ∈ calls.eraseIdx i ++ [c'], P c := by
  intro c hmem
  rcases List.mem_append.mp hmem with hmem | hmem
  · exact h c (List.mem_of_mem_eraseIdx hmem)
  · obtain rfl := List.mem_singleton.mp hmem
    exact hlast

omit [Runtime] [OrdinalCase] in
theorem pairWeight_le {db db' : Database} (h : ∀ row ∈ identities db, row ∈ identities db')
    (pairs : List (Option String × Option String)) :
    (pairs.map (pairWeight db')).sum ≤ (pairs.map (pairWeight db)).sum := by
  have hpair : ∀ pair, pairWeight db' pair ≤ pairWeight db pair := by
    intro pair
    have hknown : known db pair = true → known db' pair = true := by
      intro hk
      unfold known at hk ⊢
      obtain ⟨row, hrow, hmatch⟩ := List.any_eq_true.mp hk
      exact List.any_eq_true.mpr ⟨row, h row hrow, hmatch⟩
    unfold pairWeight
    split
    · split <;> omega
    next hunknown =>
      rw [if_neg fun hk => hunknown (hknown hk)]
  induction pairs with
  | nil => exact Nat.le_refl 0
  | cons pair pairs ih =>
    have hhead := hpair pair
    rw [List.map_cons, List.map_cons, List.sum_cons, List.sum_cons]
    omega

omit [Runtime] [OrdinalCase] in
theorem pairWeight_pos (db : Database) (pair : Option String × Option String) :
    4 ≤ pairWeight db pair ∧ pairWeight db pair ≤ 14 := by
  unfold pairWeight
  split <;> omega

omit [Runtime] [OrdinalCase] in
theorem pairWeight_sum_le (db : Database) (pairs : List (Option String × Option String)) :
    (pairs.map (pairWeight db)).sum ≤ 14 * pairs.length := by
  induction pairs with
  | nil => exact Nat.le_refl 0
  | cons pair pairs ih =>
    have hpair := (pairWeight_pos db pair).2
    rw [List.map_cons, List.sum_cons, List.length_cons]
    omega

/-! ### Each step -/

omit [Runtime] in
theorem hope_calls (h : s.calls ≠ []) : Hope s := .inr (.inr (.inr (.inr h)))

omit [Runtime] in
/-- The last call is the only one while the socket is down. -/
theorem Inv.alone (h : Inv machineName own s) (hdown : s.socket = none) {i : Nat} {c : Call}
    (hc : s.calls[i]? = some c) : s.calls = [c] ∧ s.calls.eraseIdx i = [] := by
  obtain ⟨only, honly⟩ := List.length_eq_one_iff.mp (h.down hdown).2.2.2
  rw [honly] at hc ⊢
  cases i with
  | zero =>
    cases hc
    exact ⟨rfl, rfl⟩
  | succ i => cases hc

omit [Runtime] in
theorem Inv.length_goesOn (h : Inv machineName own s) (hdown : s.socket = none) {i : Nat}
    {c c' : Call} (hc : s.calls[i]? = some c) : (s.calls.eraseIdx i ++ [c']).length = 1 := by
  rw [(h.alone hdown hc).2]
  rfl

omit [Runtime] in
theorem Inv.notEmpty {machineId : Option String} (h : Inv machineName own s)
    (hgiven : isNullOrEmpty own = false) (hours : Ours machineName own s machineId) :
    isNullOrEmpty machineId = false := by
  rcases hours with rfl | ⟨id, key, htarget, rfl⟩
  · exact hgiven
  · simpa [isNullOrEmpty] using (h.recognised id key htarget).1

omit [Runtime] in
/-- A new registration has been answered with the target. -/
theorem adopt_target (h : Inv machineName own s) {id key : String}
    (htarget : target machineName s.server.db own = some (id, key)) :
    adoptCanonical s.client.machineId (some id) = some id := by
  obtain ⟨hid, -, hown⟩ := h.recognised id key htarget
  obtain ⟨m, -, hpair⟩ := Option.map_eq_some_iff.mp htarget
  obtain ⟨rfl, -⟩ := Prod.mk.inj hpair
  refine adoptCanonical_eq (c := s.client) ?_
  rcases h.machine with hsame | ⟨id', key', htarget', hsame⟩
  · rw [hsame]
    rcases hown with hown | hdiffers
    · exact .inl hown
    · exact .inr ⟨hid, hdiffers⟩
  · rw [htarget] at htarget'
    cases htarget'
    exact .inl hsame.symm

omit [Runtime] in
theorem answer_eq {watchdog : Bool} {id key : String}
    (hadopt : adoptCanonical s.client.machineId (some id) = some id) (hid : id ≠ "")
    (hkey : key ≠ "") :
    s.answer watchdog (some { success := true, apiKey := some key, machineId := some id }) =
      { s with
        client := { s.client with machineId := some id, apiKey := some key }
        calls := s.calls ++ [.saving watchdog id key] } := by
  unfold State.answer
  dsimp only
  rw [hadopt]
  exact if_pos ⟨hid, hkey⟩

omit [Runtime] [OrdinalCase] in
/-- The calls that are left, when one is taken. -/
theorem mem_take {i : Nat} {c : Call} (h : c ∈ (s.take i).calls) : c ∈ s.calls :=
  List.mem_of_mem_eraseIdx h

omit [Runtime] [OrdinalCase] in
/-- Where the target stays the target, a call holds what it held. -/
theorem Fits.mono {c : Call} (h : ∀ pair, target machineName s.server.db own = some pair →
    target machineName s'.server.db own = some pair) (hc : Fits machineName own s c) :
    Fits machineName own s' c := by
  cases c with
  | requested watchdog machineId =>
    rcases hc with hown | ⟨id, key, htarget, hid⟩
    · exact .inl hown
    · exact .inr ⟨id, key, h _ htarget, hid⟩
  | answered watchdog response =>
    obtain ⟨id, key, htarget, hresponse⟩ := hc
    exact ⟨id, key, h _ htarget, hresponse⟩
  | _ => trivial

omit [Runtime] [OrdinalCase] in
theorem eventWeight_sum {events : List Event} (h : ∀ error, .machineError error ∉ events) :
    (events.map eventWeight).sum = events.length := by
  induction events with
  | nil => rfl
  | cons event events ih =>
    have hhead : eventWeight event = 1 := by
      cases event with
      | machineError error => exact absurd (List.mem_cons_self ..) (h error)
      | _ => rfl
    rw [List.map_cons, List.sum_cons, hhead, List.length_cons,
      ih fun error herror => h error (List.mem_cons_of_mem _ herror)]
    omega

theorem serve_step (h : Inv machineName own s) (hs : step machineName s .serve = some s') :
    Inv machineName own s' ∧ weight s' < weight s := by
  unfold step at hs
  dsimp only at hs
  split at hs
  next socket pair outbox hsocket houtbox =>
    obtain rfl := Option.some.inj hs
    obtain ⟨hopen, hdialing⟩ := h.up socket hsocket
    obtain ⟨events, hemits, hhope, hweight⟩ : ∃ events,
        Emits socket s.server events (handled socket pair s.server) ∧
        (.machineConnected ∈ events ∨
          ∃ error, .machineError error ∈ events ∧ rejects error = true) ∧
        (events.map eventWeight).sum < pairWeight s.server.db pair := by
      cases hknown : known s.server.db pair with
      | true =>
        obtain ⟨events, hemits, hconnected, herror, hlength⟩ := replies_known hopen hknown
        refine ⟨events, hemits, .inl hconnected, ?_⟩
        rw [eventWeight_sum herror, pairWeight, if_pos hknown]
        omega
      | false =>
        obtain ⟨error, hemits, hrejects⟩ := replies_unknown hopen hknown
        refine ⟨_, hemits, .inr ⟨error, by simp, hrejects⟩, ?_⟩
        rw [pairWeight, if_neg (by simp [hknown])]
        show 13 + 0 < 14
        omega
    have htarget : ∀ id, target machineName (handled socket pair s.server).db id =
        target machineName s.server.db id := fun _ => target_congr hemits.same
    refine ⟨⟨?_, ?_, ?_, ?_, h.key, ?_, ?_, ?_⟩, ?_⟩
    · rw [htarget]
      exact h.recognised
    · unfold Ours
      rw [htarget]
      exact h.machine
    · intro c hc
      exact (h.calls c hc).mono fun pair hpair => (htarget own).trans hpair
    · rw [htarget]
      exact h.pair
    · show _ ∨ .machineConnected ∈ s.inbox ++ replies socket s.server _ ∨ _ ∨
        (∃ error, .machineError error ∈ s.inbox ++ replies socket s.server _ ∧ _) ∨ _
      rw [hemits.replies]
      rcases hhope with hconnected | ⟨error, herror, hrejects⟩
      · exact .inr (.inl (List.mem_append_right _ hconnected))
      · exact .inr (.inr (.inr (.inl ⟨error, List.mem_append_right _ herror, hrejects⟩)))
    · intro hdown
      rw [hsocket] at hdown
      cases hdown
    · intro socket' hsocket'
      rw [hsocket] at hsocket'
      cases hsocket'
      exact ⟨hemits.opens, hdialing⟩
    · have hpairs : (outbox.map (pairWeight (handled socket pair s.server).db)).sum ≤
          (outbox.map (pairWeight s.server.db)).sum :=
        pairWeight_le (fun row hrow => hemits.same ▸ hrow) outbox
      have hbefore : weight s = (pairWeight s.server.db pair +
          (outbox.map (pairWeight s.server.db)).sum) + (s.inbox.map eventWeight).sum +
          (s.calls.map Call.weight).sum + (if s.socket.isSome then 0 else 100) := by
        unfold weight
        rw [houtbox]
        rfl
      have hinbox : ((s.inbox ++ events).map eventWeight).sum =
          (s.inbox.map eventWeight).sum + (events.map eventWeight).sum := by
        rw [List.map_append, List.sum_append]
      show (outbox.map (pairWeight (handled socket pair s.server).db)).sum +
        ((s.inbox ++ replies socket s.server (handled socket pair s.server)).map eventWeight).sum +
        (s.calls.map Call.weight).sum + (if s.socket.isSome then 0 else 100) < weight s
      rw [hemits.replies, hbefore, hinbox]
      omega
  · cases hs

omit [Runtime] [OrdinalCase] in
theorem weight_inbox {event : Event} {inbox : List Event} (hinbox : s.inbox = event :: inbox) :
    weight s = (s.outbox.map (pairWeight s.server.db)).sum +
      (eventWeight event + (inbox.map eventWeight).sum) + (s.calls.map Call.weight).sum +
      (if s.socket.isSome then 0 else 100) := by
  unfold weight
  rw [hinbox]
  rfl

omit [Runtime] in
/-- An event that begins no registration. -/
theorem Inv.delivered {event : Event} {inbox : List Event} {isConnected : Bool}
    (h : Inv machineName own s) (hinbox : s.inbox = event :: inbox) (hup : s.socket ≠ none)
    (hhope : Hope { s with inbox, isConnected }) :
    Inv machineName own { s with inbox, isConnected } ∧
      weight { s with inbox, isConnected } < weight s := by
  refine ⟨⟨h.recognised, h.machine, h.calls, h.pair, h.key, hhope,
    fun hdown => absurd hdown hup, h.up⟩, ?_⟩
  have hpositive : 1 ≤ eventWeight event := by
    unfold eventWeight
    split <;> omega
  rw [weight_inbox hinbox]
  show (s.outbox.map (pairWeight s.server.db)).sum + (inbox.map eventWeight).sum +
    (s.calls.map Call.weight).sum + (if s.socket.isSome then 0 else 100) < _
  omega

theorem deliver_step {deletes : Bool} (h : Inv machineName own s)
    (hcalm : Calm s (.deliver deletes))
    (hs : step machineName s (.deliver deletes) = some s') :
    Inv machineName own s' ∧ weight s' < weight s := by
  unfold step at hs
  dsimp only at hs
  split at hs
  next event inbox hinbox =>
    obtain rfl := Option.some.inj hs
    have hup : s.socket ≠ none := by
      intro hdown
      have hempty := (h.down hdown).2.1
      rw [hinbox] at hempty
      cases hempty
    have hbefore := weight_inbox hinbox
    have hkept : ∀ isConnected, Hope { s with inbox, isConnected } →
        Inv machineName own { s with inbox, isConnected } ∧
          weight { s with inbox, isConnected } < weight s :=
      fun _ hhope => h.delivered hinbox hup hhope
    have hhope := h.hope
    unfold Hope at hhope
    rw [hinbox] at hhope
    cases event with
    | machineConnected => exact hkept true (.inl rfl)
    | machineError error =>
      show Inv machineName own (if rejects error && deletes then _ else _) ∧
        weight (if rejects error && deletes then _ else _) < weight s
      cases hrejects : rejects error with
      | false =>
        refine hkept s.isConnected ?_
        rcases hhope with hconnected | hconnected | hout | ⟨error', herror, hrejects'⟩ | hcalls
        · exact .inl hconnected
        · exact .inr (.inl ((List.mem_cons.mp hconnected).resolve_left nofun))
        · exact .inr (.inr (.inl hout))
        · rcases List.mem_cons.mp herror with hhead | hrest
          · cases hhead
            rw [hrejects] at hrejects'
            cases hrejects'
          · exact .inr (.inr (.inr (.inl ⟨error', hrest, hrejects'⟩)))
        · exact hope_calls hcalls
      | true =>
        cases deletes with
        | false =>
          have hcalls : s.calls ≠ [] := hcalm.resolve_left nofun
          exact hkept s.isConnected (hope_calls hcalls)
        | true =>
          refine ⟨⟨h.recognised, h.machine, ?_, fun _ _ _ => .inl rfl, ?_, ?_,
            fun hdown => absurd hdown hup, ?_⟩, ?_⟩
          · intro c hc
            rcases List.mem_append.mp hc with hc | hc
            · exact (h.calls c hc).mono fun _ htarget => htarget
            · obtain rfl := List.mem_singleton.mp hc
              exact h.machine
          · exact fun _ => ⟨_, List.mem_append_right _ (List.mem_singleton_self _), rfl⟩
          · exact hope_calls (List.append_ne_nil_of_right_ne_nil _ (List.cons_ne_nil _ _))
          · intro socket hsocket
            obtain ⟨hopen, hdialing⟩ := h.up socket hsocket
            refine ⟨hopen, fun c hc => ?_⟩
            rcases List.mem_append.mp hc with hc | hc
            · exact hdialing c hc
            · obtain rfl := List.mem_singleton.mp hc
              rfl
          · rw [hbefore]
            show (s.outbox.map (pairWeight s.server.db)).sum + (inbox.map eventWeight).sum +
              ((s.calls ++ [Call.requested false s.client.machineId]).map Call.weight).sum +
              (if s.socket.isSome then 0 else 100) < _
            rw [List.map_append, List.sum_append]
            show _ + (_ + (12 + 0)) + _ < _ + (13 + _) + _ + _
            omega
    | _ =>
      refine hkept s.isConnected ?_
      simpa [Hope] using hhope
  · cases hs

omit [Runtime] in
/-- An id that is ours names the target, or is the client's own and new; so what it is answered
    with is the target, and stays it. -/
theorem target_posted {db : Database} {machineId : Option String} {id key : String}
    (h : Inv machineName own s) (hours : Ours machineName own s machineId)
    (htarget : target machineName db machineId = some (id, key))
    (hcase : db = s.server.db ∨ target machineName s.server.db machineId = none ∧
      machineId = some id ∧ id ≠ "" ∧ key ≠ "") :
    (∀ pair, target machineName s.server.db own = some pair →
        target machineName db own = some pair) ∧
      target machineName db own = some (id, key) ∧
      id ≠ "" ∧ key ≠ "" ∧ (some id = own ∨ equalsIgnoreCase (some id) own = false) := by
  rcases hcase with rfl | ⟨hnone, hid, hidEmpty, hkeyEmpty⟩
  · have hown : target machineName s.server.db own = some (id, key) := by
      rcases hours with rfl | ⟨id', key', hown, rfl⟩
      · exact htarget
      · obtain ⟨m, hm, hpair⟩ := Option.map_eq_some_iff.mp hown
        cases hpair
        rw [target_own (mem_of_existing hm)] at htarget
        rw [hown, htarget]
    exact ⟨fun _ hpair => hpair, hown, h.recognised id key hown⟩
  · rcases hours with rfl | ⟨id', key', hown, rfl⟩
    · refine ⟨fun pair hpair => ?_, htarget, hidEmpty, hkeyEmpty, .inl hid.symm⟩
      rw [hnone] at hpair
      cases hpair
    · obtain ⟨m, hm, hpair⟩ := Option.map_eq_some_iff.mp hown
      cases hpair
      rw [target_own (mem_of_existing hm)] at hnone
      cases hnone

theorem post_step {i : Nat} {key : RandomKey} (hname : machineName ≠ "")
    (hgiven : isNullOrEmpty own = false) (h : Inv machineName own s) (hcalm : Calm s (.post i key))
    (hs : step machineName s (.post i key) = some s') :
    Inv machineName own s' ∧ weight s' < weight s := by
  unfold step at hs
  dsimp only at hs
  split at hs
  next watchdog machineId hc =>
    obtain rfl := Option.some.inj hs
    have hours : Ours machineName own s machineId := h.calls _ (List.mem_of_getElem? hc)
    obtain ⟨response, hresponse⟩ := exists_posted hname (h.notEmpty hgiven hours) hcalm
    obtain ⟨hsockets, hrows, id, key', rfl, htarget, hcase⟩ := posted rfl hresponse
    rw [hresponse]
    obtain ⟨hmono, hown, hrecognised⟩ := target_posted h hours htarget hcase
    refine ⟨⟨?_, ?_, ?_, ?_, ?_, ?_, ?_, ?_⟩, ?_⟩
    · intro id'' key'' hpair
      rw [hown] at hpair
      cases hpair
      exact hrecognised
    · exact Fits.mono (c := .requested watchdog _) hmono h.machine
    · exact forall_goesOn (fun c hmem => (h.calls c hmem).mono hmono) ⟨id, key', hown, rfl⟩
    · intro c _ _
      rcases h.pair _ (List.mem_of_getElem? hc) rfl with hempty | ⟨id'', key'', hpair, hclient⟩
      · exact .inl hempty
      · exact .inr ⟨id'', key'', hmono _ hpair, hclient⟩
    · exact fun _ => ⟨_, List.mem_append_right _ (List.mem_singleton_self _), rfl⟩
    · exact hope_calls (List.append_ne_nil_of_right_ne_nil _ (List.cons_ne_nil _ _))
    · intro hdown
      obtain ⟨hout, hin, hconnected, -⟩ := h.down hdown
      exact ⟨hout, hin, hconnected, h.length_goesOn hdown hc⟩
    · intro socket hsocket
      obtain ⟨hopen, hdialing⟩ := h.up socket hsocket
      refine ⟨?_, forall_goesOn hdialing rfl⟩
      unfold Open
      rw [hsockets]
      exact hopen
    · have hcalls := weight_goesOn hc (Call.answered watchdog
        (some { success := true, apiKey := some key', machineId := some id }))
      change _ + 12 = _ + 11 at hcalls
      have hpairs := pairWeight_le hrows s.outbox
      show (s.outbox.map (pairWeight ((postRegister (registrationData machineId machineName)
        key.text).exec s.server).1.db)).sum + (s.inbox.map eventWeight).sum +
        ((s.calls.eraseIdx i ++ [Call.answered watchdog (some _)]).map Call.weight).sum +
        (if s.socket.isSome then 0 else 100) < weight s
      unfold weight
      omega
  · cases hs

theorem answer_step {i : Nat} (h : Inv machineName own s)
    (hs : step machineName s (.answer i) = some s') :
    Inv machineName own s' ∧ weight s' < weight s := by
  unfold step at hs
  dsimp only at hs
  split at hs
  next watchdog response hc =>
    obtain ⟨id, key, htarget, rfl⟩ := h.calls _ (List.mem_of_getElem? hc)
    obtain ⟨hid, hkey, -⟩ := h.recognised id key htarget
    have hanswer : (s.take i).answer watchdog
        (some { success := true, apiKey := some key, machineId := some id }) =
        { s with
          client := { s.client with machineId := some id, apiKey := some key }
          calls := s.calls.eraseIdx i ++ [.saving watchdog id key] } :=
      answer_eq (s := s.take i) (adopt_target h htarget) hid hkey
    rw [hanswer] at hs
    obtain rfl := Option.some.inj hs
    refine ⟨⟨h.recognised, .inr ⟨id, key, htarget, rfl⟩, ?_, ?_, ?_, ?_, ?_, ?_⟩, ?_⟩
    · exact forall_goesOn (fun c hmem => (h.calls c hmem).mono fun _ hpair => hpair) trivial
    · exact fun _ _ _ => .inr ⟨id, key, htarget, rfl, rfl⟩
    · intro hempty
      exact absurd (by simpa [isNullOrEmpty] using hempty) hkey
    · exact hope_calls (List.append_ne_nil_of_right_ne_nil _ (List.cons_ne_nil _ _))
    · intro hdown
      obtain ⟨hout, hin, hconnected, -⟩ := h.down hdown
      exact ⟨hout, hin, hconnected, h.length_goesOn hdown hc⟩
    · intro socket hsocket
      obtain ⟨hopen, hdialing⟩ := h.up socket hsocket
      exact ⟨hopen, forall_goesOn hdialing rfl⟩
    · have hcalls := weight_goesOn hc (Call.saving watchdog id key)
      change _ + 11 = _ + 10 at hcalls
      show (s.outbox.map (pairWeight s.server.db)).sum + (s.inbox.map eventWeight).sum +
        ((s.calls.eraseIdx i ++ [Call.saving watchdog id key]).map Call.weight).sum +
        (if s.socket.isSome then 0 else 100) < weight s
      unfold weight
      omega
  · cases hs

omit [Runtime] in
/-- The call that asks for a key is left, when another is taken. -/
theorem Inv.asks_left {i : Nat} {c : Call} (h : Inv machineName own s) (hc : s.calls[i]? = some c)
    (hasks : c.asks = false) (hempty : isNullOrEmpty s.client.apiKey = true) :
    ∃ c ∈ (s.take i).calls, c.asks = true := by
  obtain ⟨asking, hmem, hasking⟩ := h.key hempty
  refine ⟨asking, ?_, hasking⟩
  obtain ⟨j, hj⟩ := List.getElem?_of_mem hmem
  refine List.mem_eraseIdx_iff_getElem?.mpr ⟨j, ?_, hj⟩
  rintro rfl
  rw [hc] at hj
  cases hj
  rw [hasks] at hasking
  cases hasking

omit [Runtime] in
/-- A call that does not ask for credentials ends while the socket is up. -/
theorem Inv.taken {i : Nat} {c : Call} {outbox : List (Option String × Option String)}
    (h : Inv machineName own s) (hc : s.calls[i]? = some c) (hasks : c.asks = false)
    (hup : s.socket ≠ none) (hhope : Hope { s.take i with outbox }) :
    Inv machineName own { s.take i with outbox } := by
  refine ⟨h.recognised, h.machine, ?_, fun c hmem => h.pair c (mem_take hmem),
    h.asks_left hc hasks, hhope, fun hdown => absurd hdown hup, ?_⟩
  · exact fun c hmem => (h.calls c (mem_take hmem)).mono fun _ hpair => hpair
  · intro socket hsocket
    obtain ⟨hopen, hdialing⟩ := h.up socket hsocket
    exact ⟨hopen, fun c hmem => hdialing c (mem_take hmem)⟩

omit [Runtime] in
/-- While the socket is down, there is a key unless the one call asks for it. -/
theorem Inv.hasKey {i : Nat} {c : Call} (h : Inv machineName own s) (hdown : s.socket = none)
    (hc : s.calls[i]? = some c) (hasks : c.asks = false) :
    isNullOrEmpty s.client.apiKey = false := by
  refine Bool.eq_false_iff.mpr fun hempty => ?_
  obtain ⟨asking, hmem, -⟩ := h.asks_left hc hasks hempty
  rw [State.take, (h.alone hdown hc).2] at hmem
  cases hmem

omit [Runtime] [OrdinalCase] in
theorem weight_take {i : Nat} {c : Call} (hc : s.calls[i]? = some c) :
    weight (s.take i) + c.weight = weight s := by
  have hcalls := weight_eraseIdx hc
  show (s.outbox.map (pairWeight s.server.db)).sum + (s.inbox.map eventWeight).sum +
    ((s.calls.eraseIdx i).map Call.weight).sum + (if s.socket.isSome then 0 else 100) + _ = weight s
  unfold weight
  omega

omit [Runtime] [OrdinalCase] in
theorem weight_alone {i : Nat} (hempty : (s.take i).calls = []) :
    weight (s.take i) = (s.outbox.map (pairWeight s.server.db)).sum +
      (s.inbox.map eventWeight).sum + (if s.socket.isSome then 0 else 100) := by
  unfold weight
  rw [hempty]
  rfl

omit [Runtime] in
/-- After a registration whose credentials have been saved, the socket is opened. -/
theorem registered_down {i : Nat} {c : Call} (watchdog : Bool) (h : Inv machineName own s)
    (hc : s.calls[i]? = some c) (hsaving : c.asks = false ∧ c.isDialing = false ∧ c.weight = 10)
    (hsocket : s.socket = none) :
    Inv machineName own ((s.take i).registered watchdog) ∧
      weight ((s.take i).registered watchdog) < weight s := by
  obtain ⟨hasks, -, hten⟩ := hsaving
  have hweight : weight (s.take i) + 10 = weight s := hten ▸ weight_take hc
  have hkey := h.hasKey hsocket hc hasks
  have hempty : (s.take i).calls = [] := (h.alone hsocket hc).2
  have hregistered : (s.take i).registered watchdog = { s.take i with
      calls := [.dialing s.client.machineId s.client.apiKey] } := by
    unfold State.registered State.connectAsync
    rw [hempty]
    simp [State.take, hsocket, hkey]
  rw [hregistered]
  obtain ⟨hout, hin, hconnected, -⟩ := h.down hsocket
  refine ⟨⟨h.recognised, h.machine, ?_, ?_, ?_, ?_, ?_, ?_⟩, ?_⟩
  · intro c hmem
    obtain rfl := List.mem_singleton.mp hmem
    trivial
  · intro c hmem hnot
    obtain rfl := List.mem_singleton.mp hmem
    cases hnot
  · intro hnull
    exact absurd hnull (by simp [State.take, hkey])
  · exact hope_calls (List.cons_ne_nil _ _)
  · exact fun _ => ⟨hout, hin, hconnected, rfl⟩
  · intro socket hsome
    exact absurd hsome (by simp [State.take, hsocket])
  · rw [← hweight, weight_alone hempty]
    show (s.outbox.map (pairWeight s.server.db)).sum + (s.inbox.map eventWeight).sum + (1 + 0) +
      (if s.socket.isSome then 0 else 100) < _
    omega

omit [Runtime] in
/-- On an open socket the handshake is tried again, unless another call has made it. -/
theorem registered_up {i : Nat} {c : Call} (watchdog : Bool) (h : Inv machineName own s)
    (hc : s.calls[i]? = some c) (hsaving : c.asks = false ∧ c.isDialing = false ∧ c.weight = 10)
    (hsocket : s.socket.isSome = true) :
    Inv machineName own ((s.take i).registered watchdog) ∧
      weight ((s.take i).registered watchdog) < weight s := by
  obtain ⟨hasks, hdialing, hten⟩ := hsaving
  have hweight : weight (s.take i) + 10 = weight s := hten ▸ weight_take hc
  have hup : s.socket ≠ none := fun hdown => by simp [hdown] at hsocket
  by_cases hconnected : watchdog && s.isConnected
  · have hregistered : (s.take i).registered watchdog = s.take i := by
      unfold State.registered
      rw [if_pos (by simpa [State.take, hsocket] using hconnected)]
    rw [hregistered]
    refine ⟨h.taken hc hasks hup (.inl ?_), by omega⟩
    exact (Bool.and_eq_true_iff.mp hconnected).2
  · cases hkey : isNullOrEmpty s.client.apiKey with
    | true =>
      have hregistered : (s.take i).registered watchdog = s.take i := by
        unfold State.registered
        simp [State.take, hsocket, hkey]
      rw [hregistered]
      obtain ⟨asking, hmem, -⟩ := h.asks_left hc hasks hkey
      refine ⟨h.taken hc hasks hup (hope_calls ?_), by omega⟩
      exact List.ne_nil_of_mem hmem
    | false =>
      have hregistered : (s.take i).registered watchdog =
          (s.take i).send s.client.machineId s.client.apiKey := by
        unfold State.registered
        rw [if_neg (by simpa [State.take, hsocket] using hconnected),
          if_neg (by simp [State.take, hkey]), State.connectAsync,
          if_pos (by simp [State.take, hsocket])]
        rfl
      rw [hregistered]
      have hknown : known s.server.db (s.client.machineId, s.client.apiKey) = true := by
        rcases h.pair c (List.mem_of_getElem? hc) hdialing with hnull | ⟨id, key, htarget, hpair⟩
        · rw [hkey] at hnull
          cases hnull
        · obtain ⟨hid, hkey, -⟩ := h.recognised id key htarget
          rw [hpair.1, hpair.2]
          exact known_target htarget hid hkey
      refine ⟨h.taken hc hasks hup (.inr (.inr (.inl (by simp)))), ?_⟩
      rw [← hweight]
      show ((s.outbox ++ [_]).map (pairWeight s.server.db)).sum + (s.inbox.map eventWeight).sum +
        ((s.calls.eraseIdx i).map Call.weight).sum + _ <
        (s.outbox.map (pairWeight s.server.db)).sum + (s.inbox.map eventWeight).sum +
        ((s.calls.eraseIdx i).map Call.weight).sum + _ + 10
      rw [List.map_append, List.sum_append, List.map_singleton, List.sum_singleton, pairWeight,
        if_pos hknown]
      show _ + 4 + _ + _ + (if s.socket.isSome then 0 else 100) <
        _ + _ + _ + (if s.socket.isSome then 0 else 100) + 10
      omega

omit [Runtime] in
theorem registered_step {i : Nat} {c : Call} (watchdog : Bool) (h : Inv machineName own s)
    (hc : s.calls[i]? = some c) (hsaving : c.asks = false ∧ c.isDialing = false ∧ c.weight = 10) :
    Inv machineName own ((s.take i).registered watchdog) ∧
      weight ((s.take i).registered watchdog) < weight s := by
  cases hsocket : s.socket with
  | none => exact registered_down watchdog h hc hsaving hsocket
  | some socket => exact registered_up watchdog h hc hsaving (by rw [hsocket]; rfl)

theorem save_step {i : Nat} {saves : Bool} (h : Inv machineName own s)
    (hcalm : Calm s (.save i saves))
    (hs : step machineName s (.save i saves) = some s') :
    Inv machineName own s' ∧ weight s' < weight s := by
  unfold step at hs
  dsimp only at hs
  split at hs
  next watchdog machineId apiKey hc =>
    have hweight : weight (s.take i) + 10 = weight s := weight_take hc
    split at hs
    next =>
      obtain rfl := Option.some.inj hs
      have hstored : Inv machineName own
          { s with client := { s.client with stored := some (machineId, apiKey) } } :=
        ⟨h.recognised, h.machine, h.calls, h.pair, h.key, h.hope, h.down, h.up⟩
      exact registered_step watchdog hstored hc ⟨rfl, rfl, rfl⟩
    next hsaves =>
      obtain rfl := Option.some.inj hs
      have hlength : 2 ≤ s.calls.length := hcalm.resolve_left hsaves
      refine ⟨h.taken hc rfl ?_ ?_, by omega⟩
      · intro hdown
        have hone := (h.down hdown).2.2.2
        omega
      · refine hope_calls fun hempty => ?_
        have hi : i < s.calls.length := (List.getElem?_eq_some_iff.mp hc).1
        have herase : (s.calls.eraseIdx i).length = 0 := congrArg List.length hempty
        rw [List.length_eraseIdx_of_lt hi] at herase
        omega
  · cases hs

omit [Runtime] [OrdinalCase] in
/-- `OnConnected` sends at most one pair. -/
theorem openSocket_eq {id address : String} (h : s.openSocket id address = some s') :
    ∃ sockets outbox, s' = { s with
        server := { s.server with sockets }, socket := some id, outbox := s.outbox ++ outbox } ∧
      outbox.length ≤ 1 ∧ ∃ k ∈ sockets.rows, k.id = id ∧ k.connected = true := by
  obtain ⟨sockets, hcreate, rfl⟩ := Option.map_eq_some_iff.mp h
  have hrow : ∃ k ∈ sockets.rows, k.id = id ∧ k.connected = true := by
    rw [(Table.create_eq_some.mp hcreate).2]
    exact ⟨_, List.mem_append_right _ (List.mem_singleton_self _), rfl, rfl⟩
  dsimp only
  split
  · exact ⟨sockets, [], by rw [List.append_nil], by decide, hrow⟩
  · exact ⟨sockets, [_], rfl, by simp, hrow⟩

theorem dial_step {i : Nat} {socket : Option (String × String)} (h : Inv machineName own s)
    (hcalm : Calm s (.dial i socket))
    (hs : step machineName s (.dial i socket) = some s') :
    Inv machineName own s' ∧ weight s' < weight s := by
  unfold step at hs
  dsimp only at hs
  split at hs
  next machineId apiKey hc =>
    have hmem := List.mem_of_getElem? hc
    have hdown : s.socket = none := by
      refine Option.eq_none_iff_forall_ne_some.mpr fun socket hsocket => ?_
      cases (h.up socket hsocket).2 _ hmem
    cases socket with
    | none => exact absurd rfl hcalm
    | some socket =>
      obtain ⟨id, address⟩ := socket
      dsimp only at hs
      rw [if_neg (by simp [hdown])] at hs
      obtain ⟨opened, hopened, rfl⟩ := Option.map_eq_some_iff.mp hs
      obtain ⟨sockets, outbox, rfl, hlength, hrow⟩ := openSocket_eq hopened
      have hempty : (s.take i).calls = [] := (h.alone hdown hc).2
      obtain ⟨hout, hin, -, -⟩ := h.down hdown
      refine ⟨⟨h.recognised, h.machine, ?_, ?_, ?_, ?_, nofun, ?_⟩, ?_⟩
      · exact fun c hmem => (h.calls c (mem_take hmem)).mono fun _ hpair => hpair
      · exact fun c hmem => h.pair c (mem_take hmem)
      · exact h.asks_left hc rfl
      · exact .inr (.inr (.inl (List.append_ne_nil_of_right_ne_nil _ (List.cons_ne_nil _ _))))
      · intro socket hsocket
        cases hsocket
        exact ⟨hrow, fun c hmem => absurd hmem (hempty ▸ List.not_mem_nil)⟩
      · have hweight : weight (s.take i) + 1 = weight s := weight_take hc
        rw [← hweight, weight_alone hempty, hdown]
        have hpairs := pairWeight_sum_le s.server.db (outbox ++ [(machineId, apiKey)])
        have htwo : (outbox ++ [(machineId, apiKey)]).length ≤ 2 := by
          rw [List.length_append]
          exact Nat.add_le_add_right hlength 1
        show (((s.outbox ++ outbox) ++ [(machineId, apiKey)]).map (pairWeight s.server.db)).sum +
          (s.inbox.map eventWeight).sum + ((s.take i).calls.map Call.weight).sum + 0 <
          _ + _ + 100 + 1
        rw [hempty, hin, hout, List.nil_append]
        show _ + 0 + 0 + 0 < 0 + 0 + 100 + 1
        omega
  · cases hs

/-- A calm step keeps the invariant, and lowers the weight. -/
theorem calm_step {a : Label} (hname : machineName ≠ "") (hgiven : isNullOrEmpty own = false)
    (h : Inv machineName own s) (hcalm : Calm s a) (hs : step machineName s a = some s') :
    Inv machineName own s' ∧ weight s' < weight s := by
  cases a with
  | serve => exact serve_step h hs
  | deliver deletes => exact deliver_step h hcalm hs
  | post i key => exact post_step hname hgiven h hcalm hs
  | answer i => exact answer_step h hs
  | save i saves => exact save_step h hcalm hs
  | dial i socket => exact dial_step h hcalm hs
  | _ => exact hcalm.elim

/-! ### No step is missing -/

/-- Nothing is under way. -/
def AtRest (s : State) : Prop := s.calls = [] ∧ s.inbox = [] ∧ s.outbox = []

omit [Runtime] [OrdinalCase] in
/-- There is always another socket id. -/
theorem exists_openSocket (s : State) (address : String) :
    ∃ id, (s.openSocket id address).isSome := by
  obtain ⟨bound, hbound⟩ : ∃ bound, ∀ k ∈ s.server.sockets.rows, k.id.length < bound := by
    generalize s.server.sockets.rows = sockets
    induction sockets with
    | nil => exact ⟨0, nofun⟩
    | cons k sockets ih =>
      obtain ⟨bound, hbound⟩ := ih
      refine ⟨max bound (k.id.length + 1), fun k' hk' => ?_⟩
      rcases List.mem_cons.mp hk' with rfl | hk'
      · omega
      · have hlt := hbound k' hk'
        omega
  obtain ⟨id, hnew⟩ : ∃ id, s.server.sockets.find id = none := by
    refine ⟨String.ofList (List.replicate bound 'a'), Table.find_eq_none.mpr fun k hk hid => ?_⟩
    have hlt := hbound k hk
    rw [hid, String.length_ofList, List.length_replicate] at hlt
    omega
  obtain ⟨sockets, hcreate⟩ := Table.exists_create (r := ({ id, address } : Socket)) hnew
  refine ⟨id, ?_⟩
  rw [State.openSocket, hcreate]
  rfl

/-- As long as something is under way, it goes on; a registration waits for a new key. -/
theorem exists_step (h : Inv machineName own s) (hway : ¬ AtRest s) :
    (∃ a, Calm s a ∧ (step machineName s a).isSome) ∨
      ∀ key : RandomKey, ∃ m ∈ s.server.db.machines.rows, m.apiKey = key.text := by
  cases hcalls : s.calls with
  | cons c calls =>
    have hc : s.calls[0]? = some c := by rw [hcalls]; rfl
    cases c with
    | requested watchdog machineId =>
      by_cases hkey : ∃ key : RandomKey, ∀ m ∈ s.server.db.machines.rows, m.apiKey ≠ key.text
      · obtain ⟨key, hkey⟩ := hkey
        refine .inl ⟨.post 0 key, hkey, ?_⟩
        simp only [step, hc, Option.isSome_some]
      · refine .inr fun key => ?_
        by_contra hnot
        exact hkey ⟨key, fun m hm htaken => hnot ⟨m, hm, htaken⟩⟩
    | answered watchdog response =>
      refine .inl ⟨.answer 0, trivial, ?_⟩
      simp only [step, hc, Option.isSome_some]
    | saving watchdog machineId apiKey =>
      refine .inl ⟨.save 0 true, .inl rfl, ?_⟩
      simp only [step, hc, if_true, Option.isSome_some]
    | dialing machineId apiKey =>
      have hdown : s.socket.isSome = false := by
        refine Bool.eq_false_iff.mpr fun hup => ?_
        obtain ⟨socket, hsocket⟩ := Option.isSome_iff_exists.mp hup
        cases (h.up socket hsocket).2 _ (List.mem_of_getElem? hc)
      obtain ⟨id, hopens⟩ := exists_openSocket (s.take 0) ""
      refine .inl ⟨.dial 0 (some (id, "")), nofun, ?_⟩
      simp only [step, hc, hdown, Bool.false_eq_true, if_false, Option.isSome_map, hopens]
  | nil =>
    cases hinbox : s.inbox with
    | cons event inbox =>
      refine .inl ⟨.deliver true, .inl rfl, ?_⟩
      simp only [step, hinbox, Option.isSome_some]
    | nil =>
      cases houtbox : s.outbox with
      | nil => exact absurd ⟨hcalls, hinbox, houtbox⟩ hway
      | cons pair outbox =>
        refine .inl ⟨.serve, trivial, ?_⟩
        cases hsocket : s.socket with
        | none =>
          have hempty := (h.down hsocket).1
          rw [houtbox] at hempty
          cases hempty
        | some socket => simp only [step, hsocket, houtbox, Option.isSome_some]

/-! ## A round of the watchdog -/

/-- The id the client has, when a round of the watchdog begins. -/
def State.ownId (s : State) (generated : String) : Option String :=
  if isNullOrEmpty s.client.apiKey && isNullOrEmpty s.client.machineId then some generated
  else s.client.machineId

omit [Runtime] in
/-- A round without a key begins with a registration. -/
theorem inv_registering {generated : String} (hrest : AtRest s) (hconnected : s.isConnected = false)
    (hopen : ∀ socket, s.socket = some socket → Open s.server socket)
    (hrecognised : ∀ id key,
      target machineName s.server.db (s.ownId generated) = some (id, key) → id ≠ "" ∧ key ≠ "" ∧
        (some id = s.ownId generated ∨
          equalsIgnoreCase (some id) (s.ownId generated) = false))
    (hkey : isNullOrEmpty s.client.apiKey = true) :
    Inv machineName (s.ownId generated) (s.ensureConnectedAsync generated) ∧
      weight (s.ensureConnectedAsync generated) ≤ 112 := by
  obtain ⟨hcalls, hinbox, houtbox⟩ := hrest
  have hbegins : s.ensureConnectedAsync generated = { s with
      client := { s.client with machineId := s.ownId generated }
      calls := [.requested true (s.ownId generated)] } := by
    rw [State.ensureConnectedAsync, if_pos hkey, hcalls, State.ownId, hkey, Bool.true_and]
    rfl
  rw [hbegins]
  refine ⟨⟨hrecognised, .inl rfl, ?_, fun _ _ _ => .inl hkey, ?_, ?_, ?_, ?_⟩, ?_⟩
  · intro c hmem
    obtain rfl := List.mem_singleton.mp hmem
    exact .inl rfl
  · exact fun _ => ⟨_, List.mem_singleton_self _, rfl⟩
  · exact hope_calls (List.cons_ne_nil _ _)
  · exact fun _ => ⟨houtbox, hinbox, hconnected, rfl⟩
  · intro socket hsocket
    refine ⟨hopen socket hsocket, fun c hmem => ?_⟩
    obtain rfl := List.mem_singleton.mp hmem
    rfl
  · show (s.outbox.map _).sum + (s.inbox.map _).sum + (12 + 0) +
      (if s.socket.isSome then 0 else 100) ≤ 112
    rw [houtbox, hinbox]
    show 0 + 0 + (12 + 0) + (if s.socket.isSome then 0 else 100) ≤ 112
    split <;> omega

omit [Runtime] in
/-- A round with a key begins with the socket or with a handshake. -/
theorem inv_connecting {generated : String} (hrest : AtRest s) (hconnected : s.isConnected = false)
    (hopen : ∀ socket, s.socket = some socket → Open s.server socket)
    (hrecognised : ∀ id key,
      target machineName s.server.db (s.ownId generated) = some (id, key) → id ≠ "" ∧ key ≠ "" ∧
        (some id = s.ownId generated ∨
          equalsIgnoreCase (some id) (s.ownId generated) = false))
    (hkey : isNullOrEmpty s.client.apiKey = false) :
    Inv machineName (s.ownId generated) (s.ensureConnectedAsync generated) ∧
      weight (s.ensureConnectedAsync generated) ≤ 112 := by
  obtain ⟨hcalls, hinbox, houtbox⟩ := hrest
  have hown : s.ownId generated = s.client.machineId := by
    rw [State.ownId, hkey, Bool.false_and]
    rfl
  have hbegins : s.ensureConnectedAsync generated = s.connectAsync := by
    rw [State.ensureConnectedAsync, hkey, if_neg Bool.false_ne_true, State.registered,
      hconnected, Bool.and_false, if_neg Bool.false_ne_true, hkey, Bool.and_false,
      if_neg Bool.false_ne_true]
  rw [hbegins, State.connectAsync]
  cases hsocket : s.socket with
  | none =>
    rw [if_neg (by simp)]
    refine ⟨⟨hrecognised, .inl hown.symm, ?_, ?_, ?_, ?_, ?_, ?_⟩, ?_⟩
    · intro c hmem
      rw [hcalls] at hmem
      obtain rfl := List.mem_singleton.mp hmem
      trivial
    · intro c hmem hnot
      rw [hcalls] at hmem
      obtain rfl := List.mem_singleton.mp hmem
      cases hnot
    · exact fun hnull => absurd hnull (by simp [hkey])
    · exact hope_calls (List.append_ne_nil_of_right_ne_nil _ (List.cons_ne_nil _ _))
    · exact fun _ => ⟨houtbox, hinbox, hconnected, by rw [hcalls]; rfl⟩
    · exact nofun
    · show (s.outbox.map _).sum + (s.inbox.map _).sum +
        ((s.calls ++ [Call.dialing _ _]).map Call.weight).sum + 100 ≤ 112
      rw [houtbox, hinbox, hcalls]
      show 0 + 0 + (1 + 0) + 100 ≤ 112
      omega
  | some socket =>
    rw [if_pos (by simp)]
    have hnone : ∀ c ∈ s.calls, False := fun c hmem => by
      rw [hcalls] at hmem
      cases hmem
    refine ⟨⟨hrecognised, .inl hown.symm, fun c hmem => (hnone c hmem).elim,
      fun c hmem => (hnone c hmem).elim, fun hnull => absurd hnull (by simp [State.send, hkey]),
      ?_, ?_, ?_⟩, ?_⟩
    · exact .inr (.inr (.inl (List.append_ne_nil_of_right_ne_nil _ (List.cons_ne_nil _ _))))
    · intro hdown
      exact absurd (hsocket.symm.trans hdown) nofun
    · intro socket' hsome
      exact ⟨hopen socket' hsome, fun c hmem => (hnone c hmem).elim⟩
    · have hpair := pairWeight_sum_le s.server.db [(s.client.machineId, s.client.apiKey)]
      show ((s.outbox ++ [_]).map _).sum + (s.inbox.map _).sum + (s.calls.map _).sum +
        (if s.socket.isSome then 0 else 100) ≤ 112
      rw [houtbox, hinbox, hcalls, hsocket]
      show _ + 0 + 0 + 0 ≤ 112
      exact hpair.trans (Nat.mul_le_mul_left 14 (by decide : 1 ≤ 8))

omit [Runtime] in
theorem inv_ensureConnected {generated : String} (hrest : AtRest s)
    (hconnected : s.isConnected = false)
    (hopen : ∀ socket, s.socket = some socket → Open s.server socket)
    (hrecognised : ∀ m, existing s.server.db (s.ownId generated) machineName = some m →
      m.id ≠ "" ∧ m.apiKey ≠ "" ∧ Recognised m (s.ownId generated)) :
    Inv machineName (s.ownId generated) (s.ensureConnectedAsync generated) ∧
      weight (s.ensureConnectedAsync generated) ≤ 112 := by
  have htarget : ∀ id key,
      target machineName s.server.db (s.ownId generated) = some (id, key) → id ≠ "" ∧ key ≠ "" ∧
        (some id = s.ownId generated ∨
          equalsIgnoreCase (some id) (s.ownId generated) = false) := by
    intro id key htarget
    obtain ⟨m, hm, hpair⟩ := Option.map_eq_some_iff.mp htarget
    cases hpair
    obtain ⟨hid, hkey, hown⟩ := hrecognised m hm
    exact ⟨hid, hkey, hown.imp_right And.right⟩
  cases hkey : isNullOrEmpty s.client.apiKey with
  | true => exact inv_registering hrest hconnected hopen htarget hkey
  | false => exact inv_connecting hrest hconnected hopen htarget hkey

/-- **Reconnecting.**  From a state at rest, a round of the watchdog leads, in any order of the
    steps that follow and after no more than 112 of them, to an accepted handshake: as long as
    something is under way it goes on, and when nothing is, the client is connected.  The id of a
    machine that the server finds for the client may not differ from the client's in the case of
    letters alone. -/
theorem reconnects {generated : String} {as : List Label} (hname : machineName ≠ "")
    (hgiven : isNullOrEmpty (s.ownId generated) = false) (hrest : AtRest s)
    (hconnected : s.isConnected = false)
    (hopen : ∀ socket, s.socket = some socket → Open s.server socket)
    (hrecognised : ∀ m, existing s.server.db (s.ownId generated) machineName = some m →
      m.id ≠ "" ∧ m.apiKey ≠ "" ∧ Recognised m (s.ownId generated))
    (hcalm : EachStep (step machineName) (fun s a _ => Calm s a)
      (s.ensureConnectedAsync generated) as)
    (hrun : run (step machineName) (s.ensureConnectedAsync generated) as = some s') :
    as.length ≤ 112 ∧ (AtRest s' → s'.isConnected = true) ∧
      (¬ AtRest s' → (∃ a, Calm s' a ∧ (step machineName s' a).isSome) ∨
        ∀ key : RandomKey, ∃ m ∈ s'.server.db.machines.rows, m.apiKey = key.text) := by
  obtain ⟨hinv, hweight⟩ := inv_ensureConnected hrest hconnected hopen hrecognised
  have hinv' := inv_of_guard (fun _ _ _ h hc hs => (calm_step hname hgiven h hc hs).1) hinv hcalm
    hrun
  have hlength := length_add_le (fun _ _ _ h hc hs => (calm_step hname hgiven h hc hs).1)
    (fun _ _ _ h hc hs => (calm_step hname hgiven h hc hs).2) hinv hcalm hrun
  refine ⟨by omega, ?_, exists_step hinv'⟩
  rintro ⟨hcalls, hinbox, houtbox⟩
  have hhope := hinv'.hope
  unfold Hope at hhope
  simpa [hcalls, hinbox, houtbox] using hhope

end Calm

/-- The key of `abc` has been replaced, and the socket is open. -/
def outdated : State where
  server := recovering
  client := { machineId := some "abc", apiKey := some "07ab", stored := some ("abc", "07ab") }
  socket := some "a"

/-- The old key is rejected, and the new one accepted. -/
def recovery : List Label :=
  [.serve, .deliver true, .post 0 randomKey, .answer 0, .save 0 true, .serve, .deliver true,
    .deliver true, .deliver true]

theorem reconnects_outdated : ∃ s',
    run (@step Channels.numericRuntime asciiCase "PC") (outdated.ensureConnectedAsync "xyz")
      recovery = some s' ∧ AtRest s' ∧ s'.isConnected = true := by
  have hopen : ∀ socket, outdated.socket = some socket → Open outdated.server socket := by
    rintro socket ⟨⟩
    exact ⟨_, List.mem_singleton_self _, rfl, rfl⟩
  refine ⟨_, rfl, ⟨rfl, rfl, rfl⟩, ?_⟩
  exact (@reconnects Channels.numericRuntime asciiCase "PC" outdated _ "xyz" recovery (by decide)
    rfl ⟨rfl, rfl, rfl⟩ rfl hopen (by decide) (by decide) rfl).2.1 ⟨rfl, rfl, rfl⟩

end Server.Reconnection
