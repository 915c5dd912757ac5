/-
  REGISTRATION (Vorsight.Service/Server/ServerConnection.cs, `RegisterMachineAsync`), against the
  server's `POST /machines/register` and `machine:connect`.

  The server answers a registration with the machine it has under the client's id, else with the
  first one of the client's computer name, else with a new machine.  The client takes the key as it
  comes, and the id only where it differs from its own; that comparison ignores case, the server's
  does not.

  A registration and a handshake meet in the table of machines: the registration half says what the
  server answers from it (`exec_postRegister`), the handshake half which pairs it accepts
  (`accepts_iff`), and `works_iff` puts them together.
-/
import Vorsight.Server.Channels

namespace Server.Registration

open Js Tables Tasks

/-! ## The client -/

/-- The upper case of `StringComparison.OrdinalIgnoreCase`, character by character. -/
class OrdinalCase where
  toUpper : Char → Char

/-- `string.Equals(a, b, StringComparison.OrdinalIgnoreCase)`. -/
def equalsIgnoreCase [OrdinalCase] : Option String → Option String → Bool
  | some a, some b => a.toList.map OrdinalCase.toUpper = b.toList.map OrdinalCase.toUpper
  | none, none => true
  | _, _ => false

def isNullOrEmpty : Option String → Bool
  | none => true
  | some text => text = ""

/-- `_machineId` and `_apiKey`, and the pair in the credential store. -/
structure ServerConnection where
  machineId : Option String
  apiKey : Option String
  stored : Option (String × String)
deriving DecidableEq

structure RegistrationResponse where
  success : Bool
  apiKey : Option String
  machineId : Option String

def nullable : Option String → Json
  | none => .null
  | some text => .str text

/-- `registrationData`; `machineName` is `Environment.MachineName`. -/
def registrationData (machineId : Option String) (machineName : String) : Value :=
  some (.obj [("machineId", nullable machineId), ("name", .str machineName),
    ("hostname", .str machineName), ("metadata", .obj [])])

/-- `EnsureSuccessStatusCode`, `ReadFromJsonAsync<RegistrationResponse>`; `none` is an
    exception. -/
def readResponse : Response Json → Option RegistrationResponse
  | .json (.obj fields) => do
    let apiKey ← textArg (fields.lookup "apiKey")
    let machineId ← textArg (fields.lookup "machineId")
    pure { success := truthy (fields.lookup "success"), apiKey, machineId }
  | _ => none

/-- Adopt canonical ID from server if different. -/
def adoptCanonical [OrdinalCase] (machineId canonical : Option String) : Option String :=
  if !isNullOrEmpty canonical && !equalsIgnoreCase canonical machineId then canonical
  else machineId

/-- Persist credentials; `saves` says whether the store can be written. -/
def persist (c : ServerConnection) (saves : Bool) : ServerConnection × Bool :=
  match c.machineId, c.apiKey with
  | some machineId, some apiKey =>
    if machineId ≠ "" ∧ apiKey ≠ "" then
      if saves then ({ c with stored := some (machineId, apiKey) }, true) else (c, false)
    else (c, true)
  | _, _ => (c, true)

/-- `RegisterMachineAsync`, from the server's answer on: the connection, and whether the method
    has returned without an exception. -/
def ServerConnection.registerMachine [OrdinalCase] (c : ServerConnection)
    (answer : Option RegistrationResponse) (saves : Bool) : ServerConnection × Bool :=
  match answer with
  | some { success := true, apiKey, machineId } =>
    persist { c with apiKey, machineId := adoptCanonical c.machineId machineId } saves
  | _ => (c, false)

/-! ## The exchange -/

/-- `crypto.randomBytes(32).toString('hex')`. -/
structure RandomKey where
  text : String
  length : text.length = 64

theorem RandomKey.ne_empty (key : RandomKey) : key.text ≠ "" := by
  intro h
  have hlen := key.length
  rw [h] at hlen
  exact absurd hlen (by decide)

variable [Runtime]

/-- A registration that has come to its end. -/
structure Outcome where
  store : Store
  connection : ServerConnection
  succeeded : Bool

/-- `RegisterMachineAsync` against the server. -/
def register [OrdinalCase] (c : ServerConnection) (machineName : String) (key : RandomKey)
    (saves : Bool) (s : Store) : Outcome :=
  let answered := (postRegister (registrationData c.machineId machineName) key.text).exec s
  let registered := c.registerMachine (answered.2.bind readResponse) saves
  { store := answered.1, connection := registered.1, succeeded := registered.2 }

/-- What `_realtimeClient.ConnectAsync(_machineId, _apiKey)` sends. -/
def connectData (c : ServerConnection) : Value :=
  some (.obj [("machineId", nullable c.machineId), ("apiKey", nullable c.apiKey)])

/-- Between `t` and `u`, `machine:connected` is emitted. -/
def Connected (t u : Store) : Prop :=
  ∃ e ∈ u.emitted.drop t.emitted.length, e.event = .machineConnected

/-- The handler of `machine:connect`, run in `t`, answers `machine:connected`. -/
def Accepts (t : Store) (socket : String) (c : ServerConnection) : Prop :=
  Connected t ((machineConnect socket (connectData c)).exec t).1

/-- The client holds a pair, the credential store has it, and the server accepts it. -/
def Works (t : Store) (socket : String) (c : ServerConnection) : Prop :=
  (∃ machineId apiKey, c.machineId = some machineId ∧ c.apiKey = some apiKey ∧
    c.stored = some (machineId, apiKey)) ∧ Accepts t socket c

/-- The machine a registration is answered with, if there is one already. -/
def existing (db : Database) (machineId : Option String) (machineName : String) : Option Machine :=
  (machineId.bind db.machines.find).or (db.machines.rows.find? fun m => m.name = machineName)

/-- The client ends with the id of the machine it is answered with: its own, or one that it
    takes over. -/
def Recognised [OrdinalCase] (m : Machine) (machineId : Option String) : Prop :=
  some m.id = machineId ∨ (m.id ≠ "" ∧ equalsIgnoreCase (some m.id) machineId = false)

instance [OrdinalCase] (m : Machine) (machineId : Option String) :
    Decidable (Recognised m machineId) :=
  inferInstanceAs (Decidable (_ ∨ _))

/-! ## The registration half -/

section Answer

variable {s : Store} {id machineName : String} {m : Machine}

/-- A machine that is there is answered with as it is. -/
theorem exec_registerMachine_existing (hname : machineName ≠ "") (hostname : Value) (key : String)
    (hm : existing s.db (some id) machineName = some m) :
    (registerMachine (some (.str id)) (some (.str machineName)) hostname key).exec s =
      (s, some (false, m.apiKey, m.id)) := by
  unfold registerMachine
  rw [requiredText, Task.get_some, Task.done_bind, Task.exec_bind_of (exec_read _ s)]
  unfold existing at hm
  rw [Option.bind_some] at hm
  cases hfind : s.db.machines.find id with
  | some byId =>
    rw [hfind, Option.some_or] at hm
    cases hm
    rfl
  | none =>
    rw [hfind, Option.none_or] at hm
    have hby : (findByName (some (.str machineName))).exec s = (s, some (some m)) := by
      simp [findByName, truthy, hname, textFilter, hm]
    exact Task.exec_bind_of hby

omit [Runtime] in
/-- A machine that is created is in the table. -/
theorem mem_createMachine {db db' : Database} {row : Machine}
    (h : db.createMachine row = some db') : row ∈ db'.machines.rows := by
  unfold Database.createMachine at h
  split at h
  · cases h
  · obtain ⟨machines, hcreate, rfl⟩ := Option.map_eq_some_iff.mp h
    rw [(Table.create_eq_some.mp hcreate).2]
    exact List.mem_append_right _ (List.mem_singleton_self row)

/-- A new machine is created with the id it names and the random key; where the key is taken, the
    call throws. -/
theorem exec_registerMachine_new (hname : machineName ≠ "") (key : String)
    (hnone : existing s.db (some id) machineName = none) :
    (((registerMachine (some (.str id)) (some (.str machineName)) (some (.str machineName))
        key).exec s).2 = none ∧ ∃ m ∈ s.db.machines.rows, m.apiKey = key) ∨
      ∃ db' row, row.id = id ∧ row.apiKey = key ∧ s.db.createMachine row = some db' ∧
        (registerMachine (some (.str id)) (some (.str machineName)) (some (.str machineName))
          key).exec s = ({ s with db := db' }, some (true, key, id)) := by
  unfold existing at hnone
  rw [Option.bind_some, Option.or_eq_none_iff] at hnone
  obtain ⟨hid, hby⟩ := hnone
  have hbyName : (findByName (some (.str machineName))).exec s = (s, some none) := by
    simp [findByName, truthy, hname, textFilter, hby]
  unfold registerMachine
  rw [requiredText, Task.get_some, Task.done_bind, Task.exec_bind_of (exec_read _ s), hid]
  simp only [Task.exec_bind_of hbyName]
  rw [Task.exec_bind, write, Task.exec_op]
  simp only [requiredText, firstTruthy, truthy, hname, textArg, Option.bind_eq_bind,
    Option.bind_some, ne_eq, not_false_eq_true, decide_true, if_true]
  cases hcreate : s.db.createMachine
    { id, name := machineName, hostname := some machineName, registrationDate := s.now,
      apiKey := key, createdAt := s.now } with
  | none =>
    refine Or.inl ⟨rfl, ?_⟩
    unfold Database.createMachine at hcreate
    split at hcreate
    next htaken => simpa [List.any_eq_true] using htaken
    next =>
      have hfree : ∀ row : Machine, row.id = id → ∃ machines,
          s.db.machines.create row = some machines :=
        fun row hrow => Table.exists_create (hrow ▸ hid)
      exact absurd (Option.map_eq_none_iff.mp hcreate) (Option.ne_none_iff_exists'.mpr (hfree _ rfl))
  | some db' => exact Or.inr ⟨db', _, rfl, rfl, hcreate, rfl⟩

/-- The rest of the route, behind the checks of the fields. -/
def respond (result : Bool × String × String) (machineName : String) :
    Task Store (Response Json) :=
  if result.1 then do
    emit .everyone fun now =>
      .machineDiscovered result.2.2 machineName (some (.str machineName)) now
    pure (ok [("apiKey", .str result.2.1), ("machineId", .str result.2.2)])
  else
    pure (ok [("apiKey", .str result.2.1), ("machineId", .str result.2.2),
      ("message", .str "Machine already registered")])

/-- The route, on the body the client sends. -/
theorem postRegister_eq (machineId : Option String) (machineName key : String) :
    postRegister (registrationData machineId machineName) key =
      Task.handle
        (if isNullOrEmpty machineId || machineName = "" then
          pure (.error 400 "machineId and name are required")
        else do
          let result ← registerMachine (some (nullable machineId)) (some (.str machineName))
            (some (.str machineName)) key
          respond result machineName)
        (pure (.error 500 "Registration failed")) := by
  have hid : truthy (some (nullable machineId)) = !isNullOrEmpty machineId := by
    cases machineId with
    | none => rfl
    | some id => simp [nullable, truthy, isNullOrEmpty]
  have hname : truthy (some (.str machineName)) = !decide (machineName = "") := by simp [truthy]
  have hfields : prop (registrationData machineId machineName) "machineId" =
        some (some (nullable machineId)) ∧
      prop (registrationData machineId machineName) "name" = some (some (.str machineName)) ∧
      prop (registrationData machineId machineName) "hostname" =
        some (some (.str machineName)) := ⟨rfl, rfl, rfl⟩
  simp only [postRegister, hfields, hid, hname, Task.get_some, Task.done_bind, Bool.not_not]
  rfl

/-- **What the server answers**, when it answers with success: a machine of the table it leaves
    behind, which is the one that was there, or a new one under the client's id. -/
theorem answer_cases {machineId : Option String} {key : String} {r : RegistrationResponse}
    (hread : ((postRegister (registrationData machineId machineName) key).exec s).2.bind
      readResponse = some r) :
    ∃ m ∈ ((postRegister (registrationData machineId machineName) key).exec s).1.db.machines.rows,
      r = { success := true, apiKey := some m.apiKey, machineId := some m.id } ∧
      isNullOrEmpty machineId = false ∧
      ((existing s.db machineId machineName = some m ∧
          ((postRegister (registrationData machineId machineName) key).exec s).1.db = s.db) ∨
        (existing s.db machineId machineName = none ∧ machineId = some m.id ∧
          m.apiKey = key)) := by
  rw [postRegister_eq] at hread ⊢
  by_cases hempty : isNullOrEmpty machineId || machineName = ""
  · rw [if_pos hempty] at hread
    cases hread
  rw [if_neg hempty] at hread ⊢
  obtain ⟨hid, hname⟩ : isNullOrEmpty machineId = false ∧ machineName ≠ "" := by
    simpa using hempty
  cases machineId with
  | none => cases hid
  | some id =>
    cases hex : existing s.db (some id) machineName with
    | some m =>
      have hrun := Task.exec_bind_of (k := (respond · machineName)) <|
        exec_registerMachine_existing hname (some (.str machineName)) key hex
      rw [nullable, Task.exec_handle, hrun] at hread ⊢
      cases hread
      refine ⟨m, ?_, rfl, hid, .inl ⟨rfl, rfl⟩⟩
      rcases Option.or_eq_some_iff.mp hex with hfind | ⟨-, hby⟩
      · exact (Table.find_eq_some.mp hfind).1
      · exact List.mem_of_find?_eq_some hby
    | none =>
      rcases exec_registerMachine_new hname key hex with ⟨hthrow, -⟩ | ⟨db', row, hrid, hrkey,
        hcreate, hrun⟩
      · rw [nullable, Task.exec_handle, Task.exec_bind, hthrow] at hread
        cases hread
      · subst hrid hrkey
        have hrun := Task.exec_bind_of (k := (respond · machineName)) hrun
        rw [nullable, Task.exec_handle, hrun] at hread ⊢
        cases hread
        exact ⟨row, mem_createMachine hcreate, rfl, hid, .inr ⟨rfl, rfl, rfl⟩⟩

end Answer

/-! ## The handshake half -/

section Handshake

variable {t : Store} {socket id key : String}

/-- The handler, on the pair the client sends. -/
theorem machineConnect_eq (machineId apiKey : Option String) :
    machineConnect socket (some (.obj [("machineId", nullable machineId),
        ("apiKey", nullable apiKey)])) =
      Task.handle
        (if isNullOrEmpty machineId || isNullOrEmpty apiKey then
          emit (.socket socket) fun _ => .machineError "Missing credentials"
        else do
          match ← findCredentials (some (nullable machineId)) (some (nullable apiKey)) with
          | some machine =>
            accept socket (some (nullable machineId)) (some (nullable apiKey))
            announce socket (some (nullable machineId)) machine
          | none => emit (.socket socket) fun _ => .machineError "Invalid credentials")
        (emit (.socket socket) fun _ => .machineError "Connection failed") := by
  have htruthy : ∀ text, truthy (some (nullable text)) = !isNullOrEmpty text := by
    intro text
    cases text with
    | none => rfl
    | some text => simp [nullable, truthy, isNullOrEmpty]
  have hmissing : (!truthy (some (nullable machineId)) || !truthy (some (nullable apiKey))) =
      (isNullOrEmpty machineId || isNullOrEmpty apiKey) := by
    rw [htruthy, htruthy, Bool.not_not, Bool.not_not]
  exact congrArg (fun missing : Bool => Task.handle (if missing then _ else _) _) hmissing

omit [Runtime] in
theorem exec_broadcastMachineList (target : Target) : ∃ e : Event,
    (broadcastMachineList target).exec t = (t.emit target e, some ()) :=
  ⟨.machinesList _, rfl⟩

omit [Runtime] in
theorem connected_emit {u : Store} (h : t.emitted <+: u.emitted) (target : Target) :
    Connected t (u.emit target .machineConnected) := by
  obtain ⟨es, hes⟩ := h
  refine ⟨⟨.machineConnected, (u.sockets.rows.filter (Store.reaches target)).map Socket.id⟩, ?_,
    rfl⟩
  rw [Store.emit, ← hes, List.append_assoc, List.drop_left]
  exact List.mem_append_right _ (List.mem_singleton_self _)

omit [Runtime] in
theorem Connected.emit {u : Store} (h : Connected t u) (target : Target) (event : Event) :
    Connected t (u.emit target event) := by
  obtain ⟨e, he, hevent⟩ := h
  refine ⟨e, ?_, hevent⟩
  rw [Store.emit, List.drop_append]
  exact List.mem_append_left _ he

omit [Runtime] in
/-- What follows accepted credentials includes `machine:connected`. -/
theorem exec_announce {u : Store} {m machine : Machine} (hm : u.db.machines.find id = some m)
    (hu : t.emitted <+: u.emitted) :
    ((announce socket (some (.str id)) machine).exec u).2 = some () ∧
      Connected t ((announce socket (some (.str id)) machine).exec u).1 := by
  obtain ⟨db, hupdate, hfound⟩ : ∃ db, u.db.updateMachine id (fun m => { m with
      lastSeen := some u.now, ipAddress := (u.sockets.find socket).map (·.address) })
      (fun _ => rfl) = some db ∧ (db.machines.find id).isSome := by
    refine ⟨_, Database.forMachine_eq_some.mpr ⟨by rw [hm]; rfl, rfl⟩, ?_⟩
    rw [Table.find_update, if_pos rfl, hm]
    rfl
  obtain ⟨db', hcreate⟩ : ∃ db', db.createConnectionEvent id
      { id := 0, machineId := id, eventType := "Connected", timestamp := u.now } = some db' :=
    ⟨_, Database.forMachine_eq_some.mpr ⟨hfound, rfl⟩⟩
  rw [announce, requiredText, Task.get_some, Task.done_bind,
    Task.exec_bind_of (Task.exec_look _ u), Task.exec_bind_of (exec_write_some hupdate),
    Task.exec_bind_of (exec_write_some (s := { u with db }) hcreate)]
  by_cases harchived : machine.status = .archived
  · rw [if_pos harchived, Task.exec_bind_of (exec_emit _ _ _)]
    exact ⟨rfl, (connected_emit (u := { u with db := db' }) hu _).emit _ _⟩
  · obtain ⟨e, hlist⟩ := exec_broadcastMachineList (t := ({ u with db := db' } : Store).emit
      .everyone (.machineOnline id u.now)) .everyone
    rw [if_neg harchived, Task.exec_bind_of (exec_emit _ _ _), Task.exec_bind_of hlist]
    refine ⟨rfl, connected_emit ?_ _⟩
    exact hu.trans ((List.prefix_append _ _).trans (List.prefix_append _ _))

omit [Runtime] in
theorem not_connected_error (target : Target) (error : String) :
    ¬ Connected t (t.emit target (.machineError error)) := by
  rintro ⟨e, he, hevent⟩
  rw [Store.emit, List.drop_left, List.mem_singleton] at he
  subst he
  cases hevent

omit [Runtime] in
theorem exists_of_isNullOrEmpty {text : Option String} (h : isNullOrEmpty text = false) :
    ∃ s, text = some s ∧ s ≠ "" := by
  cases text with
  | none => cases h
  | some s => exact ⟨s, rfl, by simpa [isNullOrEmpty] using h⟩

/-- **Which pairs are accepted**: those of a machine in the table, with nothing in them empty. -/
theorem accepts_iff {c : ServerConnection} : Accepts t socket c ↔
    ∃ m ∈ t.db.machines.rows, c.machineId = some m.id ∧ c.apiKey = some m.apiKey ∧
      m.id ≠ "" ∧ m.apiKey ≠ "" := by
  rw [Accepts, connectData, machineConnect_eq]
  by_cases hempty : isNullOrEmpty c.machineId || isNullOrEmpty c.apiKey
  · rw [if_pos hempty, Task.exec_handle, exec_emit]
    refine iff_of_false (not_connected_error _ _) ?_
    rintro ⟨m, -, hid, hkey, hne, hne'⟩
    simp [hid, hkey, isNullOrEmpty, hne, hne'] at hempty
  rw [if_neg hempty]
  obtain ⟨machineId, hid, hidne⟩ := exists_of_isNullOrEmpty (Bool.or_eq_false_iff.mp
    (Bool.eq_false_iff.mpr hempty)).1
  obtain ⟨apiKey, hkey, hkeyne⟩ := exists_of_isNullOrEmpty (Bool.or_eq_false_iff.mp
    (Bool.eq_false_iff.mpr hempty)).2
  rw [hid, hkey, nullable, nullable, Task.exec_handle]
  have hcredentials : (findCredentials (some (.str machineId)) (some (.str apiKey))).exec t =
      (t, some (t.db.machines.rows.find? fun m => m.id = machineId && m.apiKey = apiKey)) := rfl
  rw [Task.exec_bind_of hcredentials]
  cases hfind : t.db.machines.rows.find? fun m => m.id = machineId && m.apiKey = apiKey with
  | none =>
    refine iff_of_false (not_connected_error _ _) ?_
    rintro ⟨m, hm, hmid, hmkey, -, -⟩
    have hnot := List.find?_eq_none.mp hfind m hm
    cases hmid
    cases hmkey
    simp at hnot
  | some m =>
    have hm := List.mem_of_find?_eq_some hfind
    obtain ⟨rfl, rfl⟩ : m.id = machineId ∧ m.apiKey = apiKey := by
      simpa using List.find?_some hfind
    refine iff_of_true ?_ ⟨m, hm, rfl, rfl, hidne, hkeyne⟩
    let u := ((accept socket (some (.str m.id)) (some (.str m.apiKey))).exec t).1
    have hrun : ((announce socket (some (.str m.id)) m).exec u).2 = some () ∧
        Connected t ((announce socket (some (.str m.id)) m).exec u).1 :=
      exec_announce (Table.find_eq_some.mpr ⟨hm, rfl⟩) (List.prefix_refl _)
    simp only [u, accept, Task.exec_bind, Task.exec_effect] at hrun ⊢
    rw [hrun.1]
    exact hrun.2

end Handshake

/-! ## Registration and handshake together -/

section Works

variable [OrdinalCase] {s t : Store} {c : ServerConnection} {machineName socket : String}
  {key : RandomKey} {saves : Bool}

omit [Runtime] [OrdinalCase] in
/-- A call that returns has stored a pair with nothing empty in it. -/
theorem persist_spec (h : (persist c saves).2 = true) :
    (persist c saves).1.machineId = c.machineId ∧ (persist c saves).1.apiKey = c.apiKey ∧
      ∀ machineId apiKey, c.machineId = some machineId → c.apiKey = some apiKey →
        machineId ≠ "" → apiKey ≠ "" → (persist c saves).1.stored = some (machineId, apiKey) := by
  unfold persist at h ⊢
  split
  · rename_i machineId apiKey hid hkey
    simp only [hid, hkey] at h
    by_cases hne : machineId ≠ "" ∧ apiKey ≠ ""
    · cases saves with
      | false => simp [if_pos hne] at h
      | true =>
        rw [if_pos hne, if_pos rfl]
        refine ⟨rfl, rfl, fun machineId' apiKey' hid' hkey' _ _ => ?_⟩
        cases hid.symm.trans hid'
        cases hkey.symm.trans hkey'
        rfl
    · rw [if_neg hne]
      refine ⟨rfl, rfl, fun machineId' apiKey' hid' hkey' hne' hne'' => ?_⟩
      cases hid.symm.trans hid'
      cases hkey.symm.trans hkey'
      exact absurd ⟨hne', hne''⟩ hne
  · rename_i hnone
    exact ⟨rfl, rfl, fun machineId apiKey hid hkey => absurd hkey (hnone machineId apiKey hid)⟩

omit [Runtime] in
/-- The id the client ends with. -/
theorem adoptCanonical_eq {m : Machine} (h : Recognised m c.machineId) :
    adoptCanonical c.machineId (some m.id) = some m.id := by
  unfold adoptCanonical
  split
  · rfl
  · rename_i hkeep
    rcases h with hown | ⟨hne, hdiffers⟩
    · exact hown.symm
    · simp [isNullOrEmpty, hne, hdiffers] at hkeep

omit [Runtime] in
theorem adoptCanonical_of_not {m : Machine} (h : ¬ Recognised m c.machineId) :
    adoptCanonical c.machineId (some m.id) = c.machineId := by
  unfold adoptCanonical
  split
  · rename_i hadopt
    refine absurd (.inr ?_) h
    simpa [isNullOrEmpty] using hadopt
  · rfl

/-- What a registration that succeeds leaves behind. -/
theorem register_cases (h : (register c machineName key saves s).succeeded = true) :
    ∃ m ∈ (register c machineName key saves s).store.db.machines.rows,
      (register c machineName key saves s).connection.machineId =
        adoptCanonical c.machineId (some m.id) ∧
      (register c machineName key saves s).connection.apiKey = some m.apiKey ∧
      isNullOrEmpty c.machineId = false ∧
      (∀ machineId, adoptCanonical c.machineId (some m.id) = some machineId → machineId ≠ "" →
        m.apiKey ≠ "" →
        (register c machineName key saves s).connection.stored = some (machineId, m.apiKey)) ∧
      ((existing s.db c.machineId machineName = some m ∧
          (register c machineName key saves s).store.db = s.db) ∨
        (existing s.db c.machineId machineName = none ∧ c.machineId = some m.id ∧
          m.apiKey = key.text)) := by
  unfold register at h ⊢
  cases hread : ((postRegister (registrationData c.machineId machineName) key.text).exec s).2.bind
      readResponse with
  | none =>
    simp only [hread] at h
    cases h
  | some r =>
    obtain ⟨m, hm, rfl, hgiven, hcase⟩ := answer_cases hread
    simp only [hread, ServerConnection.registerMachine] at h ⊢
    obtain ⟨hid, hkey, hstored⟩ := persist_spec h
    exact ⟨m, hm, hid, hkey, hgiven,
      fun machineId hown hne hne' => hstored _ _ hown rfl hne hne', hcase⟩

/-- **Registration**: after one that has succeeded, the client's pair is stored and the server
    accepts it as long as the machines stay, iff a machine that the server had already has a key
    and is recognised by its id. -/
theorem works_iff (h : (register c machineName key saves s).succeeded = true)
    (ht : t.db.machines = (register c machineName key saves s).store.db.machines) :
    Works t socket (register c machineName key saves s).connection ↔
      ∀ m, existing s.db c.machineId machineName = some m →
        m.apiKey ≠ "" ∧ Recognised m c.machineId := by
  obtain ⟨m, hm, hid, hkey, hgiven, hstored, hcase⟩ := register_cases h
  rw [← ht] at hm
  constructor
  · rintro ⟨-, haccepts⟩ m' hm'
    obtain ⟨m'', hm'', hid', hkey', hne, hne'⟩ := accepts_iff.mp haccepts
    rcases hcase with ⟨hex, hdb⟩ | ⟨hex, -⟩
    · cases hex.symm.trans hm'
      have hkeys : m.apiKey = m''.apiKey := Option.some.inj (hkey.symm.trans hkey')
      refine ⟨hkeys ▸ hne', ?_⟩
      by_cases hrec : Recognised m c.machineId
      · exact hrec
      -- its own id leads to no machine, or to the one it was answered with
      rw [hid, adoptCanonical_of_not hrec] at hid'
      rw [ht, hdb] at hm''
      have hfind : s.db.machines.find m''.id = some m'' := Table.find_eq_some.mpr ⟨hm'', rfl⟩
      rw [existing, hid', Option.bind_some, hfind, Option.some_or] at hex
      rw [Option.some.inj hex] at hid'
      exact .inl hid'.symm
    · rw [hex] at hm'
      cases hm'
  · intro hall
    obtain ⟨hne', hrec⟩ : m.apiKey ≠ "" ∧ Recognised m c.machineId := by
      rcases hcase with ⟨hex, -⟩ | ⟨-, hown, hrandom⟩
      · exact hall m hex
      · exact ⟨hrandom ▸ key.ne_empty, .inl hown.symm⟩
    have hne : m.id ≠ "" := by
      rcases hrec with hown | ⟨hne, -⟩
      · simpa [← hown, isNullOrEmpty] using hgiven
      · exact hne
    have hown := adoptCanonical_eq hrec
    rw [hown] at hid
    exact ⟨⟨m.id, m.apiKey, hid, hkey, hstored _ hown hne hne'⟩,
      accepts_iff.mpr ⟨m, hm, hid, hkey, hne, hne'⟩⟩

end Works

/-- The upper case of ASCII letters. -/
@[reducible] def asciiCase : OrdinalCase := ⟨Char.toUpper⟩

/-- A server that knows the machine `abc`, called `PC`. -/
def recovering : Store :=
  { Store.adopted with db := { Database.empty with machines :=
      ⟨[{ id := "abc", name := "PC", registrationDate := 0, apiKey := "4f1c", createdAt := 0 }],
        by decide⟩ } }

def randomKey : RandomKey := ⟨String.ofList (List.replicate 64 'a'), by decide⟩

/-- A client that registers for the first time, under its own id. -/
def fresh (machineId : String) : ServerConnection :=
  { machineId := some machineId, apiKey := none, stored := none }

omit [Runtime] in
/-- The machine `PC` comes back under a new id, and takes over the old one. -/
theorem works_recovered :
    @Works Channels.numericRuntime recovering "a"
      (@register Channels.numericRuntime asciiCase (fresh "xyz") "PC" randomKey true
        recovering).connection :=
  (@works_iff Channels.numericRuntime asciiCase _ _ _ _ _ _ _ rfl rfl).mpr (by
    intro m hm
    cases hm
    decide)

omit [Runtime] in
/-- The machine `abc` registers as `ABC`: it keeps its own id, with the key of the other. -/
theorem registration_case_insensitive :
    (@register Channels.numericRuntime asciiCase (fresh "ABC") "PC" randomKey true
        recovering).succeeded ∧
      (@register Channels.numericRuntime asciiCase (fresh "ABC") "PC" randomKey true
        recovering).store.db = recovering.db ∧
      ¬ @Works Channels.numericRuntime recovering "a"
        (@register Channels.numericRuntime asciiCase (fresh "ABC") "PC" randomKey true
          recovering).connection := by
  refine ⟨rfl, rfl, ?_⟩
  rintro ⟨-, haccepts⟩
  obtain ⟨m, hm, hid, -⟩ := (@accepts_iff Channels.numericRuntime _ _ _).mp haccepts
  cases List.mem_singleton.mp hm
  have hkept : (@register Channels.numericRuntime asciiCase (fresh "ABC") "PC" randomKey true
      recovering).connection.machineId = some "ABC" := rfl
  rw [hkept] at hid
  exact absurd hid (by decide)

end Server.Registration
