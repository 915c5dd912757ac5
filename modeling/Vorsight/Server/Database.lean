/-
  THE SERVER'S DATABASE (prisma/schema.prisma).

  One structure per model of the schema, with its columns, and one keyed table per model; the
  primary key is in the table's type.  A text column that holds JSON keeps the value its text
  parses to (`JSON.stringify` and `JSON.parse` undo each other on it); where a handler may store a
  text as it came, the column is a `Text`.

  The operations are the Prisma calls the handlers make.  Each names the machine its row belongs to
  and is `none` where Prisma throws: a required row is missing, or the machine a new row refers to.
  `rowsOf` is all that is stored about one machine.  `Touches id` is what an operation for machine
  `id` does: what is stored about the others stays, and so does what others may rely on (`Evolves`):
  no machine disappears or changes its key, no session changes its machine.
-/
import Vorsight.Library.Js
import Vorsight.Library.Table

namespace Server

open Js Tables

/-- Milliseconds since 1970-01-01T00:00:00Z. -/
abbrev DateTime := Int

/-- A text column: a text stored as it came, or `JSON.stringify` of a value. -/
inductive Text
  | raw (text : String)
  | json (value : Json)

/-- `Machine.status`. -/
inductive MachineStatus
  | pending
  | active
  | archived
deriving DecidableEq, Repr

structure Machine where
  id : String
  name : String
  displayName : Option String := none
  hostname : Option String := none
  ipAddress : Option String := none
  registrationDate : DateTime
  lastSeen : Option DateTime := none
  status : MachineStatus := .pending
  apiKey : String
  createdAt : DateTime
deriving DecidableEq, Repr

structure MachineState where
  machineId : String
  lastActivityTime : Option DateTime := none
  activeWindow : Option String := none
  screenshotCount : Int := 0
  uploadCount : Int := 0
  healthStatus : Option Text := none
  settings : Option (Obj Json) := none
  appliedSettings : Option Text := none
  lastPingTime : Option DateTime := none
  lastPingSuccess : Option DateTime := none
  pingLatency : Option Int := none
  updatedAt : DateTime

structure MachineLog where
  id : Nat
  machineId : String
  timestamp : DateTime
  level : String
  message : String
  exception : Option String
  sourceContext : Option String
  createdAt : DateTime
deriving DecidableEq, Repr

structure ActivityHistory where
  id : Nat
  machineId : String
  timestamp : DateTime
  activeWindow : Option String
  processName : Option String
  duration : Option Int
  username : Option String
deriving DecidableEq, Repr

/-- Session times are in seconds. -/
structure ActivitySession where
  id : Nat
  machineId : String
  startTime : Int
  endTime : Int
  durationSeconds : Int
  processName : Option String
  activeWindow : Option String
  username : Option String
  heartbeatCount : Int := 1
  createdAt : DateTime
  updatedAt : DateTime
deriving DecidableEq, Repr

structure Screenshot where
  id : String
  machineId : String
  captureTime : DateTime
  triggerType : Option String := none
  googleDriveFileId : Option String := none
  localPath : Option String := none
  isUploaded : Bool := false
deriving DecidableEq, Repr

structure AuditEvent where
  id : Nat
  machineId : String
  eventId : String
  eventType : Option String
  username : Option String
  timestamp : DateTime
  details : Option Text
  sourceLogName : Option String
  isFlagged : Bool := true
  acknowledged : Bool := false
  createdAt : DateTime

structure ConnectionEvent where
  id : Nat
  machineId : String
  eventType : String
  timestamp : DateTime
  metadata : Option Text := none

/-- The tables the machine side of the server reads and writes. -/
structure Database where
  machines : Table Machine.id
  machineStates : Table MachineState.machineId
  machineLogs : Sequence MachineLog.id
  activityHistory : Sequence ActivityHistory.id
  activitySessions : Sequence ActivitySession.id
  screenshots : Table Screenshot.id
  auditEvents : Sequence AuditEvent.id
  connectionEvents : Sequence ConnectionEvent.id

def Database.empty : Database where
  machines := .empty
  machineStates := .empty
  machineLogs := .empty
  activityHistory := .empty
  activitySessions := .empty
  screenshots := .empty
  auditEvents := .empty
  connectionEvents := .empty

namespace Database

/-! ## Operations -/

/-- A row that refers to machine `id` can be written only if there is one. -/
def forMachine (db : Database) (id : String) (db' : Database) : Option Database :=
  if (db.machines.find id).isSome then some db' else none

/-- `machine.update`. -/
def updateMachine (db : Database) (id : String) (f : Machine → Machine)
    (hf : ∀ m, (f m).id = m.id) : Option Database :=
  db.forMachine id { db with machines := db.machines.update id f hf }

/-- `machine.create`: ids and keys are unique. -/
def createMachine (db : Database) (m : Machine) : Option Database :=
  if db.machines.rows.any (·.apiKey = m.apiKey) then none
  else (db.machines.create m).map fun machines => { db with machines }

/-- `machineState.update`. -/
def updateState (db : Database) (id : String) (f : MachineState → MachineState)
    (hf : ∀ r, (f r).machineId = r.machineId) : Option Database :=
  if (db.machineStates.find id).isSome then
    some { db with machineStates := db.machineStates.update id f hf }
  else none

/-- `machineState.upsert`. -/
def upsertState (db : Database) (id : String) (create : MachineState)
    (update : MachineState → MachineState) (hf : ∀ r, (update r).machineId = r.machineId) :
    Option Database :=
  match db.machineStates.find id with
  | some _ => db.updateState id update hf
  | none => (db.machineStates.create { create with machineId := id }).bind fun machineStates =>
      db.forMachine id { db with machineStates }

def createHistory (db : Database) (id : String) (row : ActivityHistory) : Option Database :=
  db.forMachine id { db with
    activityHistory :=
      db.activityHistory.create (fun n => { row with id := n, machineId := id }) fun _ => rfl }

def createSession (db : Database) (id : String) (row : ActivitySession) : Option Database :=
  db.forMachine id { db with
    activitySessions :=
      db.activitySessions.create (fun n => { row with id := n, machineId := id }) fun _ => rfl }

/-- `activitySession.update`, by the session's own id. -/
def updateSession (db : Database) (session : Nat) (f : ActivitySession → ActivitySession)
    (hf : ∀ r, (f r).id = r.id) : Option Database :=
  if (db.activitySessions.find session).isSome then
    some { db with activitySessions := db.activitySessions.update session f hf }
  else none

def createAudit (db : Database) (id : String) (row : AuditEvent) : Option Database :=
  db.forMachine id { db with
    auditEvents :=
      db.auditEvents.create (fun n => { row with id := n, machineId := id }) fun _ => rfl }

def createScreenshot (db : Database) (id : String) (row : Screenshot) : Option Database :=
  (db.screenshots.create { row with machineId := id }).bind fun screenshots =>
    db.forMachine id { db with screenshots }

def createConnectionEvent (db : Database) (id : String) (row : ConnectionEvent) :
    Option Database :=
  db.forMachine id { db with
    connectionEvents :=
      db.connectionEvents.create (fun n => { row with id := n, machineId := id }) fun _ => rfl }

/-- `machineLog.createMany`. -/
def createLogs (db : Database) (id : String) (rows : List MachineLog) : Option Database :=
  db.forMachine id { db with
    machineLogs := rows.foldl (fun t row =>
      t.create (fun n => { row with id := n, machineId := id }) fun _ => rfl) db.machineLogs }

/-! ## What is stored about one machine -/

/-- The rows of one machine. -/
@[ext] structure MachineRows where
  machine : Option Machine
  state : Option MachineState
  activityHistory : List ActivityHistory
  activitySessions : List ActivitySession
  auditEvents : List AuditEvent
  screenshots : List Screenshot

def rowsOf (db : Database) (id : String) : MachineRows where
  machine := db.machines.find id
  state := db.machineStates.find id
  activityHistory := db.activityHistory.rows.filter (·.machineId = id)
  activitySessions := db.activitySessions.rows.filter (·.machineId = id)
  auditEvents := db.auditEvents.rows.filter (·.machineId = id)
  screenshots := db.screenshots.rows.filter (·.machineId = id)

/-- The key of a machine. -/
def keyOf (db : Database) (id : String) : Option String := (db.machines.find id).map (·.apiKey)

/-- The stored settings of a machine. -/
def settingsOf (db : Database) (id : String) : Option (Obj Json) :=
  (db.machineStates.find id).bind (·.settings)

/-- Session numbers are not used again: an old number stands for a session of the same machine. -/
def SessionsKept (a b : Sequence ActivitySession.id) : Prop :=
  a.next ≤ b.next ∧ ∀ r ∈ b.rows, r.id < a.next →
    ∃ r' ∈ a.rows, r'.id = r.id ∧ r'.machineId = r.machineId

/-- What every change of the database preserves. -/
structure Evolves (db db' : Database) : Prop where
  keys : ∀ id key, db.keyOf id = some key → db'.keyOf id = some key
  sessions : SessionsKept db.activitySessions db'.activitySessions

/-- What an operation for one machine does. -/
structure Touches (id : String) (db db' : Database) : Prop extends Evolves db db' where
  others : ∀ other, other ≠ id → db'.rowsOf other = db.rowsOf other

theorem SessionsKept.refl (a : Sequence ActivitySession.id) : SessionsKept a a :=
  ⟨Nat.le_refl _, fun r hr _ => ⟨r, hr, rfl, rfl⟩⟩

theorem SessionsKept.trans {a b c : Sequence ActivitySession.id} (hab : SessionsKept a b)
    (hbc : SessionsKept b c) : SessionsKept a c := by
  refine ⟨Nat.le_trans hab.1 hbc.1, fun r hr hlt => ?_⟩
  obtain ⟨r', hr', hid, hm⟩ := hbc.2 r hr (Nat.lt_of_lt_of_le hlt hab.1)
  obtain ⟨r'', hr'', hid', hm'⟩ := hab.2 r' hr' (hid ▸ hlt)
  exact ⟨r'', hr'', hid'.trans hid, hm'.trans hm⟩

theorem Evolves.refl (db : Database) : Evolves db db := ⟨fun _ _ h => h, .refl _⟩

theorem Evolves.trans {a b c : Database} (hab : Evolves a b) (hbc : Evolves b c) : Evolves a c :=
  ⟨fun id key h => hbc.keys id key (hab.keys id key h), hab.sessions.trans hbc.sessions⟩

section Touches

variable {db db' : Database} {id : String}

theorem forMachine_eq_some {d : Database} :
    db.forMachine id d = some db' ↔ (db.machines.find id).isSome ∧ db' = d := by
  unfold forMachine
  split
  · rename_i h
    exact ⟨fun he => ⟨h, (Option.some.inj he).symm⟩, fun he => congrArg some he.2.symm⟩
  · rename_i h
    exact ⟨(nomatch ·), fun he => absurd he.1 h⟩

theorem touches_updateMachine {f : Machine → Machine} {hf : ∀ m, (f m).id = m.id}
    (h : db.updateMachine id f hf = some db') (hkey : ∀ m, (f m).apiKey = m.apiKey) :
    Touches id db db' := by
  obtain ⟨-, rfl⟩ := forMachine_eq_some.mp h
  refine ⟨⟨fun other key hk => ?_, .refl _⟩, fun other hne => ?_⟩
  · rw [keyOf, Table.find_update]
    split
    · rename_i ho
      subst ho
      simpa [keyOf, hkey, Function.comp_def] using hk
    · exact hk
  · simp only [rowsOf, Table.find_update, if_neg hne]

theorem touches_createMachine {m : Machine} (h : db.createMachine m = some db') :
    Touches m.id db db' := by
  unfold createMachine at h
  split at h
  · cases h
  · obtain ⟨machines, hcreate, rfl⟩ := Option.map_eq_some_iff.mp h
    have hnone := (Table.create_eq_some.mp hcreate).1
    refine ⟨⟨fun other key hk => ?_, .refl _⟩, fun other hne => ?_⟩
    · have hne : other ≠ m.id := by
        rintro rfl
        simp [keyOf, hnone] at hk
      rw [keyOf, Table.find_create hcreate, if_neg hne]
      exact hk
    · simp only [rowsOf, Table.find_create hcreate, if_neg hne]

theorem touches_updateState {f : MachineState → MachineState}
    {hf : ∀ r, (f r).machineId = r.machineId} (h : db.updateState id f hf = some db') :
    Touches id db db' := by
  unfold updateState at h
  split at h
  · cases h
    refine ⟨⟨fun _ _ hk => hk, .refl _⟩, fun other hne => ?_⟩
    simp only [rowsOf, Table.find_update, if_neg hne]
  · cases h

theorem touches_upsertState {create : MachineState} {update : MachineState → MachineState}
    {hf : ∀ r, (update r).machineId = r.machineId}
    (h : db.upsertState id create update hf = some db') : Touches id db db' := by
  unfold upsertState at h
  split at h
  · exact touches_updateState h
  · obtain ⟨states, hcreate, h⟩ := Option.bind_eq_some_iff.mp h
    obtain ⟨-, rfl⟩ := forMachine_eq_some.mp h
    refine ⟨⟨fun _ _ hk => hk, .refl _⟩, fun other hne => ?_⟩
    simp only [rowsOf, Table.find_create hcreate, if_neg hne]

theorem touches_createHistory {row : ActivityHistory} (h : db.createHistory id row = some db') :
    Touches id db db' := by
  obtain ⟨-, rfl⟩ := forMachine_eq_some.mp h
  exact ⟨⟨fun _ _ hk => hk, .refl _⟩, fun other hne => by simp [rowsOf, hne.symm]⟩

theorem touches_createSession {row : ActivitySession} (h : db.createSession id row = some db') :
    Touches id db db' := by
  obtain ⟨-, rfl⟩ := forMachine_eq_some.mp h
  refine ⟨⟨fun _ _ hk => hk, Nat.le_succ _, fun r hr hlt => ?_⟩,
    fun other hne => by simp [rowsOf, hne.symm]⟩
  rcases List.mem_append.mp hr with hr | hr
  · exact ⟨r, hr, rfl, rfl⟩
  · rw [List.mem_singleton.mp hr] at hlt
    exact absurd hlt (Nat.lt_irrefl _)

/-- A session that belongs to the machine, under its number. -/
def Owns (db : Database) (id : String) (session : Nat) : Prop :=
  session < db.activitySessions.next ∧
    ∀ r ∈ db.activitySessions.rows, r.id = session → r.machineId = id

theorem Owns.stable {session : Nat} (h : db.Owns id session) (he : Evolves db db') :
    db'.Owns id session := by
  refine ⟨Nat.lt_of_lt_of_le h.1 he.sessions.1, fun r hr hid => ?_⟩
  obtain ⟨r', hr', hid', hm⟩ := he.sessions.2 r hr (hid ▸ h.1)
  rw [← hm]
  exact h.2 r' hr' (hid'.trans hid)

/-- A session found in the table belongs to its machine. -/
theorem owns_of_mem {r : ActivitySession} (hr : r ∈ db.activitySessions.rows) :
    db.Owns r.machineId r.id :=
  ⟨db.activitySessions.below r hr, fun _ hr' hid =>
    congrArg ActivitySession.machineId (Table.eq_of_key hr' hr hid)⟩

theorem touches_updateSession {session : Nat} {f : ActivitySession → ActivitySession}
    {hf : ∀ r, (f r).id = r.id} (h : db.updateSession session f hf = some db')
    (howns : db.Owns id session) (hkeep : ∀ r, (f r).machineId = r.machineId) :
    Touches id db db' := by
  unfold updateSession at h
  split at h
  · cases h
    refine ⟨⟨fun _ _ hk => hk, Nat.le_refl _, fun r hr _ => ?_⟩, fun other hne => ?_⟩
    · have hr : r ∈ (db.activitySessions.toTable.update session f hf).rows := hr
      rcases Table.mem_update.mp hr with ⟨hr, -⟩ | ⟨r', hr', -, rfl⟩
      · exact ⟨r, hr, rfl, rfl⟩
      · exact ⟨r', hr', (hf r').symm, (hkeep r').symm⟩
    · simp only [rowsOf, Sequence.rows_update, MachineRows.mk.injEq, true_and, and_true]
      exact filter_map_other fun r hr hid => howns.2 r hr hid ▸ hne.symm
  · cases h
where
  filter_map_other {other : String} : ∀ {rows : List ActivitySession},
      (∀ r ∈ rows, r.id = session → r.machineId ≠ other) →
      (rows.map fun r => if r.id = session then f r else r).filter (·.machineId = other) =
        rows.filter (·.machineId = other)
    | [], _ => rfl
    | r :: rows, h => by
      have hrest := filter_map_other fun r' hr' => h r' (List.mem_cons_of_mem r hr')
      by_cases hr : r.id = session
      · have hne := h r List.mem_cons_self hr
        rw [List.map_cons, if_pos hr, List.filter_cons_of_neg (by simpa [hkeep] using hne),
          List.filter_cons_of_neg (by simpa using hne), hrest]
      · rw [List.map_cons, if_neg hr, List.filter_cons, List.filter_cons, hrest]

theorem touches_createAudit {row : AuditEvent} (h : db.createAudit id row = some db') :
    Touches id db db' := by
  obtain ⟨-, rfl⟩ := forMachine_eq_some.mp h
  exact ⟨⟨fun _ _ hk => hk, .refl _⟩, fun other hne => by simp [rowsOf, hne.symm]⟩

theorem touches_createScreenshot {row : Screenshot} (h : db.createScreenshot id row = some db') :
    Touches id db db' := by
  obtain ⟨shots, hcreate, h⟩ := Option.bind_eq_some_iff.mp h
  obtain ⟨-, rfl⟩ := forMachine_eq_some.mp h
  have hrows := (Table.create_eq_some.mp hcreate).2
  refine ⟨⟨fun _ _ hk => hk, .refl _⟩, fun other hne => ?_⟩
  simp only [rowsOf, hrows, List.filter_append]
  simp [hne.symm]

theorem touches_createConnectionEvent {row : ConnectionEvent}
    (h : db.createConnectionEvent id row = some db') : Touches id db db' := by
  obtain ⟨-, rfl⟩ := forMachine_eq_some.mp h
  exact ⟨⟨fun _ _ hk => hk, .refl _⟩, fun _ _ => rfl⟩

theorem touches_createLogs {rows : List MachineLog} (h : db.createLogs id rows = some db') :
    Touches id db db' := by
  obtain ⟨-, rfl⟩ := forMachine_eq_some.mp h
  exact ⟨⟨fun _ _ hk => hk, .refl _⟩, fun _ _ => rfl⟩

end Touches

end Database

/-- What an HTTP route answers. -/
inductive Response (α : Type)
  | json (body : α)
  | error (status : Nat) (message : String)

end Server
