/-
  THE MACHINE'S REST ROUTES (server/src/routes/machine/, middleware/auth.ts), `/api/machine/v1`.

  All but `register` run behind `authenticateMachine`, which finds the machine whose key the request
  carries.  The routes under it use `req.machine.id`; only `PUT /machines/:id` takes the machine
  from its URL.
-/
import Mathlib.Algebra.Ring.Int.Defs
import Vorsight.Server.SocketHandler

namespace Server

open Js Tables Tasks

variable [Runtime]

/-! ## Authentication -/

/-- `authenticateMachine`, with the route it guards. -/
def authenticateMachine (apiKey : Option String) (route : Machine → Task Store (Response Json)) :
    Task Store (Response Json) :=
  match apiKey.filter (· ≠ "") with
  | none => pure (.error 401 "Access denied. No API key provided.")
  | some apiKey => do
    -- only the lookup is inside the `try`
    let found ← Task.handle
      (some <$> read fun db => db.machines.rows.find? fun m => m.apiKey = apiKey) (pure none)
    match found with
    | none => pure (.error 400 "Invalid Request.")
    | some none => pure (.error 401 "Invalid API Key.")
    | some (some machine) => route machine

def ok (fields : List (String × Json)) : Response Json :=
  .json (.obj (("success", .bool true) :: fields))

/-! ## `/machines` -/

/-- `prisma.machine.findFirst({ where: { name } })`, only for a name that is there. -/
def findByName (name : Value) : Task Store (Option Machine) :=
  if truthy name then do
    let nameFilter ← .get (textFilter name)
    read fun db => db.machines.rows.find? fun m => nameFilter m.name
  else pure none

/-- `MachineService.register`; `apiKey` is the random key a new machine gets. -/
def registerMachine (machineId name hostname : Value) (apiKey : String) :
    Task Store (Bool × String × String) := do
  let id ← .get (requiredText machineId)
  match ← read fun db => db.machines.find id with
  | some existingById => pure (false, existingById.apiKey, existingById.id)
  | none =>
    match ← findByName name with
    | some existingByName => pure (false, existingByName.apiKey, existingByName.id)
    | none =>
      write fun db now => do
        let name ← requiredText name
        let hostname ← textArg (firstTruthy hostname (some .null))
        db.createMachine { id, name, hostname, registrationDate := now, apiKey, createdAt := now }
      pure (true, apiKey, id)

/-- `POST /machines/register`. -/
def postRegister (body : Value) (randomKey : String) : Task Store (Response Json) :=
  Task.handle (do
    let machineId ← .get (prop body "machineId")
    let name ← .get (prop body "name")
    let hostname ← .get (prop body "hostname")
    if !truthy machineId || !truthy name then
      pure (.error 400 "machineId and name are required")
    else
      let (isNew, apiKey, id) ← registerMachine machineId name hostname randomKey
      if isNew then
        emit .everyone fun now => .machineDiscovered id (template name) hostname now
        pure (ok [("apiKey", .str apiKey), ("machineId", .str id)])
      else
        pure (ok [("apiKey", .str apiKey), ("machineId", .str id),
          ("message", .str "Machine already registered")]))
    (pure (.error 500 "Registration failed"))
where
  template : Value → String
    | some (.str s) => s
    | _ => ""

/-- A value in `data` of an update of a required text column: a text, or `{ set: text }`. -/
def setText : Value → Option String
  | some (.str s) => some s
  | some (.obj [("set", .str s)]) => some s
  | _ => none

/-- `dataToUpdate`: only the fields that are there. -/
structure MachineUpdate where
  name : Option String
  hostname : Option String

def MachineUpdate.apply (u : MachineUpdate) (m : Machine) : Machine :=
  { m with name := u.name.getD m.name, hostname := u.hostname.or m.hostname }

omit [Runtime] in
theorem MachineUpdate.apply_id (u : MachineUpdate) (m : Machine) : (u.apply m).id = m.id := rfl

def dataToUpdate (name hostname : Value) : Option MachineUpdate := do
  let name ← if truthy name then some <$> setText name else some none
  let hostname ← if truthy hostname then some <$> setText hostname else some none
  pure { name, hostname }

/-- `PUT /machines/:id`: any machine's key gives access to any machine's row. -/
def putMachine (id : String) (body : Value) : Task Store (Response Json) :=
  Task.handle (do
    let name ← .get (prop body "name")
    let hostname ← .get (prop body "hostname")
    write fun db _ => do
      let update ← dataToUpdate name hostname
      db.updateMachine id update.apply update.apply_id
    pure (ok [])) (pure (.error 500 "Update failed"))

/-! ## `/configuration`, `/schedule` -/

/-- `POST /configuration/applied`. -/
def postApplied (machine : Machine) (body : Value) : Task Store (Response Json) :=
  Task.handle (do
    let settings ← .get (prop body "settings")
    if truthy settings then
      write fun db now => db.updateState machine.id
        (fun r => { r with appliedSettings := textOrJson settings, updatedAt := now }) fun _ => rfl
      pure (ok [])
    else pure (.error 400 "settings required"))
    (pure (.error 500 "Failed to report applied settings"))

/-- `GET /schedule`. -/
def getSchedule (machine : Machine) : Task Store (Response Json) :=
  Task.handle (do
    match ← findSettings machine.id with
    | some settings =>
      let accessControl := settings "accessControl"
      let schedule :=
        if accessControl.isNone then none else (prop accessControl "schedule").getD none
      let schedule := firstTruthy schedule (firstTruthy (settings "schedule") (some .null))
      pure (.json (schedule.getD .null))
    | none => pure (.json .null)) (pure (.error 500 "Failed to fetch schedule"))

/-! ## `/logs` -/

/-- The row of one log entry; `none` when Prisma rejects it. -/
def logRow (id : String) (log : Value) (now : DateTime) : Option MachineLog := do
  let timestamp ← newDate (← prop log "timestamp")
  let level ← requiredText (← prop log "level")
  let message ← requiredText (← prop log "message")
  let exception ← textArg (← prop log "exception")
  let sourceContext ← textArg (← prop log "sourceContext")
  pure { id := 0, machineId := id, timestamp, level, message, exception, sourceContext,
         createdAt := now }

/-- `POST /logs`. -/
def postLogs (machine : Machine) (body : Value) : Task Store (Response Json) :=
  Task.handle (do
    match body with
    | some (.arr []) => pure (.json (.obj [("count", .num 0)]))
    | some (.arr logs) =>
      write fun db now => do
        let rows ← logs.mapM fun log => logRow machine.id (some log) now
        db.createLogs machine.id rows
      pure (.json (.obj [("count", .num logs.length)]))
    | _ => pure (.error 400 "Body must be an array of logs"))
    (pure (.error 500 "Failed to ingest logs"))

/-! ## `/activity` -/

/-- The time of a heartbeat as a date and in seconds: a text is a date, anything else seconds. -/
def heartbeatTime (timestamp : Value) (now : DateTime) : Option (DateTime × Value) :=
  match timestamp with
  | some (.str _) => (newDate timestamp).map fun time => (time, some (.num (time / 1000)))
  | _ =>
    let timeSeconds := firstTruthy timestamp (some (.num (now / 1000)))
    let millis : Value := match timeSeconds with
      | some (.num n) => some (.num (n * 1000))
      | some (.dec m p) => some (.dec (m * 1000) p)
      | some (.bool b) => some (.num (1000 * b.toNat))
      | _ => none
    (newDate millis).map fun time => (time, timeSeconds)

/-- `gap <= v * 2`. -/
def withinTwice (gap : Int) : Value → Bool
  | some (.num n) => gap ≤ n * 2
  | some (.dec m p) => gap * 10 ^ p ≤ m * 2
  | some (.bool b) => gap ≤ 2 * b.toNat
  | some v => (Runtime.numberOf v).any fun (m, p) => gap * 10 ^ p ≤ m * 2
  | none => false

/-- The fields of the body. -/
structure Heartbeat where
  timestamp : Value
  activeWindow : Value
  processName : Value
  username : Value
  pingIntervalSeconds : Value

def readHeartbeat (body : Value) : Option Heartbeat := do
  let timestamp ← prop body "timestamp"
  let activeWindow ← prop body "activeWindow"
  let processName ← prop body "processName"
  let username ← prop body "username"
  let pingInterval ← prop body "pingIntervalSeconds"
  pure { timestamp, activeWindow, processName, username,
         pingIntervalSeconds := firstTruthy pingInterval (some (.num 30)) }

def Heartbeat.historyRow (h : Heartbeat) (id : String) (timestamp : DateTime) :
    Option ActivityHistory := do
  let activeWindow ← textArg h.activeWindow
  let processName ← textArg h.processName
  let username ← textArg h.username
  pure { id := 0, machineId := id, timestamp, activeWindow, processName, duration := none,
         username }

/-- Store raw heartbeat. -/
def createHeartbeat (id : String) (h : Heartbeat) (time : DateTime) (db : Database)
    (_ : DateTime) : Option Database := do
  let row ← h.historyRow id time
  db.createHistory id row

/-- Whether a heartbeat continues the most recent session. -/
def continues (h : Heartbeat) (timeSeconds : Int) (recent : ActivitySession) : Bool :=
  strictEq recent.processName h.processName && strictEq recent.activeWindow h.activeWindow &&
    withinTwice (timeSeconds - recent.endTime) h.pingIntervalSeconds

/-- Extend existing session: unlike the socket's, up to the heartbeat's own time. -/
def extendTo (recent : ActivitySession) (timeSeconds : Int) (db : Database) (now : DateTime) :
    Option Database :=
  db.updateSession recent.id (fun r => { r with
    endTime := timeSeconds
    durationSeconds := timeSeconds - recent.startTime
    heartbeatCount := recent.heartbeatCount + 1
    updatedAt := now }) fun _ => rfl

def Heartbeat.sessionRow (h : Heartbeat) (id : String) (timeSeconds : Int) (now : DateTime) :
    Option ActivitySession := do
  let processName ← textArg h.processName
  let activeWindow ← textArg h.activeWindow
  let username ← textArg h.username
  pure { id := 0, machineId := id, startTime := timeSeconds, endTime := timeSeconds,
         durationSeconds := 0, processName, activeWindow, username, createdAt := now,
         updatedAt := now }

/-- Create new session, of no length yet. -/
def startAt (id : String) (h : Heartbeat) (timeSeconds : Int) (db : Database) (now : DateTime) :
    Option Database := do
  let row ← h.sessionRow id timeSeconds now
  db.createSession id row

/-- Update sessions (aggregation). -/
def updateSessions (id : String) (h : Heartbeat) (timeSeconds : Int)
    (recent : Option ActivitySession) : Task Store Unit :=
  match recent.filter (continues h timeSeconds) with
  | some recent => write (extendTo recent timeSeconds)
  | none => write (startAt id h timeSeconds)

/-- `POST /activity`. -/
def postActivity (machine : Machine) (body : Value) : Task Store (Response Json) :=
  Task.handle (do
    let h ← .get (readHeartbeat body)
    let now ← .look fun s => s.now
    let time ← .get (heartbeatTime h.timestamp now)
    write (createHeartbeat machine.id h time.1)
    let recent ← read (recentSession machine.id)
    -- a time in seconds that is no integer is rejected by either call below
    let timeSeconds ← .get (requiredInt time.2)
    updateSessions machine.id h timeSeconds recent
    pure (ok [])) (pure (.error 500 "Failed to add activity"))

/-! ## The dispatch -/

/-- What a REST client can request; `apiKey` is the `X-API-Key` header. -/
inductive Request
  | register (body : Value) (randomKey : String)
  | put (apiKey : Option String) (id : String) (body : Value)
  | applied (apiKey : Option String) (body : Value)
  | schedule (apiKey : Option String)
  | logs (apiKey : Option String) (body : Value)
  | activity (apiKey : Option String) (body : Value)
  | upload (apiKey : Option String)

/-- The key a request carries. -/
def Request.apiKey : Request → Option String
  | .register .. => none
  | .put apiKey .. => apiKey
  | .applied apiKey _ => apiKey
  | .schedule apiKey => apiKey
  | .logs apiKey _ => apiKey
  | .activity apiKey _ => apiKey
  | .upload apiKey => apiKey

/-- The routes mounted under `/api/machine/v1`. -/
def onRequest : Request → Task Store (Response Json)
  | .register body randomKey => postRegister body randomKey
  | .put apiKey id body => authenticateMachine apiKey fun _ => putMachine id body
  | .applied apiKey body => authenticateMachine apiKey (postApplied · body)
  | .schedule apiKey => authenticateMachine apiKey getSchedule
  | .logs apiKey body => authenticateMachine apiKey (postLogs · body)
  | .activity apiKey body => authenticateMachine apiKey (postActivity · body)
  | .upload apiKey => authenticateMachine apiKey fun _ =>
      pure (ok [("message", .str "Upload stub")])

end Server
