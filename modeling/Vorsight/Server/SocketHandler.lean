/-
  THE SOCKET HANDLERS (server/src/websocket/socketHandler.ts).

  One task per event, in the order of the source; `onMessage` dispatches.  Every handler takes the
  machine's id from the payload it is sent.  A payload is an arbitrary value: reading a field of
  `undefined` or `null` throws, fields are looked for under their camelCase and their PascalCase
  name, and what a column does not accept makes the Prisma call throw.
-/
import Vorsight.Server.Store

namespace Server

open Js Tables Tasks

variable [Runtime]

/-- `v.a || v.b`. -/
def pick (v : Value) (a b : String) : Option Value := do
  let x ← prop v a
  let y ← prop v b
  pure (firstTruthy x y)

/-! ## `web:*` -/

def webSubscribe (socket : String) : Task Store Unit :=
  Task.handle (broadcastMachineList (.socket socket)) (pure ())

def webWatch (socket machineId : String) : Task Store Unit :=
  if machineId = "" then pure ()
  else .effect fun s => s.updateSocket socket
    (fun k => { k with rooms := machineRoom machineId :: k.rooms }) fun _ => rfl

def webUnwatch (socket machineId : String) : Task Store Unit :=
  if machineId = "" then pure ()
  else .effect fun s => s.updateSocket socket
    (fun k => { k with rooms := k.rooms.filter (· ≠ machineRoom machineId) }) fun _ => rfl

/-! ## `machine:connect` -/

/-- `${machineId}`, for the values that get as far as `socket.join`. -/
def template : Value → String
  | some (.str s) => s
  | _ => "[object Object]"

/-- The credentials are accepted: `socket.machineId = machineId; socket.join(…)`. -/
def accept (socket : String) (machineId apiKey : Value) : Task Store Unit :=
  .effect fun s =>
    { s.updateSocket socket (fun k => { k with
        machineId, rooms := machineRoom (template machineId) :: k.rooms }) fun _ => rfl with
      connects := s.connects ++ [{ socket, machineId, apiKey }] }

/-- What follows an accepted `machine:connect`. -/
def announce (socket : String) (machineId : Value) (machine : Machine) : Task Store Unit := do
  let id ← .get (requiredText machineId)
  let address ← .look fun s => (s.sockets.find socket).map (·.address)
  write fun db now => db.updateMachine id
    (fun m => { m with lastSeen := some now, ipAddress := address }) fun _ => rfl
  write fun db now => db.createConnectionEvent id
    { id := 0, machineId := id, eventType := "Connected", timestamp := now }
  if machine.status = .archived then
    emit (.socket socket) fun _ => .machineConnected
    emit (.socket socket) fun now => .machineArchived id now
  else
    emit .everyone fun now => .machineOnline id now
    broadcastMachineList .everyone
    emit (.socket socket) fun _ => .machineConnected

/-- `prisma.machine.findFirst({ where: { id: machineId, apiKey: apiKey } })`. -/
def findCredentials (machineId apiKey : Value) : Task Store (Option Machine) := do
  let idFilter ← .get (textFilter machineId)
  let keyFilter ← .get (textFilter apiKey)
  read fun db => db.machines.rows.find? fun m => idFilter m.id && keyFilter m.apiKey

/-- `socket.on('machine:connect')`. -/
def machineConnect (socket : String) (data : Value) : Task Store Unit :=
  Task.handle (do
    let machineId ← .get (prop data "machineId")
    let apiKey ← .get (prop data "apiKey")
    if !truthy machineId || !truthy apiKey then
      emit (.socket socket) fun _ => .machineError "Missing credentials"
    else
      match ← findCredentials machineId apiKey with
      | some machine =>
        accept socket machineId apiKey
        announce socket machineId machine
      | none => emit (.socket socket) fun _ => .machineError "Invalid credentials")
    (emit (.socket socket) fun _ => .machineError "Connection failed")

/-! ## `machine:heartbeat` -/

/-- `{ ...state, version: state.version || null }`. -/
def withVersion : Value → Value
  | some (.obj fields) =>
    let version := firstTruthy (fields.lookup "version") (some .null)
    some (.obj (fields.filter (·.1 ≠ "version") ++ [("version", version.getD .null)]))
  | _ => some (.obj [("version", .null)])

/-- The fields of a heartbeat, as the columns take them. -/
structure StateFields where
  lastActivityTime : DateTime
  activeWindow : Value
  activeWindowArg : Option String
  screenshotCount : Int
  uploadCount : Int
  health : Value

def stateFields (state : Value) (now : DateTime) : Option StateFields := do
  let lastActivityTime ← pick state "lastActivityTime" "LastActivityTime"
  let lastActivityTime ← if truthy lastActivityTime then newDate lastActivityTime else some now
  let activeWindow ← pick state "activeWindow" "ActiveWindow"
  let activeWindowArg ← textArg activeWindow
  let screenshotCount ← pick state "screenshotCount" "ScreenshotCount"
  let screenshotCount ← requiredInt (firstTruthy screenshotCount (some (.num 0)))
  let uploadCount ← pick state "uploadCount" "UploadCount"
  let uploadCount ← requiredInt (firstTruthy uploadCount (some (.num 0)))
  let health ← pick state "health" "Health"
  pure { lastActivityTime, activeWindow, activeWindowArg, screenshotCount, uploadCount, health }

/-- `prisma.machineState.upsert(…)`: an update leaves the settings alone. -/
def upsertHeartbeat (id : String) (existingSettings : Option (Obj Json)) (state : Value)
    (db : Database) (now : DateTime) : Option Database := do
  let s ← stateFields state now
  db.upsertState id
    { machineId := id, lastActivityTime := some s.lastActivityTime,
      activeWindow := s.activeWindowArg, screenshotCount := s.screenshotCount,
      uploadCount := s.uploadCount, healthStatus := stringifyArg s.health,
      settings := existingSettings, updatedAt := now }
    (fun r => { r with
      lastActivityTime := some s.lastActivityTime
      activeWindow := assign s.activeWindow s.activeWindowArg r.activeWindow
      screenshotCount := s.screenshotCount
      uploadCount := s.uploadCount
      healthStatus := assign s.health (stringifyArg s.health) r.healthStatus
      updatedAt := now }) fun _ => rfl

/-- `data: { lastSeen: new Date() }`. -/
def touch (id : String) : Task Store Unit :=
  write fun db now => db.updateMachine id (fun m => { m with lastSeen := some now }) fun _ => rfl

/-- The part of a heartbeat behind the status check. -/
def storeHeartbeat (id : String) (state : Value) : Task Store Unit := do
  let existingSettings ← read fun db => (db.machineStates.find id).bind (·.settings)
  write (upsertHeartbeat id existingSettings state)
  touch id
  emit .everyone fun now => .machineState id (withVersion state) now

/-- `socket.on('machine:heartbeat')`. -/
def machineHeartbeat (data : Value) : Task Store Unit :=
  Task.handle (do
    let machineId ← .get (prop data "machineId")
    let state ← .get (prop data "state")
    if truthy machineId then
      let id ← .get (requiredText machineId)
      match ← findStatus id with
      | some .active => storeHeartbeat id state
      | some .pending => touch id
      | _ => pure ()) (pure ())

/-! ## `machine:activity` -/

/-- The frame of the handlers that only active machines get past: `data` names a machine and holds
    a payload under `field`. -/
def whenActive (data : Value) (field : String) (store : String → Value → Task Store Unit) :
    Task Store Unit :=
  Task.handle (do
    let machineId ← .get (prop data "machineId")
    let payload ← .get (prop data field)
    if truthy machineId then
      let id ← .get (requiredText machineId)
      match ← findStatus id with
      | some .active => store id payload
      | _ => pure ()) (pure ())

/-- `prisma.activitySession.findFirst({ where: { machineId }, orderBy: { endTime: 'desc' } })`. -/
def recentSession (id : String) (db : Database) : Option ActivitySession :=
  ((db.activitySessions.rows.filter (·.machineId = id)).insertionSort
    fun a b => b.endTime ≤ a.endTime).head?

/-- The fields of an activity. -/
structure Activity where
  timestamp : Value
  activeWindow : Value
  processName : Value
  duration : Value
  username : Value

def readActivity (a : Value) : Option Activity := do
  let timestamp ← pick a "timestamp" "Timestamp"
  let activeWindow ← pick a "activeWindow" "ActiveWindow"
  let processName ← pick a "processName" "ProcessName"
  let duration ← pick a "duration" "Duration"
  let username ← pick a "username" "Username"
  pure { timestamp, activeWindow, processName, duration, username }

/-- `username || null`. -/
def Activity.usernameArg (a : Activity) : Option (Option String) :=
  textArg (firstTruthy a.username (some .null))

def Activity.historyRow (a : Activity) (id : String) : Option ActivityHistory := do
  let timestamp ← newDate a.timestamp
  let activeWindow ← textArg a.activeWindow
  let processName ← textArg a.processName
  let duration ← intArg a.duration
  let username ← a.usernameArg
  pure { id := 0, machineId := id, timestamp, activeWindow, processName, duration, username }

/-- 1. Store raw heartbeat. -/
def createActivityHistory (id : String) (a : Activity) (db : Database) (_ : DateTime) :
    Option Database := do
  let row ← a.historyRow id
  db.createHistory id row

/-- `pingIntervalSeconds`. -/
def pingIntervalSeconds : Int := 10

/-- Whether an activity continues the most recent session. -/
def shouldExtend (a : Activity) (timeSeconds : Int) (recent : ActivitySession) : Bool :=
  strictEq recent.processName a.processName && strictEq recent.activeWindow a.activeWindow &&
    timeSeconds - recent.endTime ≤ pingIntervalSeconds * 2

/-- Extend existing session. -/
def extendSession (recent : ActivitySession) (a : Activity) (timeSeconds : Int) (db : Database)
    (now : DateTime) : Option Database := do
  let newEndTime ← addInt timeSeconds a.duration
  db.updateSession recent.id (fun r => { r with
    endTime := newEndTime
    durationSeconds := newEndTime - recent.startTime
    heartbeatCount := recent.heartbeatCount + 1
    updatedAt := now }) fun _ => rfl

def Activity.sessionRow (a : Activity) (id : String) (timeSeconds : Int) (now : DateTime) :
    Option ActivitySession := do
  let endTime ← addInt timeSeconds a.duration
  let durationSeconds ← requiredInt a.duration
  let processName ← textArg a.processName
  let activeWindow ← textArg a.activeWindow
  let username ← a.usernameArg
  pure { id := 0, machineId := id, startTime := timeSeconds, endTime, durationSeconds, processName,
         activeWindow, username, createdAt := now, updatedAt := now }

/-- Create new session. -/
def startSession (id : String) (a : Activity) (timeSeconds : Int) (db : Database)
    (now : DateTime) : Option Database := do
  let row ← a.sessionRow id timeSeconds now
  db.createSession id row

/-- 2. Aggregate into Sessions. -/
def aggregate (id : String) (a : Activity) (timeSeconds : Int) (recent : Option ActivitySession) :
    Task Store Unit :=
  match recent.filter (shouldExtend a timeSeconds) with
  | some recent => write (extendSession recent a timeSeconds)
  | none => write (startSession id a timeSeconds)

/-- The part of an activity behind the status check. -/
def storeActivity (id : String) (activity : Value) : Task Store Unit := do
  let a ← .get (readActivity activity)
  write (createActivityHistory id a)
  let recent ← read (recentSession id)
  -- an invalid date has thrown in the call above
  let activityTime ← .get (newDate a.timestamp)
  aggregate id a (activityTime / 1000) recent
  emit (.room (machineRoom id)) fun _ =>
    .activityUpdate a.timestamp a.activeWindow a.processName a.duration a.username

/-- `socket.on('machine:activity')`. -/
def machineActivity (data : Value) : Task Store Unit :=
  whenActive data "activity" storeActivity

/-! ## `machine:audit` -/

/-- The row of an event. -/
def auditRow (id : String) (ae : Value) (now : DateTime) : Option AuditEvent := do
  let eventId ← requiredText (← pick ae "eventId" "EventId")
  let eventType ← textArg (← pick ae "eventType" "EventType")
  let username ← textArg (← pick ae "username" "Username")
  let timestamp ← newDate (← pick ae "timestamp" "Timestamp")
  let details ← pick ae "details" "Details"
  let sourceLogName ← textArg (← pick ae "sourceLogName" "SourceLogName")
  -- `ae.isFlagged !== undefined ? ae.isFlagged : ae.IsFlagged`
  let isFlagged := (← prop ae "isFlagged").or (← prop ae "IsFlagged")
  pure { id := 0, machineId := id, eventId, eventType, username, timestamp,
         details := textOrJson details, sourceLogName, isFlagged := truthy isFlagged,
         createdAt := now }

/-- `prisma.auditEvent.create(…)`. -/
def createAuditEvent (id : String) (ae : Value) (db : Database) (now : DateTime) :
    Option Database := do
  let row ← auditRow id ae now
  db.createAudit id row

/-- The part of an audit event behind the status check: deduplicate based on `eventId`. -/
def storeAudit (id : String) (ae : Value) : Task Store Unit := do
  let eventId ← .get (pick ae "eventId" "EventId")
  let eventFilter ← .get (textFilter eventId)
  let existingEvent ← read fun db =>
    db.auditEvents.rows.find? fun r => r.machineId = id && eventFilter r.eventId
  if existingEvent.isNone then
    write (createAuditEvent id ae)
    emit (.room (machineRoom id)) fun _ => .auditAlert ae
    emit .everyone fun now => .auditGlobal id ae now

/-- `socket.on('machine:audit')`. -/
def machineAudit (data : Value) : Task Store Unit :=
  whenActive data "auditEvent" storeAudit

/-! ## `machine:screenshot` -/

/-- The row of a notification. -/
def screenshotRow (id : String) (s : Value) : Option Screenshot := do
  let screenshotId ← requiredText (← pick s "id" "Id")
  let captureTime ← newDate (← pick s "captureTime" "CaptureTime")
  let triggerType ← textArg (← pick s "triggerType" "TriggerType")
  let googleDriveFileId ← textArg (← pick s "googleDriveFileId" "GoogleDriveFileId")
  let isUploaded := (← prop s "isUploaded").or (← prop s "IsUploaded")
  pure { id := screenshotId, machineId := id, captureTime, triggerType, googleDriveFileId,
         isUploaded := truthy isUploaded }

/-- `prisma.screenshot.create(…)`. -/
def createScreenshot (id : String) (s : Value) (db : Database) (_ : DateTime) :
    Option Database := do
  let row ← screenshotRow id s
  db.createScreenshot id row

/-- The part of a notification behind the status check. -/
def storeScreenshot (id : String) (screenshot : Value) : Task Store Unit := do
  write (createScreenshot id screenshot)
  emit (.room (machineRoom id)) fun _ => .screenshotNew screenshot

/-- `socket.on('machine:screenshot')`. -/
def machineScreenshot (data : Value) : Task Store Unit :=
  whenActive data "screenshot" storeScreenshot

/-! ## `disconnect`, and the dispatch -/

/-- `socket.on('disconnect')`. -/
def disconnect (socket : String) : Task Store Unit := do
  .effect fun s => s.updateSocket socket (fun k => { k with connected := false }) fun _ => rfl
  let machineId ← .look fun s => (s.sockets.find socket).bind (·.machineId)
  if truthy machineId then
    Task.handle (do
      let id ← .get (requiredText machineId)
      write fun db now => db.createConnectionEvent id
        { id := 0, machineId := id, eventType := "Disconnected", timestamp := now }
      emit .everyone fun now => .machineOffline id now
      broadcastMachineList .everyone) (pure ())

/-- What a socket can send. -/
inductive Message
  | webSubscribe
  | webWatch (machineId : String)
  | webUnwatch (machineId : String)
  | machineConnect (data : Value)
  | machineHeartbeat (data : Value)
  | machineActivity (data : Value)
  | machineAudit (data : Value)
  | machineScreenshot (data : Value)
  | disconnect

/-- `io.on('connection')`: the handler of each event. -/
def onMessage (socket : String) : Message → Task Store Unit
  | .webSubscribe => webSubscribe socket
  | .webWatch machineId => webWatch socket machineId
  | .webUnwatch machineId => webUnwatch socket machineId
  | .machineConnect data => machineConnect socket data
  | .machineHeartbeat data => machineHeartbeat data
  | .machineActivity data => machineActivity data
  | .machineAudit data => machineAudit data
  | .machineScreenshot data => machineScreenshot data
  | .disconnect => disconnect socket

end Server
