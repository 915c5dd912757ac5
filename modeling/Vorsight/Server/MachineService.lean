/-
  MACHINE LIFECYCLE (server/src/services/machineService.ts): adopting a machine, with the settings
  it is adopted with, archiving it and taking it back.

  An error that a method throws itself is the `error` of its result; a Prisma call that fails
  throws.  `register` is with the route that calls it (`registerMachine`).
-/
import Vorsight.Library.Time
import Vorsight.Settings
import Vorsight.Server.SettingsRoute

namespace Server.MachineService

open Vorsight Js Tasks

/-- What the adoption form asks for. -/
structure AdoptDTO where
  enableScreenshots : Bool := false
  enableActivity : Bool := false
  enableAudit : Bool := false
  enableAccessControl : Bool := false
  accessControlStartTime : Option String := none
  accessControlEndTime : Option String := none
  accessControlAction : Option ViolationAction := none
deriving DecidableEq

/-- `text || fallback`. -/
def orElse (text : Option String) (fallback : String) : String :=
  (text.filter (· ≠ "")).getD fallback

def daysOfWeek : List DayOfWeek :=
  [.monday, .tuesday, .wednesday, .thursday, .friday, .saturday, .sunday]

/-- Construct schedule if enabled. -/
def defaultSchedule (data : AdoptDTO) : List TimeWindow :=
  if data.enableAccessControl then
    daysOfWeek.map fun dayOfWeek =>
      { dayOfWeek, startTime := orElse data.accessControlStartTime "08:00",
        endTime := orElse data.accessControlEndTime "22:00" }
  else []

/-- `initialSettings` of `adopt`. -/
def initialSettings (data : AdoptDTO) : MachineSettings where
  screenshots := {
    enabled := data.enableScreenshots
    intervalSeconds := if data.enableScreenshots then 300 else 0
    filterDuplicates := true }
  activity := { enabled := data.enableActivity, intervalSeconds := 10 }
  audit := {
    enabled := data.enableAudit
    filters := {
      security := data.enableAudit
      system := data.enableAudit
      application := data.enableAudit } }
  accessControl := {
    enabled := data.enableAccessControl
    violationAction := data.accessControlAction.getD .logoff
    schedule := defaultSchedule data }

/-! ## The settings as they are stored -/

def dayText : DayOfWeek → String
  | .monday => "monday"
  | .tuesday => "tuesday"
  | .wednesday => "wednesday"
  | .thursday => "thursday"
  | .friday => "friday"
  | .saturday => "saturday"
  | .sunday => "sunday"

def actionText : ViolationAction → String
  | .logoff => "logoff"
  | .shutdown => "shutdown"

def modeText : ScheduleMode → String
  | .simple => "simple"
  | .custom => "custom"

def windowJson (w : TimeWindow) : Json :=
  .obj [("dayOfWeek", .str (dayText w.dayOfWeek)), ("startTime", .str w.startTime),
    ("endTime", .str w.endTime)]

/-- `JSON.stringify(settings)`. -/
def settingsJson (s : MachineSettings) : Obj Json := .ofList
  [("screenshots", .obj [("enabled", .bool s.screenshots.enabled),
      ("intervalSeconds", .num s.screenshots.intervalSeconds),
      ("filterDuplicates", .bool s.screenshots.filterDuplicates)]),
    ("activity", .obj [("enabled", .bool s.activity.enabled),
      ("intervalSeconds", .num s.activity.intervalSeconds)]),
    ("audit", .obj [("enabled", .bool s.audit.enabled), ("filters",
      .obj [("security", .bool s.audit.filters.security),
        ("system", .bool s.audit.filters.system),
        ("application", .bool s.audit.filters.application)])]),
    ("accessControl", .obj ([("enabled", .bool s.accessControl.enabled)] ++
      (s.accessControl.scheduleMode.map fun mode =>
        ("scheduleMode", .str (modeText mode))).toList ++
      [("violationAction", .str (actionText s.accessControl.violationAction)),
        ("schedule", .arr (s.accessControl.schedule.map windowJson))]))]

/-! ## The methods -/

/-- `AdoptDTO`, whole: the form and the machine it is for. -/
structure AdoptRequest extends AdoptDTO where
  machineId : String
  displayName : Option String := none
deriving DecidableEq

/-- What `adopt` stores for a request. -/
def AdoptRequest.stored (data : AdoptRequest) : Obj Json :=
  settingsJson (initialSettings data.toAdoptDTO)

/-- The end of `adopt`: store the settings. -/
def storeInitial (data : AdoptRequest) (machine : Machine) :
    Task Store (Except String (Machine × MachineSettings)) := do
  write (saveSettings data.machineId data.stored)
  pure (.ok (machine, initialSettings data.toAdoptDTO))

/-- Update status and display name. -/
def activate (data : AdoptRequest) : Task Store Unit :=
  write fun db _ => db.updateMachine data.machineId (fun m => { m with
    status := .active
    displayName := data.displayName.filter (· ≠ "") }) fun _ => rfl

def adopt (data : AdoptRequest) : Task Store (Except String (Machine × MachineSettings)) := do
  match ← read fun db => db.machines.find data.machineId with
  | none => pure (.error "Machine not found")
  | some machine =>
    if machine.status = .active then pure (.error "Machine already adopted")
    else
      activate data
      storeInitial data machine

/-- `data: { status }`. -/
def setStatus (machineId : String) (status : MachineStatus) : Task Store Unit :=
  write fun db _ => db.updateMachine machineId (fun m => { m with status }) fun _ => rfl

/-- A connection event with the time under `key`. -/
def recordEvent (machineId eventType key : String) : Task Store Unit :=
  write fun db now => db.createConnectionEvent machineId
    { id := 0, machineId, eventType, timestamp := now,
      metadata := some (.json (.obj [(key, .str (Time.toISOString now))])) }

def archive (machineId : String) : Task Store (Except String Machine) := do
  match ← read fun db => db.machines.find machineId with
  | none => pure (.error "Machine not found")
  | some machine =>
    if machine.status = .archived then pure (.error "Machine already archived")
    else
      setStatus machineId .archived
      recordEvent machineId "Archived" "archivedAt"
      pure (.ok machine)

def unarchive (machineId : String) : Task Store (Except String Machine) := do
  match ← read fun db => db.machines.find machineId with
  | none => pure (.error "Machine not found")
  | some machine =>
    if machine.status ≠ .archived then pure (.error "Machine is not archived")
    else
      setStatus machineId .active
      recordEvent machineId "Unarchived" "unarchivedAt"
      pure (.ok machine)

end Server.MachineService
