/-
  THE AUDIT MANAGER (Vorsight.Infrastructure/Audit/AuditManager.cs): which event logs are watched,
  and what becomes of a record that is written to one.

  A record is turned into a payload, dropped when a payload with the same id, user and second has
  been seen in the last five seconds, and reported when `ProcessEvent` takes its id for critical.
  `EventId` is the Windows event id, which names a kind of event.
-/
import Vorsight.Library.Time
import Vorsight.Settings

namespace Vorsight.AuditManager

/-! ## Times -/

/-- A `DateTimeOffset`: an instant in ticks of 100 ns since 1970-01-01T00:00:00Z, and the offset of
    the clock it was read from. -/
structure DateTimeOffset where
  ticks : Int
  offsetMinutes : Int := 0
deriving DecidableEq, Repr

namespace DateTimeOffset

/-- The instant in milliseconds, as a JavaScript date keeps it. -/
def millis (t : DateTimeOffset) : Int := t.ticks / 10000

/-- The reading of the clock. -/
def civil (t : DateTimeOffset) : Time.Civil := Time.ofMillis (t.millis + 60000 * t.offsetMinutes)

/-- The fraction of the second: up to seven digits, without trailing zeros. -/
def fraction (t : DateTimeOffset) : String :=
  let digits := ((Time.padded 7 (t.ticks % 10000000).toNat).toList.reverse.dropWhile (· = '0'))
  if digits = [] then "" else "." ++ String.ofList digits.reverse

/-- `K`: the offset as `±HH:mm`. -/
def offsetText (t : DateTimeOffset) : String :=
  (if t.offsetMinutes < 0 then "-" else "+") ++ Time.padded 2 (t.offsetMinutes.natAbs / 60) ++ ":"
    ++ Time.padded 2 (t.offsetMinutes.natAbs % 60)

/-- The text of the JSON form. -/
def text (t : DateTimeOffset) : String :=
  let c := t.civil
  c.dateText ++ "T" ++ Time.padded 2 c.hour ++ ":" ++ Time.padded 2 c.minute ++ ":"
    ++ Time.padded 2 c.second ++ t.fraction ++ t.offsetText

end DateTimeOffset

/-! ## Payloads -/

/-- A record of an event log. -/
structure EventRecord where
  id : Nat
  timeCreated : Option DateTimeOffset
  taskDisplayName : Option String
  description : Option String
deriving DecidableEq, Repr

structure AuditEventPayload where
  timestamp : DateTimeOffset
  eventId : String
  eventType : String
  sourceLogName : String
  username : String
  details : String
  isFlagged : Bool
deriving DecidableEq, Repr

/-- The payload of a record, before it is processed. -/
def toPayload (utcNow : DateTimeOffset) (logName : String) (record : EventRecord) :
    AuditEventPayload where
  timestamp := record.timeCreated.getD utcNow
  eventId := toString record.id
  eventType := record.taskDisplayName.getD (logName ++ " Event")
  sourceLogName := logName
  username := "System"
  details := record.description.getD "No description available"
  isFlagged := false

/-- Whether a text occurs in another. -/
def occurs (part : List Char) : List Char → Bool
  | [] => part.isEmpty
  | c :: cs => part.isPrefixOf (c :: cs) || occurs part cs

/-- `text.Contains(part)`. -/
def contains (text part : String) : Bool := occurs part.toList text.toList

/-- `ProcessEvent`: the event to report, with its final type and flag. -/
def processEvent (evt : AuditEventPayload) (eventId : Nat) (logName : String) :
    Option AuditEventPayload :=
  match eventId with
  | 4720 | 4732 | 4728 => some evt
  | 4672 => none
  | 4697 => some { evt with eventType := "Service Installed (Security)" }
  | 4698 => some { evt with eventType := "Scheduled Task Created" }
  | 4699 => some { evt with eventType := "Scheduled Task Deleted" }
  | 4700 => some { evt with eventType := "Scheduled Task Enabled" }
  | 4701 => some { evt with eventType := "Scheduled Task Disabled" }
  | 4702 => some { evt with eventType := "Scheduled Task Updated" }
  | 1102 => some { evt with eventType := "Audit Log Cleared", isFlagged := true }
  | 4719 => some { evt with eventType := "Audit Policy Changed", isFlagged := true }
  | 7045 => some { evt with eventType := "Service Installed" }
  | 7040 => some { evt with eventType := "Service Configuration Changed" }
  | _ =>
    if logName = "Application" ∧
        (contains evt.details "Critical" ∨ contains evt.details "Error") then some evt
    else none

/-! ## Deduplication -/

/-- `GetEventHash`. -/
def getEventHash (evt : AuditEventPayload) : String :=
  evt.eventId ++ "_" ++ evt.username ++ "_" ++ evt.timestamp.civil.secondText

/-- `_dedupeWindow`, in ticks. -/
def dedupeWindow : Int := 5 * 10000000

/-- `_recentEventHashes`, with the instant each was seen. -/
abbrev RecentHashes := List (String × DateTimeOffset)

/-- `IsDuplicate`. -/
def isDuplicate (recent : RecentHashes) (now : DateTimeOffset) (evt : AuditEventPayload) :
    Bool × RecentHashes :=
  let recent := recent.filter fun kvp => ¬ (now.ticks - kvp.2.ticks > dedupeWindow)
  if recent.any (·.1 = getEventHash evt) then (true, recent)
  else (false, recent ++ [(getEventHash evt, now)])

/-! ## The manager -/

/-- `_activeWatchers` (the logs watched), `IsMonitoring` and `_recentEventHashes`. -/
structure State where
  activeWatchers : List String := []
  isMonitoring : Bool := false
  recentEventHashes : RecentHashes := []

/-- `LogWatcher_EventRecordWritten`, and the event it reports. -/
def eventRecordWritten (s : State) (utcNow : DateTimeOffset) (logName : String)
    (record : EventRecord) : State × Option AuditEventPayload :=
  let evt := toPayload utcNow logName record
  match isDuplicate s.recentEventHashes utcNow evt with
  | (true, recent) => ({ s with recentEventHashes := recent }, none)
  | (false, recent) => ({ s with recentEventHashes := recent }, processEvent evt record.id logName)

/-- The events reported while records are written, in order. -/
def report : State → List (DateTimeOffset × String × EventRecord) → List AuditEventPayload
  | _, [] => []
  | s, (utcNow, logName, record) :: rest =>
    let (s', evt) := eventRecordWritten s utcNow logName record
    evt.toList ++ report s' rest

/-- Processing keeps the id of an event. -/
theorem processEvent_eventId {evt evt' : AuditEventPayload} {eventId : Nat} {logName : String}
    (h : processEvent evt eventId logName = some evt') : evt'.eventId = evt.eventId := by
  unfold processEvent at h
  split at h
  case h_15 =>
    split at h
    · cases h
      rfl
    · cases h
  all_goals
    cases h
    try rfl

/-- A reported event carries the id of its record. -/
theorem eventRecordWritten_eventId {s : State} {utcNow : DateTimeOffset} {logName : String}
    {record : EventRecord} {evt : AuditEventPayload}
    (h : (eventRecordWritten s utcNow logName record).2 = some evt) :
    evt.eventId = toString record.id := by
  simp only [eventRecordWritten] at h
  split at h
  · cases h
  · exact processEvent_eventId h

/-- The id of a reported event is the number of its kind. -/
theorem eventId_of_mem_report :
    ∀ {records : List (DateTimeOffset × String × EventRecord)} {s : State}
      {evt : AuditEventPayload}, evt ∈ report s records → ∃ id : Nat, evt.eventId = toString id
  | [], _, _, h => by cases h
  | (utcNow, logName, record) :: rest, s, evt, h => by
    rcases List.mem_append.mp h with h | h
    · exact ⟨record.id, eventRecordWritten_eventId (Option.mem_toList.mp h)⟩
    · exact eventId_of_mem_report h

/-! ## Watchers -/

/-- `StopMonitoringAsync`. -/
def stopMonitoring (s : State) : State :=
  if ¬ s.isMonitoring ∧ s.activeWatchers = [] then s
  else { s with activeWatchers := [], isMonitoring := false }

/-- The logs the filters ask for, in the order they are started. -/
def watchersOf (settings : MachineSettings) : List String :=
  (if settings.audit.filters.security then ["Security"] else []) ++
  (if settings.audit.filters.system then ["System"] else []) ++
  (if settings.audit.filters.application then ["Application"] else [])

/-- `StartMonitoringAsync`, where every watcher can be created. -/
def startMonitoring (s : State) (settings : MachineSettings) : State :=
  let s := if s.isMonitoring then stopMonitoring s else s
  { s with activeWatchers := s.activeWatchers ++ watchersOf settings, isMonitoring := true }

end Vorsight.AuditManager
