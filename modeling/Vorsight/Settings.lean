/-
  MACHINE SETTINGS (shared/schemas/machine-settings.json), as the server, the dashboard and the
  service share them.
-/

namespace Vorsight

structure ScreenshotSettings where
  enabled : Bool := false
  intervalSeconds : Int := 300
  filterDuplicates : Bool := true
deriving DecidableEq, Repr

structure ActivitySettings where
  enabled : Bool := false
  intervalSeconds : Int := 10
deriving DecidableEq, Repr

structure AuditFilters where
  security : Bool := true
  system : Bool := false
  application : Bool := false
deriving DecidableEq, Repr

structure AuditSettings where
  enabled : Bool := false
  filters : AuditFilters := {}
deriving DecidableEq, Repr

inductive DayOfWeek
  | monday | tuesday | wednesday | thursday | friday | saturday | sunday
deriving DecidableEq, Repr

inductive ViolationAction
  | logoff | shutdown
deriving DecidableEq, Repr

inductive ScheduleMode
  | simple | custom
deriving DecidableEq, Repr

/-- `AccessScheduleWindow`; the times are `HH:mm` texts. -/
structure TimeWindow where
  dayOfWeek : DayOfWeek
  startTime : String := "00:00"
  endTime : String := "00:00"
deriving DecidableEq, Repr

structure AccessControlSettings where
  enabled : Bool := false
  scheduleMode : Option ScheduleMode := none
  violationAction : ViolationAction := .logoff
  schedule : List TimeWindow := []
deriving DecidableEq, Repr

structure MachineSettings where
  screenshots : ScreenshotSettings := {}
  activity : ActivitySettings := {}
  audit : AuditSettings := {}
  accessControl : AccessControlSettings := {}
deriving DecidableEq, Repr

end Vorsight
