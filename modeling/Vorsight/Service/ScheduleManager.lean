/-
  THE SCHEDULE MANAGER (Vorsight.Infrastructure/Scheduling/ScheduleManager.cs): the schedule it
  holds, and whether it is enforced.
-/
import Vorsight.Settings

namespace Vorsight.ScheduleManager

/-- `_currentSchedule` and `_isEnforcementRunning`. -/
structure State where
  currentSchedule : Option AccessControlSettings := none
  isEnforcementRunning : Bool := false
deriving DecidableEq, Repr

def startEnforcement (s : State) : State :=
  if s.isEnforcementRunning then s else { s with isEnforcementRunning := true }

def stopEnforcement (s : State) : State :=
  if ¬ s.isEnforcementRunning then s else { s with isEnforcementRunning := false }

/-- `UpdateScheduleFromSettingsAsync`. -/
def updateScheduleFromSettings (s : State) (settings : Option AccessControlSettings) : State :=
  match settings with
  | none => s
  | some settings =>
    let s := { s with currentSchedule := some settings }
    if settings.enabled && !s.isEnforcementRunning then startEnforcement s
    else if !settings.enabled && s.isEnforcementRunning then stopEnforcement s
    else s

/-- The schedule is held, and enforced exactly when it is enabled. -/
theorem updateScheduleFromSettings_some (s : State) (settings : AccessControlSettings) :
    updateScheduleFromSettings s (some settings) =
      { currentSchedule := some settings, isEnforcementRunning := settings.enabled } := by
  cases s with
  | mk currentSchedule isEnforcementRunning =>
    cases henabled : settings.enabled <;> cases isEnforcementRunning <;>
      simp [updateScheduleFromSettings, startEnforcement, stopEnforcement, henabled]

end Vorsight.ScheduleManager
