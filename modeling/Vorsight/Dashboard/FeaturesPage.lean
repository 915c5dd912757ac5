/-
  THE FEATURE SWITCHES (client/src/features/settings/FeaturesPage.tsx).

  A switch sends the whole settings with one `enabled` changed; everything else, the intervals too,
  stays as it was (`interval_of_toggles`).
-/
import Vorsight.Settings

namespace Dashboard.FeaturesPage

open Vorsight

def handleScreenshotsToggle (settings : MachineSettings) (enabled : Bool) : MachineSettings :=
  { settings with screenshots := { settings.screenshots with enabled } }

def handleActivityToggle (settings : MachineSettings) (enabled : Bool) : MachineSettings :=
  { settings with activity := { settings.activity with enabled } }

def handleAuditToggle (settings : MachineSettings) (enabled : Bool) : MachineSettings :=
  { settings with audit := { settings.audit with enabled } }

def handleAccessControlToggle (settings : MachineSettings) (enabled : Bool) : MachineSettings :=
  { settings with accessControl := { settings.accessControl with enabled } }

/-- One use of a switch. -/
inductive Toggle
  | screenshots (enabled : Bool)
  | activity (enabled : Bool)
  | audit (enabled : Bool)
  | accessControl (enabled : Bool)
deriving DecidableEq

def toggle (settings : MachineSettings) : Toggle → MachineSettings
  | .screenshots enabled => handleScreenshotsToggle settings enabled
  | .activity enabled => handleActivityToggle settings enabled
  | .audit enabled => handleAuditToggle settings enabled
  | .accessControl enabled => handleAccessControlToggle settings enabled

/-- No sequence of switches changes an interval. -/
theorem interval_of_toggles :
    ∀ (toggles : List Toggle) (settings : MachineSettings),
      (toggles.foldl toggle settings).screenshots.intervalSeconds =
          settings.screenshots.intervalSeconds ∧
        (toggles.foldl toggle settings).activity.intervalSeconds =
          settings.activity.intervalSeconds
  | [], _ => ⟨rfl, rfl⟩
  | t :: toggles, settings => by
    rw [List.foldl_cons]
    have ih := interval_of_toggles toggles (toggle settings t)
    cases t <;> exact ih

end Dashboard.FeaturesPage
