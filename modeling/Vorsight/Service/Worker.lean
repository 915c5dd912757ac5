/-
  SETTINGS ON THEIR WAY TO THE SERVICE (Vorsight.Service/Worker.cs, `FetchAndApplySettingsAsync`).

  A save stores settings and notifies the service; a notification, or a restored connection, starts
  a run.  A run fetches the configuration and gives it to the settings manager, the audit manager
  and the schedule manager, one after the other.  Nothing keeps two runs apart.

  1. **Where it fails** (`not_synced_overtaken`).  A run that has fetched before the last save may
     apply what it has after one that has fetched since.  `overtaken` remembers, for each manager,
     that this has happened to it.

  2. `converged`: when nothing is under way and a run has started since the last save, each manager
     that has not been overtaken holds the settings that are stored.

  **The crux (`Reached`)** — a run that has started since the last save has brought what is stored
  to every manager that it is past.
-/
import Vorsight.Library.Run
import Vorsight.Server.SettingsRoute
import Vorsight.Server.Configuration
import Vorsight.Service.AuditManager
import Vorsight.Service.ScheduleManager

namespace Service.Worker

open Js Runs Server Server.Configuration Vorsight

/-! ## The state -/

/-- A manager, and what has been applied to it since the last save. -/
structure Manager (σ : Type) where
  state : σ
  /-- a run that has fetched since the last save has applied to it -/
  fresh : Bool := false
  /-- and the last run to apply to it had fetched before -/
  overtaken : Bool := false

def Manager.apply {σ : Type} (m : Manager σ) (f : σ → σ) (fresh : Bool) : Manager σ where
  state := f m.state
  fresh := m.fresh || fresh
  overtaken := m.fresh && !fresh

def Manager.saved {σ : Type} (m : Manager σ) : Manager σ :=
  { m with fresh := false, overtaken := false }

structure Managers where
  settingsManager : Manager MachineSettings
  auditManager : Manager AuditManager.State
  scheduleManager : Manager ScheduleManager.State

def Managers.saved (m : Managers) : Managers where
  settingsManager := m.settingsManager.saved
  auditManager := m.auditManager.saved
  scheduleManager := m.scheduleManager.saved

/-- Where `FetchAndApplySettingsAsync` is. -/
inductive Phase
  | fetching
  | updating (settings : MachineSettings)
  | auditing (settings : MachineSettings)
  | scheduling (settings : MachineSettings)
  | finished
deriving DecidableEq

/-- A run, and whether it has started and has fetched since the last save. -/
structure Run where
  phase : Phase := .fetching
  recent : Bool := true
  fresh : Bool := false
deriving DecidableEq

def Run.saved (r : Run) : Run := { r with recent := false, fresh := false }

/-- Where `POST /settings` is. -/
inductive Save
  | reading (newSettings : Obj Json)
  | writing (mergedSettings : Obj Json)
  | notifying
  | answered

structure State where
  /-- the settings of the machine's row -/
  stored : Option (Obj Json)
  saves : List Save := []
  notifications : Nat := 0
  runs : List Run := []
  managers : Managers

/-! ## The steps -/

inductive Step
  /-- a request to save settings arrives -/
  | post (newSettings : Obj Json)
  /-- its handler takes its next step -/
  | save (i : Nat)
  /-- a notification arrives -/
  | settingsUpdate
  /-- a notification is lost: the service is not connected -/
  | lose
  | connectionRestored
  /-- a run takes its next step -/
  | run (i : Nat)

/-- Read, write, notify. -/
def State.save (s : State) (i : Nat) : Save → Option State
  | .reading newSettings =>
      some { s with saves := s.saves.set i (.writing (mergedSettings s.stored newSettings)) }
  | .writing merged => some { s with
      stored := some merged
      saves := s.saves.set i .notifying
      runs := s.runs.map Run.saved
      managers := s.managers.saved }
  | .notifying => some { s with
      notifications := s.notifications + 1
      saves := s.saves.set i .answered }
  | .answered => none

def State.start (s : State) : State := { s with runs := s.runs ++ [({} : Run)] }

/-- Apply Audit Settings. -/
def applyAudit (settings : MachineSettings) (s : AuditManager.State) : AuditManager.State :=
  if settings.audit.enabled then AuditManager.startMonitoring s settings
  else if s.isMonitoring then AuditManager.stopMonitoring s
  else s

/-- Apply Schedule Settings. -/
def applySchedule (settings : MachineSettings) (s : ScheduleManager.State) :
    ScheduleManager.State :=
  ScheduleManager.updateScheduleFromSettings s (some settings.accessControl)

section Deserialize

/-! `JsonSerializer.Deserialize<MachineSettings>` of an answer; `none` is an exception or `null`. -/
variable (deserialize : Obj Json → Option MachineSettings)

/-- The next step of a run. -/
def Run.next (stored : Option (Obj Json)) (m : Managers) (r : Run) : Option (Managers × Run) :=
  match r.phase with
  | .fetching =>
      let phase := match deserialize (getConfiguration stored) with
        | some settings => .updating settings
        | none => .finished
      some (m, { r with phase, fresh := true })
  | .updating settings => some (
      { m with settingsManager := m.settingsManager.apply (fun _ => settings) r.fresh },
      { r with phase := .auditing settings })
  | .auditing settings => some (
      { m with auditManager := m.auditManager.apply (applyAudit settings) r.fresh },
      { r with phase := .scheduling settings })
  | .scheduling settings => some (
      { m with scheduleManager := m.scheduleManager.apply (applySchedule settings) r.fresh },
      { r with phase := .finished })
  | .finished => none

def step (s : State) : Step → Option State
  | .post newSettings => some { s with saves := s.saves ++ [.reading newSettings] }
  | .save i => s.saves[i]?.bind fun save => s.save i save
  | .settingsUpdate =>
      if 0 < s.notifications then some { s with notifications := s.notifications - 1 }.start
      else none
  | .lose =>
      if 0 < s.notifications then some { s with notifications := s.notifications - 1 } else none
  | .connectionRestored => some s.start
  | .run i => s.runs[i]?.bind fun r => (r.next deserialize s.stored s.managers).map
      fun (managers, r) => { s with managers, runs := s.runs.set i r }

/-! ## What is claimed -/

/-- No save, notification or run is outstanding. -/
def Quiescent (s : State) : Prop :=
  (∀ save ∈ s.saves, save = .answered) ∧ s.notifications = 0 ∧ ∀ r ∈ s.runs, r.phase = .finished

/-- The settings the service makes of what is stored. -/
def current (s : State) : Option MachineSettings := deserialize (getConfiguration s.stored)

/-- The audit manager watches what the settings ask for. -/
def AuditHolds (s : AuditManager.State) (settings : MachineSettings) : Prop :=
  s.isMonitoring = settings.audit.enabled ∧
    s.activeWatchers = if settings.audit.enabled then AuditManager.watchersOf settings else []

/-- The schedule manager has the schedule, and enforces it if it is enabled. -/
def ScheduleHolds (s : ScheduleManager.State) (settings : MachineSettings) : Prop :=
  s.currentSchedule = some settings.accessControl ∧
    s.isEnforcementRunning = settings.accessControl.enabled

/-- When nothing is under way and a run has started since the last save, all managers hold the
    settings that are stored. -/
def Synced (s : State) : Prop :=
  Quiescent s → (∃ r ∈ s.runs, r.recent = true) →
    ∀ settings, current deserialize s = some settings →
    s.managers.settingsManager.state = settings ∧
    AuditHolds s.managers.auditManager.state settings ∧
    ScheduleHolds s.managers.scheduleManager.state settings

/-- The same of the managers that have not been overtaken. -/
def Converged (s : State) : Prop :=
  Quiescent s → (∃ r ∈ s.runs, r.recent = true) →
    ∀ settings, current deserialize s = some settings →
    (s.managers.settingsManager.overtaken = false → s.managers.settingsManager.state = settings) ∧
    (s.managers.auditManager.overtaken = false →
      AuditHolds s.managers.auditManager.state settings) ∧
    (s.managers.scheduleManager.overtaken = false →
      ScheduleHolds s.managers.scheduleManager.state settings)

end Deserialize

/-! ## What one run brings to the managers -/

/-- A manager that does not monitor watches nothing. -/
def Idle (s : AuditManager.State) : Prop := s.isMonitoring = false → s.activeWatchers = []

theorem AuditHolds.idle {s : AuditManager.State} {settings : MachineSettings}
    (h : AuditHolds s settings) : Idle s := by
  intro hmonitoring
  obtain ⟨henabled, hwatchers⟩ := h
  rw [hwatchers, ← henabled, hmonitoring]
  rfl

theorem auditHolds_apply {s : AuditManager.State} (h : Idle s) (settings : MachineSettings) :
    AuditHolds (applyAudit settings s) settings := by
  unfold applyAudit
  cases henabled : settings.audit.enabled with
  | true =>
    cases hmonitoring : s.isMonitoring with
    | true => simp [AuditHolds, AuditManager.startMonitoring, AuditManager.stopMonitoring,
        hmonitoring, henabled]
    | false => simp [AuditHolds, AuditManager.startMonitoring, hmonitoring, henabled, h hmonitoring]
  | false =>
    cases hmonitoring : s.isMonitoring with
    | true => simp [AuditHolds, AuditManager.stopMonitoring, hmonitoring, henabled]
    | false => simp [AuditHolds, hmonitoring, henabled, h hmonitoring]

theorem scheduleHolds_apply (s : ScheduleManager.State) (settings : MachineSettings) :
    ScheduleHolds (applySchedule settings s) settings := by
  rw [applySchedule, ScheduleManager.updateScheduleFromSettings_some]
  exact ⟨rfl, rfl⟩

variable {σ : Type} {latest : Option MachineSettings} {settings : MachineSettings}

/-- If it has been brought what is stored, and has not been overtaken, a manager holds it. -/
def Manager.Current (holds : σ → MachineSettings → Prop) (latest : Option MachineSettings)
    (m : Manager σ) : Prop :=
  m.fresh = true → m.overtaken = false → ∀ settings, latest = some settings → holds m.state settings

theorem Manager.current_saved {holds : σ → MachineSettings → Prop} (m : Manager σ) :
    m.saved.Current holds latest := by
  intro hfresh
  cases hfresh

/-- A run that has fetched since the last save brings what is stored; another one overtakes. -/
theorem Manager.current_apply {holds : σ → MachineSettings → Prop} {m : Manager σ} {f : σ → σ}
    {fresh : Bool} (hfetched : fresh = true → latest = some settings)
    (hholds : holds (f m.state) settings) : (m.apply f fresh).Current holds latest := by
  intro hfresh hovertaken settings' hlatest
  cases fresh with
  | true =>
    obtain rfl := Option.some.inj ((hfetched rfl).symm.trans hlatest)
    exact hholds
  | false => simp_all [Manager.apply]

theorem Manager.fresh_apply {m : Manager σ} {f : σ → σ} {fresh : Bool} :
    (m.apply f fresh).fresh = true ↔ m.fresh = true ∨ fresh = true := by
  simp [Manager.apply]

/-! ## The invariant -/

/-- The settings a run has fetched and is applying. -/
def Phase.carried : Phase → Option MachineSettings
  | .updating settings | .auditing settings | .scheduling settings => some settings
  | .fetching | .finished => none

/-- A run has brought what is stored to every manager that it is past. -/
def Reached (m : Managers) (r : Run) : Prop :=
  match r.phase with
  | .fetching => True
  | .updating _ => r.fresh = true
  | .auditing _ => r.fresh = true ∧ m.settingsManager.fresh = true
  | .scheduling _ =>
      r.fresh = true ∧ m.settingsManager.fresh = true ∧ m.auditManager.fresh = true
  | .finished => m.settingsManager.fresh = true ∧ m.auditManager.fresh = true ∧
      m.scheduleManager.fresh = true

structure Inv (latest : Option MachineSettings) (runs : List Run) (m : Managers) : Prop where
  idle : Idle m.auditManager.state
  fetched : ∀ r ∈ runs, ∀ settings, r.phase.carried = some settings → r.fresh = true →
    latest = some settings
  settings : m.settingsManager.Current Eq latest
  audit : m.auditManager.Current AuditHolds latest
  schedule : m.scheduleManager.Current ScheduleHolds latest
  reached : latest.isSome → ∀ r ∈ runs, r.recent = true → Reached m r

variable {runs : List Run} {m m' : Managers} {r r' : Run} {i : Nat}

/-- After a save everything is as if nothing had started, fetched or been applied. -/
theorem Inv.saved (h : Inv latest runs m) (latest' : Option MachineSettings) :
    Inv latest' (runs.map Run.saved) m.saved where
  idle := h.idle
  fetched := by
    intro r hr settings _ hfresh
    obtain ⟨r, -, rfl⟩ := List.mem_map.mp hr
    cases hfresh
  settings := Manager.current_saved _
  audit := Manager.current_saved _
  schedule := Manager.current_saved _
  reached := by
    intro _ r hr hrecent
    obtain ⟨r, -, rfl⟩ := List.mem_map.mp hr
    cases hrecent

theorem Inv.start (h : Inv latest runs m) : Inv latest (runs ++ [({} : Run)]) m where
  idle := h.idle
  fetched := by
    intro r hr settings hsettings
    rcases List.mem_append.mp hr with hr | hr
    · exact h.fetched r hr settings hsettings
    · obtain rfl := List.mem_singleton.mp hr
      cases hsettings
  settings := h.settings
  audit := h.audit
  schedule := h.schedule
  reached := by
    intro hlatest r hr hrecent
    rcases List.mem_append.mp hr with hr | hr
    · exact h.reached hlatest r hr hrecent
    · obtain rfl := List.mem_singleton.mp hr
      trivial

/-- What has been brought stays brought. -/
theorem Reached.mono (h : Reached m r)
    (hsettings : m.settingsManager.fresh = true → m'.settingsManager.fresh = true)
    (haudit : m.auditManager.fresh = true → m'.auditManager.fresh = true)
    (hschedule : m.scheduleManager.fresh = true → m'.scheduleManager.fresh = true) :
    Reached m' r := by
  unfold Reached at h ⊢
  split
  · trivial
  · rename_i hphase
    simpa only [hphase] using h
  · rename_i hphase
    simp only [hphase] at h
    exact ⟨h.1, hsettings h.2⟩
  · rename_i hphase
    simp only [hphase] at h
    exact ⟨h.1, hsettings h.2.1, haudit h.2.2⟩
  · rename_i hphase
    simp only [hphase] at h
    exact ⟨hsettings h.1, haudit h.2.1, hschedule h.2.2⟩

/-- The runs after a step of one of them. -/
theorem Inv.set (h : Inv latest runs m) (hidle : Idle m'.auditManager.state)
    (hfetched : ∀ settings, r'.phase.carried = some settings → r'.fresh = true →
      latest = some settings)
    (hsettings : m'.settingsManager.Current Eq latest)
    (haudit : m'.auditManager.Current AuditHolds latest)
    (hschedule : m'.scheduleManager.Current ScheduleHolds latest)
    (hreached : latest.isSome → r'.recent = true → Reached m' r')
    (hmono : ∀ r, Reached m r → Reached m' r) : Inv latest (runs.set i r') m' where
  idle := hidle
  fetched := by
    intro r hr
    rcases List.mem_or_eq_of_mem_set hr with hr | rfl
    · exact h.fetched r hr
    · exact hfetched
  settings := hsettings
  audit := haudit
  schedule := hschedule
  reached := by
    intro hlatest r hr hrecent
    rcases List.mem_or_eq_of_mem_set hr with hr | rfl
    · exact hmono r (h.reached hlatest r hr hrecent)
    · exact hreached hlatest hrecent

section Steps

variable {deserialize : Obj Json → Option MachineSettings} {stored : Option (Obj Json)}

theorem inv_next (h : Inv (deserialize (getConfiguration stored)) runs m) (hr : r ∈ runs)
    (hnext : r.next deserialize stored m = some (m', r')) :
    Inv (deserialize (getConfiguration stored)) (runs.set i r') m' := by
  have hfetched := h.fetched r hr
  have hreached := fun hlatest => h.reached hlatest r hr
  cases hphase : r.phase with
  -- a fetch returns what is stored, so it is fresh and carries the latest settings
  | fetching =>
    rw [Run.next, hphase] at hnext
    cases hnext
    refine h.set h.idle ?_ h.settings h.audit h.schedule ?_ fun _ => id
    · intro settings hcarried _
      cases hlatest : deserialize (getConfiguration stored) with
      | none => simp [hlatest, Phase.carried] at hcarried
      | some settings' => simpa [hlatest, Phase.carried] using hcarried
    · intro hsome _
      obtain ⟨settings, hlatest⟩ := Option.isSome_iff_exists.mp hsome
      simp [Reached, hlatest]
  -- an apply is fresh when its fetch was; a manager that has got a fresh one keeps the mark
  | updating settings =>
    rw [Run.next, hphase] at hnext
    cases hnext
    rw [hphase] at hfetched
    refine h.set h.idle hfetched ?_ h.audit h.schedule ?_ fun r hr => ?_
    · exact Manager.current_apply (hfetched settings rfl) rfl
    · intro hlatest hrecent
      have hfresh := hreached hlatest hrecent
      simp only [Reached, hphase] at hfresh
      exact ⟨hfresh, Manager.fresh_apply.mpr (.inr hfresh)⟩
    · exact hr.mono (fun hfresh => Manager.fresh_apply.mpr (.inl hfresh)) id id
  | auditing settings =>
    rw [Run.next, hphase] at hnext
    cases hnext
    rw [hphase] at hfetched
    have hholds := auditHolds_apply h.idle settings
    refine h.set hholds.idle hfetched h.settings ?_ h.schedule ?_ fun r hr => ?_
    · exact Manager.current_apply (hfetched settings rfl) hholds
    · intro hlatest hrecent
      have hbrought := hreached hlatest hrecent
      simp only [Reached, hphase] at hbrought
      exact ⟨hbrought.1, hbrought.2, Manager.fresh_apply.mpr (.inr hbrought.1)⟩
    · exact hr.mono id (fun hfresh => Manager.fresh_apply.mpr (.inl hfresh)) id
  | scheduling settings =>
    rw [Run.next, hphase] at hnext
    cases hnext
    rw [hphase] at hfetched
    refine h.set h.idle (by simp [Phase.carried]) h.settings h.audit ?_ ?_ fun r hr => ?_
    · exact Manager.current_apply (hfetched settings rfl) (scheduleHolds_apply _ settings)
    · intro hlatest hrecent
      have hbrought := hreached hlatest hrecent
      simp only [Reached, hphase] at hbrought
      exact ⟨hbrought.2.1, hbrought.2.2, Manager.fresh_apply.mpr (.inr hbrought.1)⟩
    · exact hr.mono id id fun hfresh => Manager.fresh_apply.mpr (.inl hfresh)
  | finished =>
    rw [Run.next, hphase] at hnext
    cases hnext

/-- The invariant in a state. -/
def State.Inv (deserialize : Obj Json → Option MachineSettings) (s : State) : Prop :=
  Worker.Inv (current deserialize s) s.runs s.managers

theorem inv_step {s s' : State} {a : Step} (h : s.Inv deserialize)
    (hs : step deserialize s a = some s') : s'.Inv deserialize := by
  cases a with
  | post newSettings =>
    cases hs
    exact h
  | save i =>
    obtain ⟨save, -, hs⟩ := Option.bind_eq_some_iff.mp hs
    cases save with
    | reading newSettings =>
      cases hs
      exact h
    -- the only step that changes the latest settings
    | writing merged =>
      cases hs
      exact h.saved _
    | notifying =>
      cases hs
      exact h
    | answered => cases hs
  | settingsUpdate =>
    obtain ⟨-, hs⟩ := Option.ite_none_right_eq_some.mp hs
    cases hs
    exact Inv.start h
  | lose =>
    obtain ⟨-, hs⟩ := Option.ite_none_right_eq_some.mp hs
    cases hs
    exact h
  | connectionRestored =>
    cases hs
    exact Inv.start h
  | run i =>
    obtain ⟨r, hget, hs⟩ := Option.bind_eq_some_iff.mp hs
    obtain ⟨⟨m, r'⟩, hnext, rfl⟩ := Option.map_eq_some_iff.mp hs
    exact inv_next h (List.mem_of_getElem? hget) hnext

/-- The run that has started since the last save has ended, past all managers. -/
theorem converged_of_inv {s : State} (h : s.Inv deserialize) : Converged deserialize s := by
  rintro ⟨-, -, hfinished⟩ ⟨r, hr, hrecent⟩ settings hlatest
  have hreached := h.reached (by rw [hlatest]; rfl) r hr hrecent
  rw [Reached, hfinished r hr] at hreached
  obtain ⟨hsettings, haudit, hschedule⟩ := hreached
  exact ⟨fun hlast => h.settings hsettings hlast settings hlatest,
    fun hlast => h.audit haudit hlast settings hlatest,
    fun hlast => h.schedule hschedule hlast settings hlatest⟩

/-- What is stored, what the settings file had, and the schedule from that. -/
def init (stored : Option (Obj Json)) (settings : MachineSettings)
    (schedule : ScheduleManager.State) : State where
  stored
  managers := {
    settingsManager := { state := settings }
    auditManager := { state := {} }
    scheduleManager := { state := schedule } }

theorem inv_init (settings : MachineSettings) (schedule : ScheduleManager.State) :
    (init stored settings schedule).Inv deserialize where
  idle := fun _ => rfl
  fetched := by simp [init]
  settings := nofun
  audit := nofun
  schedule := nofun
  reached := by simp [init]

/-- **Settings converge, but for what is overtaken.** -/
theorem converged (deserialize : Obj Json → Option MachineSettings) (stored : Option (Obj Json))
    (settings : MachineSettings) (schedule : ScheduleManager.State) (steps : List Step) :
    EachState (step deserialize) (Converged deserialize) (init stored settings schedule) steps :=
  ⟨converged_of_inv (inv_init settings schedule),
    eachStep_of_inv (fun _ _ _ => inv_step) (fun _ _ _ h hs => converged_of_inv (inv_step h hs))
      (inv_init settings schedule)⟩

end Steps

/-! ## An older fetch applied after a newer one -/

/-- The settings in an answer that has the defaults but for `activity.enabled`. -/
def readSettings (answer : Obj Json) : Option MachineSettings :=
  match prop (answer "activity") "enabled" with
  | some (some (.bool enabled)) => some {
      activity := { enabled }
      audit := { filters := { security := true, system := true, application := true } } }
  | _ => none

def enableActivity : Obj Json :=
  .ofList [("activity", .obj [("enabled", .bool true), ("intervalSeconds", .num 10)])]

/-- The first run fetches, activity is switched on, the second run fetches and applies, and then the
    first one applies. -/
def overtaken : List Step :=
  [.connectionRestored, .run 0, .post enableActivity, .save 0, .save 0, .save 0, .settingsUpdate,
    .run 1, .run 1, .run 1, .run 1, .run 0, .run 0, .run 0]

/-- Activity stays off in the service. -/
theorem not_synced_overtaken :
    ¬ EachState (step readSettings) (Synced readSettings) (init none {} {}) overtaken := by
  intro h
  obtain ⟨s, hrun, hquiescent, hrecent, hcurrent, hold⟩ : ∃ s,
      run (step readSettings) (init none {} {}) overtaken = some s ∧ Quiescent s ∧
        (∃ r ∈ s.runs, r.recent = true) ∧
        (∃ settings, current readSettings s = some settings ∧ settings.activity.enabled = true) ∧
        s.managers.settingsManager.state.activity.enabled = false := by
    refine ⟨_, rfl, ?_, ?_, ?_, rfl⟩
    · exact ⟨fun save hsave => List.mem_singleton.mp hsave, rfl, by decide⟩
    · exact ⟨_, List.mem_cons_of_mem _ List.mem_cons_self, rfl⟩
    · exact ⟨_, rfl, rfl⟩
  obtain ⟨settings, hsettings, hon⟩ := hcurrent
  have hheld := (h.last hrun hquiescent hrecent settings hsettings).1
  rw [hheld, hon] at hold
  cases hold

end Service.Worker
