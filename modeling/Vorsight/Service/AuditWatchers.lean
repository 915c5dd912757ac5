/-
  WHICH EVENT LOGS ARE WATCHED, when watchers cannot be created (Audit/AuditManager.cs, and
  `ApplySettingsAsync` of Worker.cs).

  A watcher that throws an `EventLogException` is left out.  Any other exception ends
  `StartMonitoringAsync` with `IsMonitoring = false`, and what it has started so far goes on
  watching.  Both the restart and the disabling ask `IsMonitoring` only.

  1. **The claim of the design** (`Watched`): no log is watched twice, and after settings have been
     applied only logs of their filters are, and none when they disable auditing.

  2. **Where it fails.**  Watchers that are left over are neither stopped nor known to the next
     start.  `Harmless` says when that does not show.

  3. `watched_iff`: the claim holds of every step of a run iff every step is harmless.
-/
import Mathlib.Data.List.Nodup
import Vorsight.Library.Run
import Vorsight.Service.Worker

namespace Service.AuditWatchers

open Vorsight Vorsight.AuditManager

/-! ## Starting watchers that may fail -/

/-- How the creation and the enabling of a watcher end. -/
inductive Outcome
  | started
  | eventLogException
  | exception
deriving DecidableEq

/-- `StartWatcher` of each log; an exception that it does not catch ends `StartMonitoringAsync`. -/
def startWatchers (outcome : String → Outcome) : List String → State → State
  | [], s => { s with isMonitoring := true }
  | logName :: logNames, s =>
    match outcome logName with
    | .started =>
      startWatchers outcome logNames { s with activeWatchers := s.activeWatchers ++ [logName] }
    | .eventLogException => startWatchers outcome logNames s
    | .exception => { s with isMonitoring := false }

def startMonitoringAsync (s : State) (settings : MachineSettings) (outcome : String → Outcome) :
    State :=
  startWatchers outcome (watchersOf settings) (if s.isMonitoring then stopMonitoring s else s)

/-- Apply Audit Settings. -/
def applySettingsAsync (s : State) (settings : MachineSettings) (outcome : String → Outcome) :
    State :=
  if settings.audit.enabled then startMonitoringAsync s settings outcome
  else if s.isMonitoring then stopMonitoring s
  else s

/-- The logs whose watchers are started. -/
def started (outcome : String → Outcome) : List String → List String
  | [] => []
  | logName :: logNames =>
    match outcome logName with
    | .started => logName :: started outcome logNames
    | .eventLogException => started outcome logNames
    | .exception => []

variable {s s' : State}

theorem startWatchers_activeWatchers (outcome : String → Outcome) (logNames : List String)
    (s : State) : (startWatchers outcome logNames s).activeWatchers =
      s.activeWatchers ++ started outcome logNames := by
  induction logNames generalizing s with
  | nil => exact (List.append_nil _).symm
  | cons logName logNames ih =>
    unfold startWatchers started
    cases outcome logName with
    | started =>
      show (startWatchers outcome logNames _).activeWatchers = _
      rw [ih, List.append_assoc]
      rfl
    | eventLogException => exact ih s
    | exception => exact (List.append_nil _).symm

theorem started_sublist (outcome : String → Outcome) (logNames : List String) :
    (started outcome logNames).Sublist logNames := by
  induction logNames with
  | nil => exact List.Sublist.refl _
  | cons logName logNames ih =>
    unfold started
    cases outcome logName with
    | started => exact ih.cons_cons logName
    | eventLogException => exact ih.cons logName
    | exception => exact List.nil_sublist _

/-- Where every watcher can be created, this is what the settings' run applies. -/
theorem applySettings_started (s : State) (settings : MachineSettings) :
    applySettingsAsync s settings (fun _ => .started) = Worker.applyAudit settings s := by
  have hall : ∀ (logNames : List String) (s : State),
      startWatchers (fun _ => .started) logNames s =
        { s with activeWatchers := s.activeWatchers ++ logNames, isMonitoring := true } := by
    intro logNames
    induction logNames with
    | nil =>
      intro s
      rw [List.append_nil]
      rfl
    | cons logName logNames ih =>
      intro s
      rw [startWatchers, ih]
      show ({ s with activeWatchers := _, isMonitoring := true } : State) = _
      rw [List.append_assoc]
      rfl
  unfold applySettingsAsync startMonitoringAsync Worker.applyAudit startMonitoring
  rw [hall]

/-! ## The system -/

inductive Label
  | applySettings (settings : MachineSettings) (outcome : String → Outcome)
  /-- the start-up call, which is made only if the settings enable auditing -/
  | startMonitoring (settings : MachineSettings) (outcome : String → Outcome)
  | stopMonitoring

def step (s : State) : Label → Option State
  | .applySettings settings outcome => some (applySettingsAsync s settings outcome)
  | .startMonitoring settings outcome =>
    if settings.audit.enabled then some (startMonitoringAsync s settings outcome) else none
  | .stopMonitoring => some (AuditManager.stopMonitoring s)

/-- The settings that a step applies. -/
def Label.applied : Label → Option MachineSettings
  | .applySettings settings _ | .startMonitoring settings _ => some settings
  | .stopMonitoring => none

/-- The logs that a step starts to watch. -/
def Label.starts : Label → List String
  | .applySettings settings outcome | .startMonitoring settings outcome =>
    if settings.audit.enabled then AuditWatchers.started outcome (watchersOf settings) else []
  | .stopMonitoring => []

/-! ## The design's claim -/

/-- Each log is watched once, and after settings have been applied only the logs that they ask
    for. -/
def Watched (_ : State) (l : Label) (s' : State) : Prop :=
  s'.activeWatchers.Nodup ∧ ∀ settings ∈ l.applied, ∀ logName ∈ s'.activeWatchers,
    settings.audit.enabled = true ∧ logName ∈ watchersOf settings

instance (s : State) (l : Label) (s' : State) : Decidable (Watched s l s') :=
  inferInstanceAs (Decidable (s'.activeWatchers.Nodup ∧ ∀ settings ∈ l.applied,
    ∀ logName ∈ s'.activeWatchers, settings.audit.enabled = true ∧ logName ∈ watchersOf settings))

/-! ## The condition -/

/-- The watchers that neither a restart nor a disabling stops. -/
def leftOver (s : State) : List String := if s.isMonitoring then [] else s.activeWatchers

/-- The settings that are applied ask for every log whose watcher is left over, and its watcher is
    not started again. -/
def Harmless (s : State) (l : Label) : Prop :=
  ∀ settings ∈ l.applied, ∀ logName ∈ leftOver s,
    settings.audit.enabled = true ∧ logName ∈ watchersOf settings ∧ logName ∉ l.starts

theorem stop_activeWatchers (s : State) : (stopMonitoring s).activeWatchers = [] := by
  unfold stopMonitoring
  split
  · rename_i h
    exact h.2
  · rfl

/-- What a step leaves: the watchers that were left over and those it has started. -/
theorem step_activeWatchers {l : Label} (hs : step s l = some s') :
    s'.activeWatchers = (if l.applied.isSome then leftOver s else []) ++ l.starts := by
  have hrestart : (if s.isMonitoring then stopMonitoring s else s).activeWatchers = leftOver s := by
    unfold leftOver
    split
    · exact stop_activeWatchers s
    · rfl
  cases l with
  | applySettings settings outcome =>
    cases hs
    show (applySettingsAsync s settings outcome).activeWatchers = leftOver s ++ ite _ _ _
    unfold applySettingsAsync
    split
    · rw [startMonitoringAsync, startWatchers_activeWatchers, hrestart]
    · rw [List.append_nil, ← hrestart]
  | startMonitoring settings outcome =>
    by_cases henabled : settings.audit.enabled = true
    · simp only [step, if_pos henabled] at hs
      cases hs
      show (startMonitoringAsync s settings outcome).activeWatchers = leftOver s ++ ite _ _ _
      rw [startMonitoringAsync, startWatchers_activeWatchers, hrestart, if_pos henabled]
    · simp only [step, if_neg henabled] at hs
      cases hs
  | stopMonitoring =>
    cases hs
    exact stop_activeWatchers s

theorem nodup_watchersOf (settings : MachineSettings) : (watchersOf settings).Nodup := by
  unfold watchersOf
  split <;> split <;> split <;> decide

/-- Settings start no log twice, and none that they do not ask for. -/
theorem started_spec {settings : MachineSettings} {outcome : String → Outcome}
    {logNames : List String}
    (h : logNames =
      if settings.audit.enabled then started outcome (watchersOf settings) else []) :
    logNames.Nodup ∧ ∀ logName ∈ logNames,
      settings.audit.enabled = true ∧ logName ∈ watchersOf settings := by
  have hsub := started_sublist outcome (watchersOf settings)
  split at h
  · rename_i henabled
    subst h
    exact ⟨(nodup_watchersOf settings).sublist hsub, fun _ h => ⟨henabled, hsub.mem h⟩⟩
  · subst h
    exact ⟨List.nodup_nil, fun _ h => absurd h List.not_mem_nil⟩

theorem starts_spec (l : Label) : l.starts.Nodup ∧ ∀ settings ∈ l.applied,
    ∀ logName ∈ l.starts, settings.audit.enabled = true ∧ logName ∈ watchersOf settings := by
  cases l with
  | applySettings settings outcome =>
    obtain ⟨hnodup, hmem⟩ :=
      started_spec (Eq.refl (Label.starts (.applySettings settings outcome)))
    refine ⟨hnodup, ?_⟩
    rintro _ ⟨⟩
    exact hmem
  | startMonitoring settings outcome =>
    obtain ⟨hnodup, hmem⟩ :=
      started_spec (Eq.refl (Label.starts (.startMonitoring settings outcome)))
    refine ⟨hnodup, ?_⟩
    rintro _ ⟨⟩
    exact hmem
  | stopMonitoring =>
    refine ⟨List.nodup_nil, ?_⟩
    exact fun settings h => absurd h (Option.not_mem_none settings)

theorem nodup_leftOver (h : s.activeWatchers.Nodup) : (leftOver s).Nodup := by
  unfold leftOver
  split
  · exact List.nodup_nil
  · exact h

/-- **One step** keeps the claim iff it is harmless. -/
theorem watched_step {l : Label} (hi : s.activeWatchers.Nodup) (hs : step s l = some s') :
    Watched s l s' ↔ Harmless s l := by
  obtain ⟨hnodup, hasked⟩ := starts_spec l
  unfold Watched Harmless
  rw [step_activeWatchers hs]
  cases happlied : l.applied with
  | none =>
    refine iff_of_true ⟨hnodup, ?_⟩ ?_
    · exact fun settings h => absurd h (Option.not_mem_none settings)
    · exact fun settings h => absurd h (Option.not_mem_none settings)
  | some settings =>
    rw [Option.isSome_some, if_pos rfl, List.nodup_append]
    have hasked := hasked settings happlied
    constructor
    · rintro ⟨⟨-, -, hdisjoint⟩, hall⟩ _ ⟨⟩ logName hleft
      obtain ⟨henabled, hmem⟩ := hall settings rfl logName (List.mem_append_left _ hleft)
      exact ⟨henabled, hmem, fun hstart => hdisjoint logName hleft logName hstart rfl⟩
    · intro hharmless
      have hharmless := hharmless settings rfl
      refine ⟨⟨nodup_leftOver hi, hnodup, ?_⟩, ?_⟩
      · rintro logName hleft _ hstart rfl
        exact (hharmless logName hleft).2.2 hstart
      · rintro _ ⟨⟩ logName hmem
        rcases List.mem_append.mp hmem with hleft | hstart
        · exact ⟨(hharmless logName hleft).1, (hharmless logName hleft).2.1⟩
        · exact hasked logName hstart

/-- **What is watched**: at every step of a run each log at most once, and only what the applied
    settings ask for, iff every step of the run is harmless. -/
theorem watched_iff (labels : List Label) :
    Runs.EachStep step Watched {} labels ↔
      Runs.EachStep step (fun s l _ => Harmless s l) {} labels := by
  have hinitial : ({} : State).activeWatchers.Nodup := List.nodup_nil
  have hkeep : ∀ (s : State) (l : Label) (s' : State), s.activeWatchers.Nodup → Harmless s l →
      step s l = some s' → s'.activeWatchers.Nodup :=
    fun s l s' hi hharmless hs => ((watched_step hi hs).mpr hharmless).1
  exact Runs.eachStep_iff hkeep (fun s l s' hi hs => watched_step hi hs) hinitial

/-! ## A watcher left over -/

/-- Auditing with the security and the system log. -/
def auditing (enabled : Bool) : MachineSettings where
  audit := { enabled, filters := { security := true, system := true } }

/-- The system log may not be read: an exception that `StartWatcher` does not catch.  Then the
    settings disable auditing. -/
def denied : List Label :=
  [.applySettings (auditing true) fun logName =>
      if logName = "System" then .exception else .started,
    .applySettings (auditing false) fun _ => .started]

/-- The security log is still watched. -/
theorem not_watched_denied : ¬ Runs.EachStep step Watched {} denied := by
  decide

end Service.AuditWatchers
