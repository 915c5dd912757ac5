/-
  THE MONITORING LOOP (Vorsight.Service/Monitoring/ActivityCoordinator.cs).

  Each iteration reads the clock and the settings, sends a heartbeat, launches an activity capture,
  and requests a timed screenshot, where these are due.  `UpdateActivity` and manual requests come
  in at any of its awaits.

  1. **The claim of the design** (`Respected`): what an iteration captures is enabled in its
     settings.

  2. **Where it fails.**  The loop looks at the intervals only.  The dashboard's switches leave them
     alone (`interval_of_toggles`), and an activity interval that is not positive counts as ten
     seconds; so a disabled feature is captured whenever it is due (`Idle`).

  3. `respected_iff`: the claim holds in a run exactly when a disabled feature is never due, and
     `timed_of_toggles`: switching screenshots off never stops them.
-/
import Mathlib.Logic.Basic
import Mathlib.Tactic.ByContra
import Vorsight.Library.Run
import Vorsight.Library.Time
import Vorsight.Dashboard.FeaturesPage
import Vorsight.Server.MachineService

namespace Service.ActivityCoordinator

open Runs Time Vorsight

/-! ## The state -/

/-- What the agent has seen. -/
structure ActivityData where
  timestamp : Int
  activeWindow : String := ""
  processName : String := ""
  username : String := ""
deriving DecidableEq, Repr

structure ActivitySnapshot where
  activeWindowTitle : String
  processName : String
  timestamp : DateTime
deriving DecidableEq, Repr

structure ActivityPayload where
  timestamp : DateTime
  activeWindow : String
  processName : String
  duration : Int
  username : String
deriving DecidableEq, Repr

structure StatePayload where
  lastActivityTime : DateTime
  activeWindow : String
  screenshotCount : Nat := 0
  uploadCount : Nat := 0
  version : String
deriving DecidableEq, Repr

/-- A launch of the agent; what an iteration launches comes with its settings. -/
inductive Capture
  | activity (settings : MachineSettings)
  | timed (settings : MachineSettings) (metadata : String)
  | manual (metadata : String)
deriving DecidableEq

/-- Where `StartMonitoringAsync` is. -/
inductive Loop
  /-- before an iteration -/
  | delaying
  /-- after the heartbeat -/
  | polling (now : DateTime) (settings : MachineSettings)
  /-- after the activity capture -/
  | capturing (now : DateTime) (settings : MachineSettings)
  | stopped
deriving DecidableEq

structure State where
  currentWindow : String := ""
  currentProcess : String := ""
  currentActivityStart : DateTime := .minValue
  lastTimedScreenshot : DateTime := .minValue
  lastPollTime : DateTime := .minValue
  latestSnapshot : Option ActivitySnapshot := none
  currentUsername : String := ""
  lastActivityPoll : DateTime := .minValue
  loop : Loop := .delaying
  captures : List Capture := []
  activities : List ActivityPayload := []
  heartbeats : List StatePayload := []
deriving DecidableEq

/-! ## The steps -/

namespace State

/-- Initialize tracking if needed. -/
def startTracking (s : State) (data : ActivityData) (now : DateTime) : State :=
  if s.currentActivityStart = .minValue then { s with
    currentWindow := data.activeWindow
    currentProcess := data.processName
    currentUsername := data.username
    currentActivityStart := now }
  else s

/-- The previous activity, if it had a meaningful duration. -/
def previousActivity (s : State) (data : ActivityData) (now : DateTime) :
    Option ActivityPayload :=
  let duration := toInt32 ((now.since s.currentActivityStart).tdiv ticksPerSecond)
  if 0 < duration then some {
    timestamp := s.currentActivityStart
    activeWindow := s.currentWindow
    processName := s.currentProcess
    duration
    username := if s.currentUsername ≠ "" then s.currentUsername else data.username }
  else none

/-- The window has changed. -/
def changeWindow (s : State) (data : ActivityData) (now : DateTime) (isConnected : Bool) :
    State :=
  if data.activeWindow ≠ s.currentWindow then { s with
    activities := s.activities ++
      if isConnected then (s.previousActivity data now).toList else []
    currentWindow := data.activeWindow
    currentProcess := data.processName
    currentActivityStart := now }
  else s

/-- `UpdateActivity`; a time outside the calendar is an exception. -/
def updateActivity (s : State) (data : ActivityData) (isConnected : Bool) : State :=
  match DateTime.fromUnixTimeSeconds data.timestamp with
  | none => s
  | some now => { (s.startTracking data now).changeWindow data now isConnected with
      latestSnapshot := some {
        activeWindowTitle := data.activeWindow
        processName := data.processName
        timestamp := now } }

/-- Heartbeat (every 30s). -/
def heartbeat (s : State) (now : DateTime) (isConnected : Bool) (version : String) : State :=
  if 30 * ticksPerSecond < now.since s.lastPollTime then { s with
    lastPollTime := now
    heartbeats := s.heartbeats ++ match s.latestSnapshot with
      | some snapshot => if isConnected then
          [{ lastActivityTime := snapshot.timestamp, activeWindow := snapshot.activeWindowTitle,
             version }]
        else []
      | none => [] }
  else s

/-- Seconds between activity captures. -/
def activityInterval (settings : MachineSettings) : Int :=
  if 0 < settings.activity.intervalSeconds then settings.activity.intervalSeconds else 10

/-- Poll Activity. -/
def poll (s : State) (now : DateTime) (settings : MachineSettings) : State :=
  match timeSpanFromSeconds (activityInterval settings) with
  | none => { s with loop := .stopped }
  | some interval =>
    if interval < now.since s.lastActivityPoll then { s with
      lastActivityPoll := now
      captures := s.captures ++ [.activity settings]
      loop := .capturing now settings }
    else { s with loop := .capturing now settings }

/-- The metadata `RequestScreenshotAsync` hands to the agent. -/
def metadata (triggerType : String) (snapshot : ActivitySnapshot) : String :=
  "Type:" ++ triggerType ++ "|Title:" ++ snapshot.activeWindowTitle

/-- Check for Timed Screenshot. -/
def timed (s : State) (now : DateTime) (settings : MachineSettings) : State :=
  match timeSpanFromSeconds settings.screenshots.intervalSeconds, s.latestSnapshot with
  | none, _ => { s with loop := .stopped }
  | some interval, some snapshot =>
    if 0 < settings.screenshots.intervalSeconds ∧ interval < now.since s.lastTimedScreenshot then
      { s with
        lastTimedScreenshot := now
        captures := s.captures ++ [.timed settings (metadata "Timed" snapshot)]
        loop := .delaying }
    else { s with loop := .delaying }
  | some _, none => { s with loop := .delaying }

/-- `RequestManualScreenshotAsync`. -/
def requestManual (s : State) (source : String) (now : DateTime) : State :=
  let snapshot := s.latestSnapshot.getD
    { activeWindowTitle := "Manual Trigger", processName := "System", timestamp := now }
  { s with captures := s.captures ++ [.manual (metadata source snapshot)] }

end State

inductive Step
  | updateActivity (data : ActivityData) (isConnected : Bool)
  | requestManual (source : String) (now : DateTime)
  /-- an iteration begins, up to its heartbeat -/
  | iterate (now : DateTime) (settings : MachineSettings) (isConnected : Bool) (version : String)
  | poll
  | timed
  /-- the token is cancelled, or an await throws -/
  | stop
deriving DecidableEq

def step (s : State) : Step → Option State
  | .updateActivity data isConnected => some (s.updateActivity data isConnected)
  | .requestManual source now => some (s.requestManual source now)
  | .iterate now settings isConnected version =>
      if s.loop = .delaying then
        some { s.heartbeat now isConnected version with loop := .polling now settings }
      else none
  | .poll => match s.loop with
      | .polling now settings => some (s.poll now settings)
      | _ => none
  | .timed => match s.loop with
      | .capturing now settings => some (s.timed now settings)
      | _ => none
  | .stop => some { s with loop := .stopped }

/-! ## The design's claim -/

def Capture.Enabled : Capture → Prop
  | .activity settings => settings.activity.enabled = true
  | .timed settings _ => settings.screenshots.enabled = true
  | .manual _ => True

/-- No iteration has captured what its settings disable. -/
def Respected (s : State) : Prop := ∀ c ∈ s.captures, c.Enabled

/-! ## The condition -/

/-- A disabled feature is not due: the iteration comes within its interval after the last capture,
    or, for screenshots, the interval is not positive or no activity has been seen. -/
def Idle (s : State) : Step → Prop
  | .poll => ∀ now settings, s.loop = .polling now settings → settings.activity.enabled = false →
      now.since s.lastActivityPoll ≤ State.activityInterval settings * ticksPerSecond
  | .timed => ∀ now settings, s.loop = .capturing now settings →
      settings.screenshots.enabled = false →
        settings.screenshots.intervalSeconds ≤ 0 ∨ s.latestSnapshot = none ∨
          now.since s.lastTimedScreenshot ≤ settings.screenshots.intervalSeconds * ticksPerSecond
  | _ => True

/-! ## What is captured -/

theorem activityInterval_pos (settings : MachineSettings) :
    0 < State.activityInterval settings := by
  unfold State.activityInterval
  split <;> omega

/-- An interval that can be over is one that a `TimeSpan` can hold. -/
theorem timeSpan_of_lt {seconds : Int} {now last : DateTime} (hpos : 0 < seconds)
    (hlt : seconds * ticksPerSecond < now.since last) :
    timeSpanFromSeconds seconds = some (seconds * ticksPerSecond) := by
  have hmax := now.inRange
  have hsince : now.since last = (now.ticks : Int) - (last.ticks : Int) := rfl
  unfold maxTicks at hmax
  unfold ticksPerSecond at hlt
  rw [timeSpanFromSeconds, if_pos (by omega)]

/-- The activity captures of a step: one, exactly when the interval is over. -/
theorem captures_poll (s : State) (now : DateTime) (settings : MachineSettings) :
    (s.poll now settings).captures = s.captures ++
      if State.activityInterval settings * ticksPerSecond < now.since s.lastActivityPoll
      then [.activity settings] else [] := by
  split
  · rename_i hdue
    rw [State.poll, timeSpan_of_lt (activityInterval_pos settings) hdue]
    simp [hdue]
  · rename_i hdue
    unfold State.poll timeSpanFromSeconds
    split
    -- an interval that no TimeSpan can hold ends the iteration, and is never over either
    · simp
    · rename_i interval hspan
      obtain rfl : State.activityInterval settings * ticksPerSecond = interval := by
        simpa using (Option.ite_none_right_eq_some.mp hspan).2
      simp [hdue]

/-- The timed screenshots of a step: one, exactly when the interval is positive and over and there
    is a window to name. -/
theorem captures_timed (s : State) (now : DateTime) (settings : MachineSettings) :
    (s.timed now settings).captures = s.captures ++
      match s.latestSnapshot with
      | some snapshot =>
        if 0 < settings.screenshots.intervalSeconds ∧
            settings.screenshots.intervalSeconds * ticksPerSecond < now.since s.lastTimedScreenshot
        then [.timed settings (State.metadata "Timed" snapshot)] else []
      | none => [] := by
  cases hsnap : s.latestSnapshot with
  | none =>
    cases hspan : timeSpanFromSeconds settings.screenshots.intervalSeconds <;>
      simp [State.timed, hsnap, hspan]
  | some snapshot =>
    by_cases hdue : 0 < settings.screenshots.intervalSeconds ∧
        settings.screenshots.intervalSeconds * ticksPerSecond < now.since s.lastTimedScreenshot
    · simp [State.timed, hsnap, timeSpan_of_lt hdue.1 hdue.2, hdue]
    · simp only [if_neg hdue, List.append_nil]
      cases hspan : timeSpanFromSeconds settings.screenshots.intervalSeconds with
      | none => simp [State.timed, hspan]
      | some interval =>
        obtain rfl : settings.screenshots.intervalSeconds * ticksPerSecond = interval := by
          simpa using (Option.ite_none_right_eq_some.mp hspan).2
        simp [State.timed, hsnap, hspan, hdue]

theorem captures_changeWindow (s : State) (data : ActivityData) (now : DateTime)
    (isConnected : Bool) : (s.changeWindow data now isConnected).captures = s.captures := by
  unfold State.changeWindow
  split <;> rfl

theorem captures_startTracking (s : State) (data : ActivityData) (now : DateTime) :
    (s.startTracking data now).captures = s.captures := by
  unfold State.startTracking
  split <;> rfl

/-- Activity data launches nothing. -/
theorem captures_updateActivity (s : State) (data : ActivityData) (isConnected : Bool) :
    (s.updateActivity data isConnected).captures = s.captures := by
  unfold State.updateActivity
  split
  · rfl
  · exact (captures_changeWindow _ data _ isConnected).trans (captures_startTracking s data _)

theorem captures_heartbeat (s : State) (now : DateTime) (isConnected : Bool) (version : String) :
    (s.heartbeat now isConnected version).captures = s.captures := by
  unfold State.heartbeat
  split <;> rfl

/-! ## What is sent -/

/-- All heartbeats of the loop report zeros. -/
theorem heartbeats_heartbeat (s : State) (now : DateTime) (isConnected : Bool) (version : String) :
    ∃ new, (s.heartbeat now isConnected version).heartbeats = s.heartbeats ++ new ∧
      ∀ p ∈ new, p.screenshotCount = 0 ∧ p.uploadCount = 0 := by
  unfold State.heartbeat
  split
  · refine ⟨_, rfl, fun p hp => ?_⟩
    split at hp
    · split at hp
      · rw [List.mem_singleton.mp hp]
        exact ⟨rfl, rfl⟩
      · cases hp
    · cases hp
  · exact ⟨[], (List.append_nil _).symm, fun p hp => absurd hp List.not_mem_nil⟩

theorem heartbeats_updateActivity (s : State) (data : ActivityData) (isConnected : Bool) :
    (s.updateActivity data isConnected).heartbeats = s.heartbeats := by
  unfold State.updateActivity State.changeWindow State.startTracking
  split
  · rfl
  · dsimp only
    split <;> split <;> rfl

theorem heartbeats_poll (s : State) (now : DateTime) (settings : MachineSettings) :
    (s.poll now settings).heartbeats = s.heartbeats := by
  unfold State.poll
  split
  · rfl
  · split <;> rfl

theorem heartbeats_timed (s : State) (now : DateTime) (settings : MachineSettings) :
    (s.timed now settings).heartbeats = s.heartbeats := by
  unfold State.timed
  split
  · rfl
  · split <;> rfl
  · rfl

/-- A step adds heartbeats that report zeros, if any. -/
theorem heartbeats_step {s s' : State} {l : Step} (hs : step s l = some s') :
    ∃ new, s'.heartbeats = s.heartbeats ++ new ∧
      ∀ p ∈ new, p.screenshotCount = 0 ∧ p.uploadCount = 0 := by
  have hsame : s'.heartbeats = s.heartbeats → ∃ new, s'.heartbeats = s.heartbeats ++ new ∧
      ∀ p ∈ new, p.screenshotCount = 0 ∧ p.uploadCount = 0 :=
    fun h => ⟨[], by rw [h, List.append_nil], fun p hp => absurd hp List.not_mem_nil⟩
  cases l with
  | updateActivity data isConnected =>
    cases hs
    exact hsame (heartbeats_updateActivity s data isConnected)
  | requestManual source now =>
    cases hs
    exact hsame rfl
  | iterate now settings isConnected version =>
    simp only [step] at hs
    split at hs
    · cases hs
      exact heartbeats_heartbeat s now isConnected version
    · cases hs
  | poll =>
    simp only [step] at hs
    split at hs
    · cases hs
      exact hsame (heartbeats_poll s _ _)
    · cases hs
  | timed =>
    simp only [step] at hs
    split at hs
    · cases hs
      exact hsame (heartbeats_timed s _ _)
    · cases hs
  | stop =>
    cases hs
    exact hsame rfl

/-! ## Every run -/

theorem respected_append {s s' : State} {new : List Capture} (h : Respected s)
    (hcaptures : s'.captures = s.captures ++ new) (hnew : ∀ c ∈ new, c.Enabled) :
    Respected s' := by
  intro c hc
  rw [hcaptures] at hc
  exact (List.mem_append.mp hc).elim (h c) (hnew c)

theorem respected_of_eq {s s' : State} (h : Respected s) (hcaptures : s'.captures = s.captures) :
    Respected s' := fun c hc => h c (hcaptures ▸ hc)

/-- An iteration that is idle where a feature is disabled captures only what is enabled. -/
theorem respected_step {s s' : State} {a : Step} (h : Respected s) (hg : Idle s a)
    (hs : step s a = some s') : Respected s' := by
  cases a with
  | updateActivity data isConnected =>
    cases hs
    exact respected_of_eq h (captures_updateActivity s data isConnected)
  | requestManual source now =>
    cases hs
    exact respected_append h rfl (by simp [Capture.Enabled])
  | iterate now settings isConnected version =>
    simp only [step, Option.ite_none_right_eq_some, Option.some.injEq] at hs
    obtain ⟨-, rfl⟩ := hs
    exact respected_of_eq h (captures_heartbeat s now isConnected version)
  | poll =>
    simp only [step] at hs
    split at hs
    · rename_i now settings hloop
      cases hs
      refine respected_append h (captures_poll s now settings) fun c hc => ?_
      split at hc
      -- a capture needs the interval to be over, which it is not while the step is idle
      · rename_i hdue
        obtain rfl := List.mem_singleton.mp hc
        by_contra hdisabled
        have hidle := hg now settings hloop (by simpa [Capture.Enabled] using hdisabled)
        omega
      · cases hc
    · cases hs
  | timed =>
    simp only [step] at hs
    split at hs
    · rename_i now settings hloop
      cases hs
      refine respected_append h (captures_timed s now settings) fun c hc => ?_
      split at hc
      · rename_i snapshot hsnap
        split at hc
        · rename_i hdue
          obtain rfl := List.mem_singleton.mp hc
          by_contra hdisabled
          have hidle := hg now settings hloop (by simpa [Capture.Enabled] using hdisabled)
          rcases hidle with hle | hnone | hle
          · omega
          · rw [hsnap] at hnone
            cases hnone
          · omega
        · cases hc
      · cases hc
    · cases hs
  | stop =>
    cases hs
    exact h

/-- A disabled feature that is due is captured. -/
theorem not_respected_of_not_idle {s s' : State} {a : Step} (hg : ¬ Idle s a)
    (hs : step s a = some s') : ¬ Respected s' := by
  cases a with
  | poll =>
    simp only [Idle, not_forall, Int.not_le] at hg
    obtain ⟨now, settings, hloop, hdisabled, hdue⟩ := hg
    simp only [step, hloop, Option.some.injEq] at hs
    subst hs
    intro h
    have hmem : Capture.activity settings ∈ (s.poll now settings).captures := by
      rw [captures_poll, if_pos hdue]
      simp
    exact absurd (h _ hmem) (by simp [Capture.Enabled, hdisabled])
  | timed =>
    simp only [Idle, not_forall, not_or, Int.not_le] at hg
    obtain ⟨now, settings, hloop, hdisabled, hpos, hsnap, hdue⟩ := hg
    obtain ⟨snapshot, hsnap⟩ := Option.ne_none_iff_exists'.mp hsnap
    simp only [step, hloop, Option.some.injEq] at hs
    subst hs
    intro h
    have hmem : Capture.timed settings (State.metadata "Timed" snapshot) ∈
        (s.timed now settings).captures := by
      simp [captures_timed, hsnap, hpos, hdue]
    exact absurd (h _ hmem) (by simp [Capture.Enabled, hdisabled])
  | _ => exact absurd trivial hg

/-- **Disabled features capture nothing, exactly while they are not due.** -/
theorem respected_iff (steps : List Step) :
    EachState step Respected {} steps ↔ EachStep step (fun s a _ => Idle s a) {} steps :=
  eachState_iff (fun _ _ _ => respected_step) (fun _ h => h)
    (fun _ _ _ _ => not_respected_of_not_idle) (by simp [Respected])

/-! ## The switches of the dashboard -/

open Dashboard.FeaturesPage Server.MachineService

/-- A machine adopted with screenshots goes on taking them, whatever the switches say, whenever
    five minutes are over and a window has been seen. -/
theorem timed_of_toggles {data : AdoptDTO} (hadopt : data.enableScreenshots = true)
    (toggles : List Toggle) {s : State} {now : DateTime} {snapshot : ActivitySnapshot}
    (hsnap : s.latestSnapshot = some snapshot)
    (hdue : 300 * ticksPerSecond < now.since s.lastTimedScreenshot) :
    .timed (toggles.foldl toggle (initialSettings data)) (State.metadata "Timed" snapshot) ∈
      (s.timed now (toggles.foldl toggle (initialSettings data))).captures := by
  have hinterval := (interval_of_toggles toggles (initialSettings data)).1
  rw [show (initialSettings data).screenshots.intervalSeconds = 300 by
    simp [initialSettings, hadopt]] at hinterval
  simp [captures_timed, hsnap, hinterval, hdue]

/-- The settings of a machine adopted with screenshots, which are then switched off. -/
def switchedOff : MachineSettings :=
  handleScreenshotsToggle (initialSettings { enableScreenshots := true, enableActivity := true })
    false

/-- The agent reports a window, and an iteration finds a screenshot due. -/
def screenshotWhileOff : List Step :=
  [.updateActivity { timestamp := 1709294400, activeWindow := "Inbox" } true,
    .iterate ⟨638448912600000000, by decide⟩ switchedOff true "1.0", .poll, .timed]

theorem not_respected_screenshotWhileOff : ¬ EachState step Respected {} screenshotWhileOff := by
  intro h
  have hlast := h.last (rfl : run step {} screenshotWhileOff = some _)
  have hoff : switchedOff.screenshots.enabled = true :=
    hlast (.timed switchedOff "Type:Timed|Title:Inbox") (by decide)
  exact absurd hoff (by decide)

end Service.ActivityCoordinator
