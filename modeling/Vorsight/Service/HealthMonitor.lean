/-
  THE HEALTH MONITOR (Vorsight.Service/Monitoring/HealthMonitor.cs).

  Every method holds the lock of the counters, so that calls come one after the other.  A method
  counts twice: for the period since the last report, and for the whole run of the service.

  1. **Program** — `record` and its eight members, `reportHealth`, `getActivityHealthStatus`; the
     counters are 32-bit, the rates doubles.

  2. **The books** (`accounts`): whatever is called, each counter is the number of its calls, and
     the reports with the present period add up to the totals (`reports_add_up`).

  3. **The status** (`status_of_events`): read off the calls alone.  A rate below 50 in doubles says
     exactly that more calls failed than succeeded (`rate_lt_iff`).
-/
import Mathlib.Data.List.Induction
import Mathlib.Data.List.DropRight
import Vorsight.Library.Binary64

namespace Service.HealthMonitor

open Binary64

/-! ## The counters -/

inductive Kind
  | screenshot | upload | activity | agentCommand
deriving DecidableEq, Repr

/-- An `int` that has gone past its bounds. -/
def wrap (n : Int) : Int := n.bmod (2 ^ 32)

/-- The counters of successes and failures. -/
abbrev Counts := Kind → Bool → Int

def bump (counts : Counts) (kind : Kind) (success : Bool) : Counts := fun k b =>
  if k = kind ∧ b = success then wrap (counts k b + 1) else counts k b

structure State where
  /-- `_screenshotsSuccessful` and the others -/
  period : Counts := fun _ _ => 0
  /-- `_totalScreenshotsSuccessful` and the others -/
  total : Counts := fun _ _ => 0
  periodStart : Int
  applicationStart : Int
  /-- in ticks; `DateTime.MinValue` is 0 -/
  lastActivityReceived : Int := 0

def start (now : Int) : State := { periodStart := now, applicationStart := now }

namespace State

def record (s : State) (kind : Kind) (success : Bool) : State :=
  { s with period := bump s.period kind success, total := bump s.total kind success }

def recordScreenshotSuccess (s : State) : State := s.record .screenshot true
def recordScreenshotFailure (s : State) : State := s.record .screenshot false
def recordUploadSuccess (s : State) : State := s.record .upload true
def recordUploadFailure (s : State) : State := s.record .upload false
def recordActivitySuccess (s : State) : State := s.record .activity true
def recordActivityFailure (s : State) : State := s.record .activity false
def recordAgentCommandSuccess (s : State) : State := s.record .agentCommand true
def recordAgentCommandFailure (s : State) : State := s.record .agentCommand false

def updateLastActivityReceived (s : State) (timestamp : Int) : State :=
  { s with lastActivityReceived := timestamp }

end State

/-! ## Rates -/

/-- The quotient of two doubles, for a finite one. -/
def double (x : Rat) : Rat := if x < 0 then -nearest (-x) else nearest x

/-- `successful * 100.0 / total` if there is a total; the product is exact. -/
def rate (successful total : Int) : Rat :=
  if 0 < total then double (successful * 100 / total) else 0

/-- `_screenshotsSuccessful + _screenshotsFailed`. -/
def sum (counts : Counts) (kind : Kind) : Int := wrap (counts kind true + counts kind false)

def rateOf (counts : Counts) (kind : Kind) : Rat := rate (counts kind true) (sum counts kind)

/-! ## Reports -/

def ticksPerMinute : Int := 600000000

inductive Warning
  | noScreenshots (duration : Int)
  | lowRate (kind : Kind) (rate : Rat)
  | noActivity (duration : Int)
deriving DecidableEq, Repr

/-- What `ReportHealth` logs. -/
structure HealthLog where
  periodDuration : Int
  totalDuration : Int
  period : Counts
  rates : Kind → Rat
  timeSinceLastActivity : Int
  warnings : List Warning

def timeSinceLastActivity (s : State) (now : Int) : Int :=
  if s.lastActivityReceived ≠ 0 then now - s.lastActivityReceived else 0

def lowRate (s : State) (atLeast : Int) (kind : Kind) : List Warning :=
  if atLeast < sum s.period kind ∧ rateOf s.period kind < 50 then
    [.lowRate kind (rateOf s.period kind)]
  else []

def warnings (s : State) (now : Int) : List Warning :=
  (if sum s.period .screenshot = 0 ∧ 20 * ticksPerMinute < now - s.periodStart then
    [.noScreenshots (now - s.periodStart)] else []) ++
  lowRate s 0 .screenshot ++ lowRate s 0 .upload ++
  (if s.lastActivityReceived ≠ 0 ∧ 10 * ticksPerMinute < timeSinceLastActivity s now then
    [.noActivity (timeSinceLastActivity s now)] else []) ++
  lowRate s 0 .activity ++ lowRate s 5 .agentCommand

/-- `ReportHealth`: what it logs, and the new period. -/
def reportHealth (s : State) (now : Int) : HealthLog × State :=
  ({ periodDuration := now - s.periodStart
     totalDuration := now - s.applicationStart
     period := s.period
     rates := rateOf s.period
     timeSinceLastActivity := timeSinceLastActivity s now
     warnings := warnings s now },
    { s with period := fun _ _ => 0, periodStart := now })

/-- `HealthReport`: the present period and the totals of screenshots and uploads. -/
structure HealthReport where
  period : Bool → Int × Int
  total : Bool → Int × Int
  periodDuration : Int
  totalRuntime : Int

def getHealthReport (s : State) (now : Int) : HealthReport where
  period b := (s.period .screenshot b, s.period .upload b)
  total b := (s.total .screenshot b, s.total .upload b)
  periodDuration := now - s.periodStart
  totalRuntime := now - s.applicationStart

/-! ## The status -/

inductive ActivityHealthStatus
  | unknown | failed | degraded | healthy
deriving DecidableEq, Repr

def getActivityHealthStatus (s : State) (now : Int) : ActivityHealthStatus :=
  if s.lastActivityReceived = 0 then .unknown
  else if 10 * ticksPerMinute < now - s.lastActivityReceived then .failed
  else if 0 < sum s.period .activity ∧ rateOf s.period .activity < 50 then .degraded
  else if 5 < sum s.period .agentCommand ∧ rateOf s.period .agentCommand < 50 then .degraded
  else .healthy

/-! ## Runs -/

inductive Event
  | record (kind : Kind) (success : Bool)
  | updateLastActivityReceived (timestamp : Int)
  | report (now : Int)
deriving DecidableEq, Repr

/-- The method that counts an event. -/
def method (s : State) : Kind → Bool → State
  | .screenshot, true => s.recordScreenshotSuccess
  | .screenshot, false => s.recordScreenshotFailure
  | .upload, true => s.recordUploadSuccess
  | .upload, false => s.recordUploadFailure
  | .activity, true => s.recordActivitySuccess
  | .activity, false => s.recordActivityFailure
  | .agentCommand, true => s.recordAgentCommandSuccess
  | .agentCommand, false => s.recordAgentCommandFailure

theorem method_eq (s : State) (kind : Kind) (success : Bool) :
    method s kind success = s.record kind success := by
  cases kind <;> cases success <;> rfl

def apply (s : State) : Event → State
  | .record kind success => method s kind success
  | .updateLastActivityReceived timestamp => s.updateLastActivityReceived timestamp
  | .report now => (reportHealth s now).2

/-- The state after the calls. -/
def after (s : State) (events : List Event) : State := events.foldl apply s

/-- What has been logged in the meantime. -/
def logs : State → List Event → List HealthLog
  | _, [] => []
  | s, .report now :: events => (reportHealth s now).1 :: logs (reportHealth s now).2 events
  | s, event :: events => logs (apply s event) events

/-! ## What the calls say -/

def isReport : Event → Bool
  | .report _ => true
  | _ => false

/-- The calls since the last report. -/
def sinceReport (events : List Event) : List Event := events.rtakeWhile (!isReport ·)

/-- How often it has been recorded. -/
def times (kind : Kind) (success : Bool) (events : List Event) : Nat :=
  events.count (.record kind success)

def timestamp : Event → Option Int
  | .updateLastActivityReceived timestamp => some timestamp
  | _ => none

/-- When activity was received last. -/
def lastReceived (events : List Event) : Option Int := events.reverse.findSome? timestamp

/-! ## The books -/

theorem after_append (s : State) (events more : List Event) :
    after s (events ++ more) = after (after s events) more := List.foldl_append

theorem wrap_zero : wrap 0 = 0 := Int.zero_bmod

theorem wrap_wrap (n : Int) : wrap (wrap n) = wrap n := Int.bmod_bmod

/-- `int` addition of one to a count. -/
theorem wrap_add_one (n : Int) : wrap (wrap n + 1) = wrap (n + 1) := by
  unfold wrap
  rw [Int.bmod_add_bmod]

theorem bump_count (kind k : Kind) (success b : Bool) (events : List Event) {counts : Counts}
    (h : counts k b = wrap (times k b events)) :
    bump counts kind success k b = wrap (times k b (events ++ [.record kind success])) := by
  unfold bump
  by_cases hsame : k = kind ∧ b = success
  · obtain ⟨rfl, rfl⟩ := hsame
    rw [if_pos ⟨rfl, rfl⟩, h, wrap_add_one]
    simp [times, List.count_append]
  · rw [if_neg hsame, h]
    have hne : Event.record kind success ≠ .record k b := by
      rintro ⟨⟩
      exact hsame ⟨rfl, rfl⟩
    simp [times, List.count_append, hne]

/-- What the counters and the time of the last activity are after some calls. -/
structure Accounts (s : State) (events : List Event) : Prop where
  total : ∀ kind success, s.total kind success = wrap (times kind success events)
  period : ∀ kind success, s.period kind success = wrap (times kind success (sinceReport events))
  lastActivityReceived : s.lastActivityReceived = (lastReceived events).getD 0

theorem sinceReport_concat {event : Event} (h : isReport event = false) (events : List Event) :
    sinceReport (events ++ [event]) = sinceReport events ++ [event] := by
  rw [sinceReport, List.rtakeWhile_concat_pos _ _ _ (by simp [h])]
  rfl

theorem sinceReport_report (now : Int) (events : List Event) :
    sinceReport (events ++ [.report now]) = [] := by
  rw [sinceReport, List.rtakeWhile_concat_neg _ _ _ (by simp [isReport])]

theorem lastReceived_concat (events : List Event) (event : Event) :
    lastReceived (events ++ [event]) = (timestamp event).or (lastReceived events) := by
  rw [lastReceived, List.reverse_append, List.reverse_singleton, List.singleton_append,
    List.findSome?_cons]
  cases timestamp event <;> rfl

/-- **The books are right**, whatever is called in whatever order. -/
theorem accounts (now : Int) (events : List Event) :
    Accounts (after (start now) events) events := by
  induction events using List.reverseRecOn with
  | nil => exact ⟨fun _ _ => wrap_zero.symm, fun _ _ => wrap_zero.symm, rfl⟩
  | append_singleton events event ih =>
    rw [after_append]
    generalize after (start now) events = s at ih ⊢
    cases event with
    | record kind success =>
      show Accounts (method s kind success) _
      rw [method_eq]
      refine ⟨fun k b => bump_count kind k success b events (ih.total k b), fun k b => ?_, ?_⟩
      · rw [sinceReport_concat rfl]
        exact bump_count kind k success b _ (ih.period k b)
      · rw [lastReceived_concat]
        exact ih.lastActivityReceived
    | updateLastActivityReceived t =>
      refine ⟨fun k b => ?_, fun k b => ?_, ?_⟩
      · rw [times, List.count_append]
        exact ih.total k b
      · rw [sinceReport_concat rfl, times, List.count_append]
        exact ih.period k b
      · rw [lastReceived_concat]
        rfl
    | report t =>
      refine ⟨fun k b => ?_, fun k b => ?_, ?_⟩
      · rw [times, List.count_append]
        exact ih.total k b
      · rw [sinceReport_report]
        exact wrap_zero.symm
      · rw [lastReceived_concat]
        exact ih.lastActivityReceived

/-- What the reports and the present period come to. -/
def reported (logs : List HealthLog) (kind : Kind) (success : Bool) : Int :=
  (logs.map fun log => log.period kind success).sum

theorem wrap_bump (s : State) (kind k : Kind) (success b : Bool) (n : Int)
    (h : wrap (n + s.period k b) = wrap (s.total k b)) :
    wrap (n + (s.record kind success).period k b) = wrap ((s.record kind success).total k b) := by
  show wrap (n + bump s.period kind success k b) = wrap (bump s.total kind success k b)
  unfold bump
  split
  · unfold wrap at h ⊢
    rw [Int.add_bmod_bmod, Int.bmod_bmod, ← Int.add_assoc, ← Int.bmod_add_bmod, h,
      Int.bmod_add_bmod]
  · exact h

/-- **The reports add up**: what all reports have logged for a counter, and its present period,
    come to its total. -/
theorem reports_add_up (now : Int) (events : List Event) (kind : Kind) (success : Bool) :
    let s := after (start now) events
    wrap (reported (logs (start now) events) kind success + s.period kind success) =
      s.total kind success := by
  intro s
  have hsum : ∀ (events : List Event) (s : State) (n : Int),
      wrap (n + s.period kind success) = wrap (s.total kind success) →
      wrap (n + reported (logs s events) kind success + (after s events).period kind success) =
        wrap ((after s events).total kind success) := by
    intro events
    induction events with
    | nil =>
      intro s n h
      simpa [logs, reported, after] using h
    | cons event events ih =>
      intro s n h
      cases event with
      | record k b =>
        refine ih (method s k b) n ?_
        rw [method_eq]
        exact wrap_bump s k kind b success n h
      | updateLastActivityReceived t => exact ih (s.updateLastActivityReceived t) n h
      | report t =>
        have hrest := ih (reportHealth s t).2 (n + s.period kind success)
          (by simpa [reportHealth] using h)
        simpa [logs, reported, after, apply, reportHealth, Int.add_assoc] using hrest
  have htotal := (accounts now events).total kind success
  have hwrap : wrap (s.total kind success) = s.total kind success := by
    rw [show s.total kind success = wrap _ from htotal, wrap_wrap]
  have h := hsum events (start now) 0 rfl
  rw [Int.zero_add] at h
  exact h.trans hwrap

/-! ## The status -/

/-- A rate is below one half in doubles exactly when it is. -/
theorem rate_lt_iff {successful total : Int} (h0 : 0 ≤ successful) (hpos : 0 < total)
    (hlt : total < 2 ^ 32) : rate successful total < 50 ↔ 2 * successful < total := by
  have hposQ : (0 : Rat) < total := by exact_mod_cast hpos
  have h0Q : (0 : Rat) ≤ successful := by exact_mod_cast h0
  have hq : (0 : Rat) ≤ successful * 100 / total := by positivity
  rw [rate, if_pos hpos, double, if_neg (not_lt.mpr hq)]
  constructor
  · intro h
    by_contra hhalf
    have hhalfQ : (total : Rat) ≤ 2 * successful := by exact_mod_cast not_lt.mp hhalf
    have hge : (50 : Rat) ≤ successful * 100 / total := by
      rw [le_div_iff₀ hposQ]
      linarith
    have hround := nearest_mono (by norm_num) hge
    have hfifty : nearest 50 = 50 := by decide +kernel
    linarith
  · intro h
    -- the quotient is farther from 50 than a double can lose
    have hhalfQ : (2 : Rat) * successful + 1 ≤ total := by exact_mod_cast h
    have hltQ : (total : Rat) ≤ 2 ^ 32 := by exact_mod_cast hlt.le
    have hle' : (successful : Rat) * 100 / total ≤ 50 - 50 / 2 ^ 32 := by
      rw [div_le_iff₀ hposQ]
      nlinarith
    have hround := nearest_mono hq hle'
    have hbelow : nearest (50 - 50 / 2 ^ 32) < 50 := by decide +kernel
    linarith

/-- More calls have failed than have succeeded. -/
def Failing (kind : Kind) (events : List Event) : Prop :=
  times kind true events < times kind false events

instance (kind : Kind) (events : List Event) : Decidable (Failing kind events) :=
  inferInstanceAs (Decidable (_ < _))

/-- The status as the calls have it: nothing received, nothing for ten minutes, more failures than
    successes since the last report, or none of these. -/
def statusOf (events : List Event) (now : Int) : ActivityHealthStatus :=
  let last := (lastReceived events).getD 0
  let recent := sinceReport events
  if last = 0 then .unknown
  else if 10 * ticksPerMinute < now - last then .failed
  else if Failing .activity recent then .degraded
  else if 5 < times .agentCommand true recent + times .agentCommand false recent ∧
      Failing .agentCommand recent then .degraded
  else .healthy

theorem times_add_le (kind : Kind) (events : List Event) :
    times kind true events + times kind false events ≤ events.length := by
  induction events with
  | nil => simp [times]
  | cons event events ih =>
    unfold times at ih ⊢
    rw [List.count_cons, List.count_cons, List.length_cons]
    have hone : (if event == .record kind true then 1 else 0) +
        (if event == .record kind false then 1 else 0) ≤ 1 := by
      split
      · next h =>
        rw [eq_of_beq h]
        simp
      · split <;> simp
    omega

theorem wrap_of_lt {n : Nat} (h : n < 2 ^ 31) : wrap n = n := by
  unfold wrap
  exact Int.bmod_eq_of_le (by omega) (by omega)

/-- What the counters of a period give, as long as they have not overflowed. -/
theorem low_iff {s : State} {events : List Event} (h : Accounts s events)
    (hlt : events.length < 2 ^ 31) (kind : Kind) (atLeast : Nat) :
    (atLeast < sum s.period kind ∧ rateOf s.period kind < 50) ↔
      atLeast < times kind true (sinceReport events) + times kind false (sinceReport events) ∧
        Failing kind (sinceReport events) := by
  have hle := times_add_le kind (sinceReport events)
  have hsub : (sinceReport events).length ≤ events.length :=
    (List.rtakeWhile_suffix _ _).length_le
  have hsum : sum s.period kind = ((times kind true (sinceReport events) +
      times kind false (sinceReport events) : Nat) : Int) := by
    rw [sum, h.period, h.period, wrap_of_lt (by omega), wrap_of_lt (by omega), ← Int.natCast_add,
      wrap_of_lt (by omega)]
  rw [rateOf, hsum, h.period, wrap_of_lt (by omega), Failing]
  constructor
  · rintro ⟨hmore, hrate⟩
    rw [rate_lt_iff (by omega) (by omega) (by omega)] at hrate
    omega
  · rintro ⟨hmore, hfailing⟩
    refine ⟨by omega, ?_⟩
    rw [rate_lt_iff (by omega) (by omega) (by omega)]
    omega

/-- **The status is the one of the calls**: after any calls, as long as there are fewer than 2³¹,
    what the monitor says is what can be read off the calls. -/
theorem status_of_events (began now : Int) {events : List Event} (hlt : events.length < 2 ^ 31) :
    getActivityHealthStatus (after (start began) events) now = statusOf events now := by
  have h := accounts began events
  generalize after (start began) events = s at h ⊢
  have hactivity := low_iff h hlt .activity 0
  have hcommand := low_iff h hlt .agentCommand 5
  have hpos : 0 < times .activity true (sinceReport events) +
      times .activity false (sinceReport events) ∧ Failing .activity (sinceReport events) ↔
      Failing .activity (sinceReport events) := by
    unfold Failing
    omega
  rw [hpos] at hactivity
  simp only [getActivityHealthStatus, statusOf, h.lastActivityReceived]
  simp only [Nat.cast_zero] at hactivity
  simp only [hactivity, ← hcommand, Nat.cast_ofNat]

/-- Three activities of which two fail, then a report: the status is better after it. -/
theorem status_of_events_report :
    getActivityHealthStatus (after (start 0) [.record .activity true, .record .activity false,
      .record .activity false, .updateLastActivityReceived 5, .report 6]) 7 = .healthy := by
  rw [status_of_events 0 7 (by decide)]
  decide

example : statusOf [.record .activity true, .record .activity false, .record .activity false,
    .updateLastActivityReceived 5] 7 = .degraded := by decide

end Service.HealthMonitor
