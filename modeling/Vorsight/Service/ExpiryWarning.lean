/-
  THE WARNING BEFORE A CUT-OFF (Vorsight.Infrastructure/Scheduling/ScheduleManager.cs): the checks
  of one loop of `EnforceSchedulesAsync`.

  Each check reads the clock once.  The loop keeps `lastWarningTime`, so that it warns at most once
  a minute, and it waits a minute after each check; an exception of a handler skips that wait.

  1. **The loop** — `enforceSchedules` is one check; `step` also writes down what it has done.

  2. **The threshold** (`getTimeRemaining_lt`): where access is allowed, and denied within five
     minutes, less than five minutes remain.

  3. `warned_run`: a check that takes a violation action has a warning before it, made at the check
     before, at which access was still allowed, or at most one minute earlier.
-/
import Vorsight.Library.Run
import Vorsight.Service.AccessControl

namespace Service.ExpiryWarning

open AccessControl Runs Time Vorsight

/-! ## The loop -/

/-- 1 January 1601, from which Windows counts. -/
def fileTimeEpoch : Nat := 504911232000000000

/-- A reading of the clock: `DateTime.UtcNow` and `DateTime.Now`. -/
structure Reading where
  utcNow : DateTime
  now : DateTime
  sinceEpoch : fileTimeEpoch ≤ utcNow.ticks
deriving DecidableEq

/-- What a check meets. -/
structure Check extends Reading where
  currentSchedule : Option AccessControlSettings
  /-- a handler of `AccessTimeExpiring` throws -/
  handlerThrows : Bool := false
deriving DecidableEq

/-- What a check does: whether it raises `AccessTimeExpiring`, and its violation action. -/
structure Outcome where
  accessTimeExpiring : Bool := false
  action : Option ViolationAction := none
deriving DecidableEq

/-- `TimeSpan.FromMinutes(1)` -/
def oneMinute : Int := 60 * ticksPerSecond

/-- The checks so far with what they did, the latest first. -/
structure State where
  lastWarningTime : DateTime := .minValue
  history : List (Check × Outcome) := []
deriving DecidableEq

section Loop

variable [TimeSpanParser]

/-- A turn of the loop, with the `lastWarningTime` it leaves. -/
def enforceSchedules (lastWarningTime : DateTime) (c : Check) : Outcome × DateTime :=
  match c.currentSchedule with
  | none => ({}, lastWarningTime)
  | some schedule =>
    if ¬ schedule.enabled then ({}, lastWarningTime)
    else
      match getTimeRemaining schedule c.now with
      | some timeRemaining =>
        if timeRemaining < warningThreshold ∧ c.utcNow.since lastWarningTime > oneMinute then
          ({ accessTimeExpiring := true },
            if c.handlerThrows then lastWarningTime else c.utcNow)
        else ({}, lastWarningTime)
      | none =>
        if ¬ isAccessAllowedNow schedule c.now then
          ({ action := some schedule.violationAction }, lastWarningTime)
        else ({}, lastWarningTime)

def step (s : State) (c : Check) : Option State :=
  let (outcome, lastWarningTime) := enforceSchedules s.lastWarningTime c
  some { lastWarningTime, history := (c, outcome) :: s.history }

/-! ## Warned in time -/

/-- The clock goes on for less than five minutes, and without a jump of the local time. -/
structure Follows (r r' : Reading) : Prop where
  le : r.utcNow.ticks ≤ r'.utcNow.ticks
  soon : r'.utcNow.since r.utcNow < warningThreshold
  steady : r'.now.since r.now = r'.utcNow.since r.utcNow

/-- The check follows the one before it. -/
def Steady (s : State) (c : Check) : Prop :=
  ∀ p ∈ s.history.head?, Follows p.1.toReading c.toReading

/-- `AccessTimeExpiring` was raised at the check or at most one minute before. -/
def Announced (history : List (Check × Outcome)) (c : Check) : Prop :=
  ∃ p ∈ history, p.2.accessTimeExpiring = true ∧ p.1.utcNow.ticks ≤ c.utcNow.ticks ∧
    c.utcNow.since p.1.utcNow ≤ oneMinute

/-- A check that takes a violation action where access was allowed at the check before, under the
    same enabled schedule of `HH:mm` times: the check before had been announced. -/
def Warned (s : State) (c : Check) (s' : State) : Prop :=
  ∀ schedule, c.currentSchedule = some schedule → schedule.enabled = true →
    MatchesPattern schedule → ∀ outcome, s'.history.head? = some (c, outcome) →
      outcome.action ≠ none → ∀ p ∈ s.history.head?, p.1.currentSchedule = some schedule →
        isAccessAllowedNow schedule p.1.now = true → Announced s.history p.1

/-! ## The threshold -/

variable {schedule : AccessControlSettings} {s s' : State} {c : Check} {outcome : Outcome}

/-- **Where access ends within five minutes, less than five minutes remain**, whatever the window
    that `GetTimeRemaining` goes by: access lasts until the end of that. -/
theorem getTimeRemaining_lt {now later : DateTime} (henabled : schedule.enabled = true)
    (hpattern : MatchesPattern schedule) (hallowed : isAccessAllowedNow schedule now = true)
    (hdenied : isAccessAllowedNow schedule later = false) (hle : now.ticks ≤ later.ticks)
    (hsoon : later.since now < warningThreshold) :
    ∃ r, getTimeRemaining schedule now = some r ∧ r < warningThreshold := by
  obtain ⟨x, hx⟩ := currentWindow_isSome henabled hallowed
  obtain ⟨hmem, -, hday⟩ := currentWindow_pattern hpattern hx
  obtain ⟨hstart, -⟩ := currentWindow_contains hx
  refine ⟨x.stop - now.timeOfDay,
    (getTimeRemaining_eq_some henabled).mpr ⟨hallowed, x, hx, rfl⟩, ?_⟩
  by_contra hlong
  unfold DateTime.since at hsoon
  have hbefore : (later.ticks : Int) < now.ticks + (x.stop - now.timeOfDay) := by omega
  have hnow := now.day_timeOfDay
  have hlater := later.day_timeOfDay
  have hlater0 := later.timeOfDay_nonneg
  have hsame : later.day = now.day := by
    have hlower : now.day ≤ later.day := Nat.div_le_div_right hle
    unfold ticksPerDay at hday hnow hlater
    omega
  have hstill := (allowed_until_iff henabled hallowed x.stop).mpr (noGap_of_mem hmem hstart)
    later hle hbefore hsame
  rw [hdenied] at hstill
  cases hstill

/-- A check that takes a violation action has found that access is denied. -/
theorem denied_of_action {lastWarningTime : DateTime}
    (hschedule : c.currentSchedule = some schedule)
    (haction : (enforceSchedules lastWarningTime c).1.action ≠ none) :
    isAccessAllowedNow schedule c.now = false := by
  unfold enforceSchedules at haction
  rw [hschedule] at haction
  simp only at haction
  split at haction
  · exact absurd rfl haction
  · split at haction
    · split at haction
      · exact absurd rfl haction
      · exact absurd rfl haction
    · split at haction
      · rename_i hdenied
        exact Bool.eq_false_iff.mpr hdenied
      · exact absurd rfl haction

/-! ## The warnings that were made -/

/-- What a check does to the time of the last warning. -/
theorem enforceSchedules_cases (lastWarningTime : DateTime) (c : Check) :
    (enforceSchedules lastWarningTime c).2 = lastWarningTime ∨
      (enforceSchedules lastWarningTime c).1.accessTimeExpiring = true ∧
        (enforceSchedules lastWarningTime c).2 = c.utcNow := by
  unfold enforceSchedules
  split
  · exact Or.inl rfl
  · split
    · exact Or.inl rfl
    · split
      · split
        · cases c.handlerThrows with
          | true => exact Or.inl rfl
          | false => exact Or.inr ⟨rfl, rfl⟩
        · exact Or.inl rfl
      · split
        · exact Or.inl rfl
        · exact Or.inl rfl

/-- When less than five minutes remain, a check warns, unless there was a warning within the last
    minute. -/
theorem enforceSchedules_expiring (lastWarningTime : DateTime) {r : Int}
    (hschedule : c.currentSchedule = some schedule) (henabled : schedule.enabled = true)
    (hr : getTimeRemaining schedule c.now = some r) (hlt : r < warningThreshold) :
    (enforceSchedules lastWarningTime c).1.accessTimeExpiring = true ∨
      c.utcNow.since lastWarningTime ≤ oneMinute := by
  by_cases hrecent : c.utcNow.since lastWarningTime > oneMinute
  · refine Or.inl ?_
    unfold enforceSchedules
    simp only [hschedule, henabled, hr, not_true, if_false, if_pos (And.intro hlt hrecent)]
  · exact Or.inr (not_lt.mp hrecent)

/-- The last warning is in the history, and the history is in the order of the clock. -/
structure Inv (s : State) : Prop where
  warning : s.lastWarningTime = .minValue ∨
    ∃ p ∈ s.history, p.2.accessTimeExpiring = true ∧ p.1.utcNow = s.lastWarningTime
  ordered : ∀ latest ∈ s.history.head?, ∀ p ∈ s.history, p.1.utcNow.ticks ≤ latest.1.utcNow.ticks
  announced : ∀ latest ∈ s.history.head?, ∀ schedule, latest.1.currentSchedule = some schedule →
    schedule.enabled = true → ∀ r, getTimeRemaining schedule latest.1.now = some r →
      r < warningThreshold → Announced s.history latest.1

/-- A warning that is less than a minute old is one of the loop: the clock is far from the year 1,
    which `lastWarningTime` begins with. -/
theorem Inv.recent (h : Inv s) (c : Check)
    (hrecent : c.utcNow.since s.lastWarningTime ≤ oneMinute) :
    ∃ p ∈ s.history, p.2.accessTimeExpiring = true ∧ p.1.utcNow = s.lastWarningTime := by
  rcases h.warning with hnone | hwarned
  · have hepoch := c.sinceEpoch
    rw [hnone] at hrecent
    have hrecent : (c.utcNow.ticks : Int) - 0 ≤ 60 * 10000000 := hrecent
    unfold fileTimeEpoch at hepoch
    omega
  · exact hwarned

theorem inv_step (h : Inv s) (hsteady : Steady s c) (hs : step s c = some s') : Inv s' := by
  have hle : ∀ p ∈ s.history, p.1.utcNow.ticks ≤ c.utcNow.ticks := by
    intro p hp
    obtain ⟨latest, hlatest⟩ : ∃ latest, s.history.head? = some latest := by
      cases hhistory : s.history with
      | nil =>
        rw [hhistory] at hp
        cases hp
      | cons latest _ => exact ⟨latest, rfl⟩
    exact le_trans (h.ordered latest hlatest p hp) (hsteady latest hlatest).le
  cases hs
  constructor
  · rcases enforceSchedules_cases s.lastWarningTime c with hsame | ⟨hraised, hnow⟩
    · rcases h.warning with hnone | ⟨p, hp, hraised, htime⟩
      · exact Or.inl (hsame.trans hnone)
      · exact Or.inr ⟨p, List.mem_cons_of_mem _ hp, hraised, htime.trans hsame.symm⟩
    · exact Or.inr ⟨_, List.mem_cons_self, hraised, hnow.symm⟩
  · rintro _ ⟨⟩ p hp
    rcases List.mem_cons.mp hp with rfl | hp
    · exact le_rfl
    · exact hle p hp
  · rintro _ ⟨⟩ schedule hschedule henabled r hr hlt
    rcases enforceSchedules_expiring s.lastWarningTime hschedule henabled hr hlt with
      hraised | hrecent
    · refine ⟨_, List.mem_cons_self, hraised, le_rfl, ?_⟩
      show (c.utcNow.ticks : Int) - c.utcNow.ticks ≤ oneMinute
      rw [Int.sub_self]
      decide
    · obtain ⟨p, hp, hraised, htime⟩ := h.recent c hrecent
      refine ⟨p, List.mem_cons_of_mem _ hp, hraised, hle p hp, ?_⟩
      rw [htime]
      exact hrecent

theorem inv_initial : Inv {} where
  warning := Or.inl rfl
  ordered := by simp
  announced := by simp

theorem warned_step (h : Inv s) (hsteady : Steady s c) (hs : step s c = some s') :
    Warned s c s' := by
  intro schedule hschedule henabled hpattern outcome hhead haction p hp hsame hallowed
  cases hs
  obtain rfl : (enforceSchedules s.lastWarningTime c).1 = outcome :=
    congrArg Prod.snd (Option.some.inj hhead)
  have hdenied := denied_of_action hschedule haction
  have hfollows := hsteady p hp
  have hsoon := hfollows.soon
  have hclock := hfollows.steady
  have hle := hfollows.le
  rw [← hclock] at hsoon
  have hnow : p.1.now.ticks ≤ c.now.ticks := by
    unfold DateTime.since at hclock
    omega
  obtain ⟨r, hr, hlt⟩ := getTimeRemaining_lt henabled hpattern hallowed hdenied hnow hsoon
  exact h.announced p hp schedule hsame henabled r hr hlt

/-- **No cut-off without a warning**, in every run of the loop whose clock goes on by less than five
    minutes from check to check. -/
theorem warned_run (checks : List Check)
    (hsteady : EachStep step (fun s c _ => Steady s c) {} checks) :
    EachStep step Warned {} checks :=
  eachStep_of_guard (fun _ _ _ => inv_step) (fun _ _ _ => warned_step) inv_initial hsteady

end Loop

/-! ## Noon on a Monday -/

def checkAt (now : DateTime) (h : fileTimeEpoch ≤ now.ticks) : Check where
  utcNow := now
  now := now
  sinceEpoch := h
  currentSchedule := some (monday [("09:00", "12:00")])

/-- Access ends at noon: the check two minutes before warns, the one at noon logs the user off. -/
def lastChecks : List Check := [checkAt beforeNoon (by decide), checkAt noon (by decide)]

theorem warned_lastChecks :
    @EachStep State Check (@step invariant) (@Warned invariant) {} lastChecks :=
  @warned_run invariant lastChecks (by
    intro s' hs
    cases hs
    refine ⟨by simp [Steady], ?_⟩
    intro s'' hs'
    cases hs'
    refine ⟨?_, trivial⟩
    rintro _ ⟨⟩
    exact ⟨by decide, by decide, by decide⟩)

example : (@run State Check (@step invariant) {} lastChecks).map (·.history.map Prod.snd) =
    some [{ action := some .logoff }, { accessTimeExpiring := true }] := by decide +kernel

end Service.ExpiryWarning
