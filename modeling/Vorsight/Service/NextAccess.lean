/-
  WHEN ACCESS BEGINS AGAIN (`GetTimeUntilAccess`).

  The loop goes over eight days, today and its weekday next week included, and over the windows of
  each in the order of their starts.

  1. `searchDays_spec`: it finds the first start after now, of the windows of its days, unless the
     calendar ends before.

  2. **Why that is when access begins** (`exists_start`): while access is denied, no window that has
     begun goes on, so that a later access comes from a later start; and each weekday comes again
     within the loop.

  3. `until_exact` puts these together, for windows that begin within their day.
-/
import Mathlib.Data.List.Sort
import Vorsight.Service.AccessControl

namespace Service.NextAccess

open Time Vorsight Intervals AccessControl

section Schedules

variable [TimeSpanParser]

/-! ## The loop -/

/-- The windows of a day that is ahead; `none` is an exception. -/
def nextStart (now targetDate : DateTime) : List Span → Option (Option Int)
  | [] => some none
  | w :: windows => do
    let startTime ← targetDate.add w.start
    if now.ticks < startTime.ticks then some (some (startTime.since now))
    else nextStart now targetDate windows

/-- The loop over the days. -/
def searchDays (settings : AccessControlSettings) (now : DateTime) : List Nat → Option (Option Int)
  | [] => some none
  | i :: days => do
    let targetDate ← now.date.addDays i
    let windows := (windowsOf settings targetDate.dayOfWeek).insertionSort (·.start ≤ ·.start)
    match ← nextStart now targetDate windows with
    | some d => some (some d)
    | none => searchDays settings now days

/-- `GetTimeUntilAccess`; an exception is caught. -/
def getTimeUntilAccess (settings : AccessControlSettings) (now : DateTime) : Option Int :=
  if ¬ settings.enabled then none
  else if isAccessAllowedNow settings now then none
  else if settings.schedule = [] then none
  else (searchDays settings now (List.range 8)).getD none

variable {settings : AccessControlSettings} {now t : DateTime} {day : SystemDay}

/-! ## The next start of a window -/

/-- The windows are readable, begin within their day and end after they begin. -/
def BeginsWithinDay (settings : AccessControlSettings) : Prop :=
  ∀ w ∈ settings.schedule, ∃ start stop, tryParse w.startTime = some start ∧
    tryParse w.endTime = some stop ∧ 0 ≤ start ∧ start < ticksPerDay ∧ start < stop

/-- The weekday of a number of days since 1 January 0001. -/
def weekday (days : Nat) : SystemDay := .ofNumber (days + 1)

/-- When a window of a day begins, in ticks. -/
def startTicks (days : Nat) (w : Span) : Int := days * ticksPerDay + w.start

omit [TimeSpanParser] in
/-- Every weekday comes within the next seven days. -/
theorem exists_weekday (days : Nat) (day : SystemDay) :
    ∃ j, 1 ≤ j ∧ j ≤ 7 ∧ weekday (days + j) = day := by
  have hlt : day.index < 7 := by cases day <;> decide
  unfold weekday
  by_cases h : (days + 1) % 7 < day.index
  · exact ⟨day.index - (days + 1) % 7, by omega, by omega, SystemDay.ofNumber_eq_iff.mpr (by omega)⟩
  · exact ⟨day.index + 7 - (days + 1) % 7, by omega, by omega,
      SystemDay.ofNumber_eq_iff.mpr (by omega)⟩

theorem start_within {w : Span} (hwindows : BeginsWithinDay settings)
    (hw : w ∈ windowsOf settings day) : 0 ≤ w.start ∧ w.start < ticksPerDay ∧ w.start < w.stop ∧
      (w.start, w.stop) ∈ intervalsOf settings day := by
  obtain ⟨window, hwindow, rfl⟩ := List.mem_map.mp hw
  obtain ⟨hwindow, hday⟩ := List.mem_filter.mp hwindow
  obtain ⟨start, stop, hstart, hstop, h0, hlt, horder⟩ := hwindows window hwindow
  show 0 ≤ parseTime window.startTime ∧ parseTime window.startTime < ticksPerDay ∧
    parseTime window.startTime < parseTime window.endTime ∧
      (parseTime window.startTime, parseTime window.endTime) ∈ _
  rw [parseTime_of_some hstart, parseTime_of_some hstop]
  exact ⟨h0, hlt, horder, mem_intervalsOf.mpr ⟨window, hwindow, by simpa using hday, hstart, hstop⟩⟩

omit [TimeSpanParser] in
/-- The midnight of a day that is ahead. -/
theorem addDays_eq_some {targetDate : DateTime} {i : Nat} :
    now.date.addDays i = some targetDate ↔ targetDate.ticks = (now.day + i) * ticksPerDay := by
  unfold DateTime.addDays
  rw [DateTime.add_eq_some, Nat.add_mul]
  show _ = ((now.day * ticksPerDay : Nat) : Int) + _ ↔ _
  omega

omit [TimeSpanParser] in
/-- A window of an earlier day begins earlier. -/
theorem startTicks_lt {m n : Nat} {w w' : Span} (hlt : m < n) (hw : w.start < ticksPerDay)
    (hw' : 0 ≤ w'.start) : startTicks m w < startTicks n w' := by
  unfold startTicks
  unfold ticksPerDay at *
  omega

omit [TimeSpanParser] in
/-- Behind the end of the calendar no window begins in it. -/
theorem startTicks_over {i j : Nat} {w : Span} (hnone : now.date.addDays i = none) (hij : i ≤ j)
    (hw : 0 ≤ w.start) : maxTicks < startTicks (now.day + j) w := by
  have hover : maxTicks < (now.day + i) * ticksPerDay := by
    by_contra hle
    have hsome := addDays_eq_some.mpr
      (rfl : (DateTime.mk ((now.day + i) * ticksPerDay) (Nat.le_of_not_lt hle)).ticks = _)
    rw [hnone] at hsome
    cases hsome
  unfold startTicks
  unfold ticksPerDay at *
  omega

omit [TimeSpanParser] in
/-- Of the windows of a day, in the order of their starts, the first one after now is found. -/
theorem nextStart_spec {targetDate : DateTime} {days : Nat}
    (htarget : targetDate.ticks = days * ticksPerDay) :
    ∀ {windows : List Span}, (∀ w ∈ windows, 0 ≤ w.start ∧ w.start < ticksPerDay) →
      windows.Pairwise (fun w w' => w.start ≤ w'.start) →
        (nextStart now targetDate windows = some none ∧
          ∀ w ∈ windows, startTicks days w ≤ now.ticks) ∨
        ∃ w ∈ windows, now.ticks < startTicks days w ∧ startTicks days w ≤ maxTicks ∧
          nextStart now targetDate windows = some (some (startTicks days w - now.ticks)) ∧
          ∀ w' ∈ windows, now.ticks < startTicks days w' → startTicks days w ≤ startTicks days w'
  | [], _, _ => Or.inl ⟨rfl, fun w hw => absurd hw List.not_mem_nil⟩
  | w :: windows, hwithin, hsorted => by
    obtain ⟨hfirst, hsorted⟩ := List.pairwise_cons.mp hsorted
    obtain ⟨h0, hlt⟩ := hwithin w List.mem_cons_self
    obtain ⟨startTime, hadd, hstart⟩ := DateTime.exists_add_midnight htarget h0 hlt
    have hstart : (startTime.ticks : Int) = startTicks days w := hstart
    have hmax := startTime.inRange
    rw [nextStart, hadd, Option.bind_eq_bind, Option.bind_some]
    by_cases hlater : now.ticks < startTime.ticks
    · right
      rw [if_pos hlater]
      refine ⟨w, List.mem_cons_self, by omega, by omega, ?_, ?_⟩
      · rw [DateTime.since, hstart]
      · intro w' hw' _
        rcases List.mem_cons.mp hw' with rfl | hw'
        · exact Int.le_refl _
        · have hle := hfirst w' hw'
          unfold startTicks
          omega
    · rw [if_neg hlater]
      rcases nextStart_spec htarget (fun v hv => hwithin v (List.mem_cons_of_mem w hv)) hsorted with
        ⟨hnone, hpast⟩ | ⟨v, hv, hvlater, hvmax, hsome, hmin⟩
      · left
        refine ⟨hnone, fun v hv => ?_⟩
        rcases List.mem_cons.mp hv with rfl | hv
        · omega
        · exact hpast v hv
      · right
        refine ⟨v, List.mem_cons_of_mem w hv, hvlater, hvmax, hsome, ?_⟩
        intro w' hw' hlater'
        rcases List.mem_cons.mp hw' with rfl | hw'
        · omega
        · exact hmin w' hw' hlater'

omit [TimeSpanParser] in
/-- The windows of a day, in the order of their starts. -/
theorem sorted_windows (windows : List Span) :
    (windows.insertionSort (·.start ≤ ·.start)).Pairwise fun w w' => w.start ≤ w'.start := by
  have : Std.Total fun w w' : Span => w.start ≤ w'.start := ⟨fun w w' => Int.le_total _ _⟩
  have : IsTrans Span fun w w' => w.start ≤ w'.start := ⟨fun _ _ _ => Int.le_trans⟩
  exact List.pairwise_insertionSort _ _

/-- One day of the loop: its first start after now, or on to the next day. -/
theorem searchDays_cons {i : Nat} {targetDate : DateTime} (hwindows : BeginsWithinDay settings)
    (htarget : now.date.addDays i = some targetDate) (days : List Nat) :
    (searchDays settings now (i :: days) = searchDays settings now days ∧
      ∀ w ∈ windowsOf settings (weekday (now.day + i)),
        startTicks (now.day + i) w ≤ now.ticks) ∨
    ∃ w ∈ windowsOf settings (weekday (now.day + i)), now.ticks < startTicks (now.day + i) w ∧
      startTicks (now.day + i) w ≤ maxTicks ∧ searchDays settings now (i :: days) =
        some (some (startTicks (now.day + i) w - now.ticks)) ∧
      ∀ w' ∈ windowsOf settings (weekday (now.day + i)), now.ticks < startTicks (now.day + i) w' →
        startTicks (now.day + i) w ≤ startTicks (now.day + i) w' := by
  have hticks := addDays_eq_some.mp htarget
  have hweekday : targetDate.dayOfWeek = weekday (now.day + i) := by
    unfold DateTime.dayOfWeek weekday
    rw [DateTime.day_of_midnight hticks]
  have hmem : ∀ w, w ∈ (windowsOf settings (weekday (now.day + i))).insertionSort
      (·.start ≤ ·.start) ↔ w ∈ windowsOf settings (weekday (now.day + i)) :=
    fun w => List.mem_insertionSort _
  have hwithin : ∀ w ∈ (windowsOf settings (weekday (now.day + i))).insertionSort
      (·.start ≤ ·.start), 0 ≤ w.start ∧ w.start < ticksPerDay := by
    intro w hw
    obtain ⟨h0, hlt, -⟩ := start_within hwindows ((hmem w).mp hw)
    exact ⟨h0, hlt⟩
  have hspec := @nextStart_spec now _ _ hticks _ hwithin (sorted_windows _)
  simp only [hmem] at hspec
  rw [searchDays, htarget, Option.bind_eq_bind, Option.bind_some, hweekday]
  show ((nextStart now targetDate _).bind _ = _ ∧ _) ∨ ∃ w ∈ _, _ ∧ _ ∧
    (nextStart now targetDate _).bind _ = _ ∧ _
  rcases hspec with ⟨hnone, hpast⟩ | ⟨w, hw, hlater, hmax, hsome, hmin⟩
  · left
    rw [hnone]
    exact ⟨rfl, hpast⟩
  · right
    rw [hsome]
    exact ⟨w, hw, hlater, hmax, rfl, hmin⟩

/-- **The loop finds the first start after now**, of the windows of its days. -/
theorem searchDays_spec (hwindows : BeginsWithinDay settings) :
    ∀ {days : List Nat}, days.Pairwise (· < ·) →
      ((searchDays settings now days).getD none = none ∧
        ∀ j ∈ days, ∀ w ∈ windowsOf settings (weekday (now.day + j)),
          startTicks (now.day + j) w ≤ now.ticks ∨ maxTicks < startTicks (now.day + j) w) ∨
      ∃ i ∈ days, ∃ w ∈ windowsOf settings (weekday (now.day + i)),
        now.ticks < startTicks (now.day + i) w ∧ startTicks (now.day + i) w ≤ maxTicks ∧
        (searchDays settings now days).getD none =
          some (startTicks (now.day + i) w - now.ticks) ∧
        ∀ j ∈ days, ∀ w' ∈ windowsOf settings (weekday (now.day + j)),
          now.ticks < startTicks (now.day + j) w' →
            startTicks (now.day + i) w ≤ startTicks (now.day + j) w'
  | [], _ => Or.inl ⟨rfl, fun j hj => absurd hj List.not_mem_nil⟩
  | i :: days, hsorted => by
    obtain ⟨hafter, hsorted⟩ := List.pairwise_cons.mp hsorted
    cases htarget : now.date.addDays i with
    | none =>
      -- the exception ends the loop, and no window of a later day is in the calendar
      left
      refine ⟨by rw [searchDays, htarget]; rfl, fun j hj w hw => Or.inr ?_⟩
      refine startTicks_over htarget ?_ (start_within hwindows hw).1
      rcases List.mem_cons.mp hj with rfl | hj
      · exact Nat.le_refl _
      · exact Nat.le_of_lt (hafter j hj)
    | some targetDate =>
      rcases searchDays_cons hwindows htarget days with ⟨hnext, hpast⟩ |
        ⟨w, hw, hlater, hmax, hfound, hmin⟩
      · rw [hnext]
        rcases searchDays_spec hwindows hsorted with ⟨hrest, hall⟩ |
          ⟨k, hk, v, hv, hvlater, hvmax, hrest, hmin⟩
        · left
          refine ⟨hrest, fun j hj w hw => ?_⟩
          rcases List.mem_cons.mp hj with rfl | hj
          · exact Or.inl (hpast w hw)
          · exact hall j hj w hw
        · right
          refine ⟨k, List.mem_cons_of_mem i hk, v, hv, hvlater, hvmax, hrest, ?_⟩
          intro j hj w hw hwlater
          rcases List.mem_cons.mp hj with rfl | hj
          · have hle := hpast w hw
            omega
          · exact hmin j hj w hw hwlater
      · right
        rw [hfound]
        refine ⟨i, List.mem_cons_self, w, hw, hlater, hmax, rfl, ?_⟩
        intro j hj v hv hvlater
        rcases List.mem_cons.mp hj with rfl | hj
        · exact hmin v hv hvlater
        · have hday : now.day + i < now.day + j := Nat.add_lt_add_left (hafter j hj) _
          exact Int.le_of_lt (startTicks_lt hday (start_within hwindows hw).2.1
            (start_within hwindows hv).1)

/-! ## The next access -/

/-- A later access comes from a window that begins after now, on one of the eight days. -/
theorem exists_start (henabled : settings.enabled = true) (hwindows : BeginsWithinDay settings)
    (hdenied : isAccessAllowedNow settings now = false) (hle : now.ticks ≤ t.ticks)
    (hallowed : isAccessAllowedNow settings t = true) :
    ∃ j ∈ List.range 8, ∃ w ∈ windowsOf settings (weekday (now.day + j)),
      now.ticks < startTicks (now.day + j) w ∧ startTicks (now.day + j) w ≤ t.ticks := by
  obtain ⟨v, hv, hstart, hstop⟩ := (isAccessAllowedNow_iff henabled).mp hallowed
  have hw := mem_windowsOf hv
  obtain ⟨h0, -, -, -⟩ := start_within hwindows hw
  have h0 : 0 ≤ v.1 := h0
  have ht := t.day_timeOfDay
  have hnow := now.day_timeOfDay
  have hnowDay := now.timeOfDay_lt
  have htime0 := t.timeOfDay_nonneg
  have hday : now.day ≤ t.day := Nat.div_le_div_right hle
  have hlater : now.ticks < t.day * ticksPerDay + v.1 := by
    by_contra hpast
    -- a window that has begun by now, and goes on later, goes on now
    have hsame : t.day = now.day := by
      have htimeDay := t.timeOfDay_lt
      unfold ticksPerDay at *
      omega
    rw [hsame] at ht hpast
    have hcovered : Covered (intervalsOf settings now.dayOfWeek) now.timeOfDay := by
      rw [← DateTime.dayOfWeek_of_day hsame]
      exact ⟨v, hv, by omega, by omega⟩
    rw [(isAccessAllowedNow_iff henabled).mpr hcovered] at hdenied
    cases hdenied
  obtain ⟨k, hk⟩ := Nat.exists_eq_add_of_le hday
  by_cases hweek : k < 8
  · refine ⟨k, List.mem_range.mpr hweek, ⟨v.1, v.2⟩, ?_, ?_, ?_⟩
    · rw [← hk]
      exact hw
    · rw [← hk]
      exact hlater
    · rw [← hk]
      unfold startTicks
      show (t.day : Int) * ticksPerDay + v.1 ≤ t.ticks
      omega
  · -- more than a week ahead: the same weekday comes within the week
    obtain ⟨j, hj1, hj7, hweekday⟩ := exists_weekday now.day t.dayOfWeek
    refine ⟨j, List.mem_range.mpr (by omega), ⟨v.1, v.2⟩, ?_, ?_, ?_⟩
    · rw [hweekday]
      exact hw
    · show (now.ticks : Int) < (now.day + j : Nat) * ticksPerDay + v.1
      unfold ticksPerDay at *
      omega
    · show ((now.day + j : Nat) : Int) * ticksPerDay + v.1 ≤ t.ticks
      unfold ticksPerDay at *
      omega

/-- The first window of a schedule comes again within the week. -/
theorem exists_start_week (hwindows : BeginsWithinDay settings) (hne : settings.schedule ≠ [])
    (hweek : (now.day + 7) * ticksPerDay ≤ maxTicks) :
    ∃ j ∈ List.range 8, ∃ w ∈ windowsOf settings (weekday (now.day + j)),
      now.ticks < startTicks (now.day + j) w ∧ startTicks (now.day + j) w ≤ maxTicks := by
  obtain ⟨window, hwindow⟩ := List.exists_mem_of_ne_nil _ hne
  obtain ⟨j, hj1, hj7, hweekday⟩ := exists_weekday now.day (toSystemDay window.dayOfWeek)
  have hw : (⟨parseTime window.startTime, parseTime window.endTime⟩ : Span) ∈
      windowsOf settings (weekday (now.day + j)) := by
    rw [hweekday]
    exact List.mem_map.mpr ⟨window, List.mem_filter.mpr ⟨hwindow, by simp⟩, rfl⟩
  obtain ⟨h0, hlt, -, -⟩ := start_within hwindows hw
  have hnow := now.day_timeOfDay
  have hnowDay := now.timeOfDay_lt
  refine ⟨j, List.mem_range.mpr (by omega), _, hw, ?_, ?_⟩
  · unfold startTicks
    unfold ticksPerDay at *
    omega
  · unfold startTicks
    unfold ticksPerDay maxTicks at *
    omega

/-- A window of a day ahead opens when it begins. -/
theorem allowed_at_start {days : Nat} {w : Span} (henabled : settings.enabled = true)
    (hwindows : BeginsWithinDay settings) (hw : w ∈ windowsOf settings (weekday days))
    (ht : (t.ticks : Int) = startTicks days w) : isAccessAllowedNow settings t = true := by
  obtain ⟨h0, hlt, horder, hmem⟩ := start_within hwindows hw
  obtain ⟨hday, htime⟩ := DateTime.day_eq_of_ticks h0 hlt ht
  refine (isAccessAllowedNow_iff henabled).mpr ⟨(w.start, w.stop), ?_, ?_, ?_⟩
  · unfold DateTime.dayOfWeek
    rw [hday]
    exact hmem
  · exact Int.le_of_eq htime.symm
  · show t.timeOfDay < w.stop
    omega

theorem getTimeUntilAccess_eq (henabled : settings.enabled = true)
    (hdenied : isAccessAllowedNow settings now = false) : getTimeUntilAccess settings now =
      if settings.schedule = [] then none
      else (searchDays settings now (List.range 8)).getD none := by
  unfold getTimeUntilAccess
  rw [if_neg (by simp [henabled]), if_neg (by simp [hdenied])]

/-- What `GetTimeUntilAccess` finds is the first instant with access, and if it finds none there is
    none. -/
theorem getTimeUntilAccess_spec (henabled : settings.enabled = true)
    (hwindows : BeginsWithinDay settings) (hdenied : isAccessAllowedNow settings now = false) :
    (getTimeUntilAccess settings now = none ∧
      (∀ t : DateTime, now.ticks ≤ t.ticks → isAccessAllowedNow settings t = false) ∧
      ((now.day + 7) * ticksPerDay ≤ maxTicks → settings.schedule = [])) ∨
    ∃ d, getTimeUntilAccess settings now = some d ∧ 0 < d ∧ settings.schedule ≠ [] ∧
      ∃ t : DateTime, (t.ticks : Int) = now.ticks + d ∧ isAccessAllowedNow settings t = true ∧
        ∀ u : DateTime, now.ticks ≤ u.ticks → u.ticks < t.ticks →
          isAccessAllowedNow settings u = false := by
  rw [getTimeUntilAccess_eq henabled hdenied]
  by_cases hempty : settings.schedule = []
  · left
    rw [if_pos hempty]
    refine ⟨rfl, fun t _ => ?_, fun _ => hempty⟩
    unfold isAccessAllowedNow
    rw [hempty, List.any_nil, Bool.and_false]
  · rw [if_neg hempty]
    rcases searchDays_spec hwindows (List.pairwise_lt_range (n := 8)) with ⟨hnone, hall⟩ |
      ⟨i, hi, w, hw, hlater, hmax, hsome, hmin⟩
    · left
      refine ⟨hnone, fun t hle => ?_, fun hweek => ?_⟩
      · rw [Bool.eq_false_iff]
        intro hallowed
        obtain ⟨j, hj, w, hw, hwlater, hwt⟩ :=
          exists_start henabled hwindows hdenied hle hallowed
        have htmax := t.inRange
        rcases hall j hj w hw with hpast | hover <;> omega
      · exfalso
        obtain ⟨j, hj, w, hw, hwlater, hwmax⟩ := exists_start_week hwindows hempty hweek
        rcases hall j hj w hw with hpast | hover <;> omega
    · right
      obtain ⟨h0, hlt, -, -⟩ := start_within hwindows hw
      have hfits : (startTicks (now.day + i) w).toNat ≤ maxTicks := by omega
      have ht : (((startTicks (now.day + i) w).toNat : Nat) : Int) =
          startTicks (now.day + i) w := by omega
      refine ⟨_, hsome, by omega, hempty, ⟨(startTicks (now.day + i) w).toNat, hfits⟩, ?_, ?_, ?_⟩
      · show (((startTicks (now.day + i) w).toNat : Nat) : Int) = _
        omega
      · exact allowed_at_start henabled hwindows hw ht
      · intro u hle hult
        rw [Bool.eq_false_iff]
        intro hallowed
        have hult : u.ticks < (startTicks (now.day + i) w).toNat := hult
        obtain ⟨j, hj, w', hw', hwlater, hwu⟩ :=
          exists_start henabled hwindows hdenied hle hallowed
        have hfirst := hmin j hj w' hw' hwlater
        omega

/-- **The next access is found over the whole week.**  For windows that begin within their day,
    `null` says that access is never allowed again, which with a week of the calendar left is so for
    the empty schedule only; and a time that is returned ends in the first instant with access. -/
theorem until_exact (henabled : settings.enabled = true) (hwindows : BeginsWithinDay settings)
    (hdenied : isAccessAllowedNow settings now = false) :
    (getTimeUntilAccess settings now = none ↔
      ∀ t : DateTime, now.ticks ≤ t.ticks → isAccessAllowedNow settings t = false) ∧
    ((now.day + 7) * ticksPerDay ≤ maxTicks →
      (getTimeUntilAccess settings now = none ↔ settings.schedule = [])) ∧
    ∀ d, getTimeUntilAccess settings now = some d → 0 < d ∧
      ∃ t : DateTime, (t.ticks : Int) = now.ticks + d ∧ isAccessAllowedNow settings t = true ∧
        ∀ u : DateTime, now.ticks ≤ u.ticks → u.ticks < t.ticks →
          isAccessAllowedNow settings u = false := by
  rcases getTimeUntilAccess_spec henabled hwindows hdenied with ⟨hnone, hnever, hempty⟩ |
    ⟨d, hsome, hpos, hne, t, ht, hallowed, hfirst⟩
  · rw [hnone]
    refine ⟨iff_of_true rfl hnever, fun hweek => iff_of_true rfl (hempty hweek), ?_⟩
    intro d hd
    cases hd
  · rw [hsome]
    have hfound : some d ≠ none := fun h => by cases h
    refine ⟨iff_of_false hfound ?_, fun _ => iff_of_false hfound hne, ?_⟩
    · intro hnever
      have hdenied' := hnever t (by omega)
      rw [hallowed] at hdenied'
      cases hdenied'
    · intro d' hd'
      obtain rfl := Option.some.inj hd'
      exact ⟨hpos, t, ht, hallowed, hfirst⟩

end Schedules

/-! ## The week -/

/-- A window that is over by half past nine. -/
def early : List (String × String) := [("09:00", "09:15")]

/-- The only window was earlier on the day: it is found a week ahead. -/
theorem until_exact_week : @getTimeUntilAccess invariant (monday early) halfPastNine =
      some 6030000000000 ∧ ∃ t : DateTime, (t.ticks : Int) = halfPastNine.ticks + 6030000000000 ∧
        @isAccessAllowedNow invariant (monday early) t = true := by
  have hwindows : @BeginsWithinDay invariant (monday early) := by
    intro w hw
    rw [List.mem_singleton.mp hw]
    exact ⟨324000000000, 333000000000, by decide +kernel, by decide +kernel, by decide, by decide,
      by decide⟩
  have hsome : @getTimeUntilAccess invariant (monday early) halfPastNine =
      some 6030000000000 := by decide +kernel
  obtain ⟨-, t, ht, hallowed, -⟩ :=
    (@until_exact invariant _ halfPastNine rfl hwindows (by decide +kernel)).2.2 _ hsome
  exact ⟨hsome, t, ht, hallowed⟩

/-- The midnight after that Monday. -/
def tuesday : DateTime := ⟨638451936000000000, by decide⟩

/-- A window whose times lie behind the day. -/
def late : List (String × String) := [("1.00:00", "2.00:00")]

/-- It is announced for a time without access; and at the end of the calendar `null` is returned
    though there is a window. -/
theorem not_until_exact_late :
    (@tryParse invariant "1.00:00" = some 864000000000 ∧
      @tryParse invariant "2.00:00" = some 1728000000000 ∧
      @isAccessAllowedNow invariant (monday late) halfPastNine = false ∧
      @getTimeUntilAccess invariant (monday late) halfPastNine = some 522000000000 ∧
      ∀ t : DateTime, t.ticks = halfPastNine.ticks + 522000000000 →
        @isAccessAllowedNow invariant (monday late) t = false) ∧
    @isAccessAllowedNow invariant (monday early) ⟨maxTicks, by decide⟩ = false ∧
    @getTimeUntilAccess invariant (monday early) ⟨maxTicks, by decide⟩ = none := by
  refine ⟨⟨by decide +kernel, by decide +kernel, by decide +kernel, by decide +kernel, ?_⟩,
    by decide +kernel, by decide +kernel⟩
  rintro ⟨ticks, hinRange⟩ ht
  obtain rfl : ticks = 638451936000000000 := ht
  show @isAccessAllowedNow invariant (monday late) tuesday = false
  decide +kernel

end Service.NextAccess
