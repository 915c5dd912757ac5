/-
  ACCESS SCHEDULES (Vorsight.Infrastructure/Extensions/AccessControlExtensions.cs).

  Whether access is allowed and how long it lasts are two scans over the windows of a schedule.  The
  clock is read once for both.

  1. **The meaning** (`isAccessAllowedNow_iff`): on each weekday access is allowed at the times that
     the windows with two readable times cover.

  2. `GetTimeRemaining` goes by the first window that contains the time, an unreadable start being
     midnight.  It promises too much just when a gap comes before the end of that window
     (`neverOverpromises_iff`), and too little just when another window goes on there (`exact_iff`).

-/
import Vorsight.Library.Intervals
import Vorsight.Library.Time
import Vorsight.Settings

namespace Service.AccessControl

open Time Vorsight Intervals

/-! ## Texts of times -/

/-- The pattern `HH:mm`, the hour with one digit or two. -/
def IsHHmm (text : String) (hour minute : Nat) : Prop :=
  hour < 24 ∧ minute < 60 ∧
    (text = padded 2 hour ++ ":" ++ padded 2 minute ∨
      text = toString hour ++ ":" ++ padded 2 minute)

/-- `TimeSpan.TryParse`, in ticks; it depends on the culture of the machine. -/
class TimeSpanParser where
  tryParse : String → Option Int
  tryParse_hhmm : ∀ {text : String} {hour minute : Nat}, IsHHmm text hour minute →
    tryParse text = some ((hour * 60 + minute : Nat) * 60 * ticksPerSecond)

export TimeSpanParser (tryParse tryParse_hhmm)

section Schedules

variable [TimeSpanParser]

/-! ## The scans -/

def toSystemDay : DayOfWeek → SystemDay
  | .monday => .monday
  | .tuesday => .tuesday
  | .wednesday => .wednesday
  | .thursday => .thursday
  | .friday => .friday
  | .saturday => .saturday
  | .sunday => .sunday

/-- `IsAccessAllowedNow`. -/
def isAccessAllowedNow (settings : AccessControlSettings) (now : DateTime) : Bool :=
  settings.enabled && settings.schedule.any fun w =>
    toSystemDay w.dayOfWeek = now.dayOfWeek &&
      match tryParse w.startTime, tryParse w.endTime with
      | some start, some stop => start ≤ now.timeOfDay && now.timeOfDay < stop
      | _, _ => false

/-- `ParseTime`: midnight for what cannot be read. -/
def parseTime (t : String) : Int := (tryParse t).getD 0

/-- `new { Start, End }`. -/
structure Span where
  start : Int
  stop : Int
deriving DecidableEq, Repr

/-- The windows of a weekday. -/
def windowsOf (settings : AccessControlSettings) (day : SystemDay) : List Span :=
  (settings.schedule.filter fun w => toSystemDay w.dayOfWeek = day).map fun w =>
    ⟨parseTime w.startTime, parseTime w.endTime⟩

/-- The first window of the day that contains the time. -/
def currentWindow (settings : AccessControlSettings) (now : DateTime) : Option Span :=
  (windowsOf settings now.dayOfWeek).find? fun x =>
    x.start ≤ now.timeOfDay && now.timeOfDay < x.stop

/-- `GetTimeRemaining`. -/
def getTimeRemaining (settings : AccessControlSettings) (now : DateTime) : Option Int :=
  if ¬ settings.enabled then none
  else if ¬ isAccessAllowedNow settings now then none
  else (currentWindow settings now).map fun x => x.stop - now.timeOfDay

/-! ## What a schedule means -/

/-- The windows of a weekday with two readable times. -/
def intervalsOf (settings : AccessControlSettings) (day : SystemDay) : List (Int × Int) :=
  (settings.schedule.filter fun w => toSystemDay w.dayOfWeek = day).filterMap fun w => do
    let start ← tryParse w.startTime
    let stop ← tryParse w.endTime
    pure (start, stop)

variable {settings : AccessControlSettings} {now t : DateTime} {day : SystemDay}

theorem mem_intervalsOf {v : Int × Int} : v ∈ intervalsOf settings day ↔
    ∃ w ∈ settings.schedule, toSystemDay w.dayOfWeek = day ∧ tryParse w.startTime = some v.1 ∧
      tryParse w.endTime = some v.2 := by
  obtain ⟨start, stop⟩ := v
  simp only [intervalsOf, List.mem_filterMap, List.mem_filter, decide_eq_true_eq,
    Option.bind_eq_bind, Option.bind_eq_some_iff, Option.pure_def, Option.some.injEq,
    Prod.mk.injEq]
  constructor
  · rintro ⟨w, ⟨hw, hday⟩, start', hstart, stop', hstop, rfl, rfl⟩
    exact ⟨w, hw, hday, hstart, hstop⟩
  · rintro ⟨w, hw, hday, hstart, hstop⟩
    exact ⟨w, ⟨hw, hday⟩, start, hstart, stop, hstop, rfl, rfl⟩

/-- **Access is allowed where the day's windows are.** -/
theorem isAccessAllowedNow_iff (henabled : settings.enabled = true) :
    isAccessAllowedNow settings now = true ↔
      Covered (intervalsOf settings now.dayOfWeek) now.timeOfDay := by
  unfold isAccessAllowedNow Covered
  rw [henabled, Bool.true_and, List.any_eq_true]
  constructor
  · rintro ⟨w, hw, hmatch⟩
    obtain ⟨hday, hmatch⟩ := (Bool.and_eq_true _ _).mp hmatch
    split at hmatch
    · rename_i start stop hstart hstop
      simp only [Bool.and_eq_true, decide_eq_true_eq] at hmatch hday
      exact ⟨(start, stop), mem_intervalsOf.mpr ⟨w, hw, hday, hstart, hstop⟩, hmatch⟩
    · cases hmatch
  · rintro ⟨v, hv, hstart', hstop'⟩
    obtain ⟨w, hw, hday, hstart, hstop⟩ := mem_intervalsOf.mp hv
    refine ⟨w, hw, ?_⟩
    rw [hstart, hstop]
    simp [hday, hstart', hstop']

theorem parseTime_of_some {t : String} {ticks : Int} (h : tryParse t = some ticks) :
    parseTime t = ticks := by
  rw [parseTime, h]
  rfl

/-- The readable windows are among those that are looked at. -/
theorem mem_windowsOf {v : Int × Int} (hv : v ∈ intervalsOf settings day) :
    (⟨v.1, v.2⟩ : Span) ∈ windowsOf settings day := by
  obtain ⟨w, hw, hday, hstart, hstop⟩ := mem_intervalsOf.mp hv
  refine List.mem_map.mpr ⟨w, List.mem_filter.mpr ⟨hw, by simpa using hday⟩, ?_⟩
  rw [parseTime_of_some hstart, parseTime_of_some hstop]

/-! ## The time that remains -/

/-- The schedule's first window of the day that contains the time, a time that cannot be read being
    midnight. -/
def FirstContaining (settings : AccessControlSettings) (now : DateTime) (x : Span) : Prop :=
  ∃ before later, windowsOf settings now.dayOfWeek = before ++ x :: later ∧
    (x.start ≤ now.timeOfDay ∧ now.timeOfDay < x.stop) ∧
    ∀ y ∈ before, ¬ (y.start ≤ now.timeOfDay ∧ now.timeOfDay < y.stop)

theorem currentWindow_eq_some {x : Span} :
    currentWindow settings now = some x ↔ FirstContaining settings now x := by
  unfold currentWindow FirstContaining
  rw [List.find?_eq_some_iff_append]
  simp only [Bool.and_eq_true, decide_eq_true_eq, Bool.not_eq_true', Bool.and_eq_false_iff,
    decide_eq_false_iff_not, not_and_or]
  constructor
  · rintro ⟨hcontains, before, later, hwindows, hbefore⟩
    exact ⟨before, later, hwindows, hcontains, hbefore⟩
  · rintro ⟨before, later, hwindows, hcontains, hbefore⟩
    exact ⟨hcontains, before, later, hwindows, hbefore⟩

theorem currentWindow_contains {x : Span} (h : currentWindow settings now = some x) :
    x.start ≤ now.timeOfDay ∧ now.timeOfDay < x.stop := by
  have hfound := List.find?_some h
  simpa using hfound

/-- While access is allowed some window contains the time. -/
theorem currentWindow_isSome (henabled : settings.enabled = true)
    (hallowed : isAccessAllowedNow settings now = true) :
    ∃ x, currentWindow settings now = some x := by
  obtain ⟨v, hv, hstart, hstop⟩ := (isAccessAllowedNow_iff henabled).mp hallowed
  refine Option.isSome_iff_exists.mp (List.find?_isSome.mpr ⟨_, mem_windowsOf hv, ?_⟩)
  simp [hstart, hstop]

/-- `GetTimeRemaining` while access is allowed, and while it is not. -/
theorem getTimeRemaining_eq_some {r : Int} (henabled : settings.enabled = true) :
    getTimeRemaining settings now = some r ↔ isAccessAllowedNow settings now = true ∧
      ∃ x, currentWindow settings now = some x ∧ r = x.stop - now.timeOfDay := by
  unfold getTimeRemaining
  rw [if_neg (by simp [henabled])]
  by_cases hallowed : isAccessAllowedNow settings now = true
  · rw [if_neg (by simp [hallowed]), Option.map_eq_some_iff]
    constructor
    · rintro ⟨x, hx, rfl⟩
      exact ⟨hallowed, x, hx, rfl⟩
    · rintro ⟨-, x, hx, rfl⟩
      exact ⟨x, hx, rfl⟩
  · rw [if_pos hallowed]
    constructor
    · intro h
      cases h
    · rintro ⟨h, -⟩
      exact absurd h hallowed

/-- What is promised holds: there is a time while access is allowed, and it is allowed so long. -/
def NeverOverpromises (settings : AccessControlSettings) (now : DateTime) : Prop :=
  ((getTimeRemaining settings now).isSome = true ↔ isAccessAllowedNow settings now = true) ∧
  ∀ r, getTimeRemaining settings now = some r → 0 < r ∧
    ∀ t : DateTime, now.ticks ≤ t.ticks → (t.ticks : Int) < now.ticks + r → t.day = now.day →
      isAccessAllowedNow settings t = true

/-- Where a readable window ends before `stop` on the day, another one goes on. -/
def NoGap (settings : AccessControlSettings) (now : DateTime) (stop : Int) : Prop :=
  ∀ v ∈ intervalsOf settings now.dayOfWeek, now.timeOfDay < v.2 → v.2 < stop →
    v.2 < ticksPerDay → Covered (intervalsOf settings now.dayOfWeek) v.2

/-- The stretch to `stop` is allowed just when it has no gap. -/
theorem allowed_until_iff (henabled : settings.enabled = true)
    (hallowed : isAccessAllowedNow settings now = true) (stop : Int) :
    (∀ t : DateTime, now.ticks ≤ t.ticks → (t.ticks : Int) < now.ticks + (stop - now.timeOfDay) →
      t.day = now.day → isAccessAllowedNow settings t = true) ↔ NoGap settings now stop := by
  have hcovered := (isAccessAllowedNow_iff henabled).mp hallowed
  have hgap := @covered_Ico_iff _ _ _ _ (min stop ticksPerDay) hcovered
  have hnow := now.day_timeOfDay
  calc (∀ t : DateTime, now.ticks ≤ t.ticks → (t.ticks : Int) < now.ticks + (stop - now.timeOfDay) →
        t.day = now.day → isAccessAllowedNow settings t = true)
      ↔ ∀ x, now.timeOfDay ≤ x → x < min stop ticksPerDay →
          Covered (intervalsOf settings now.dayOfWeek) x := by
        constructor
        · intro h x hx hstop
          have hx0 : 0 ≤ x := le_trans now.timeOfDay_nonneg hx
          obtain ⟨hxstop, hxday⟩ := lt_min_iff.mp hstop
          obtain ⟨t, hday, htime⟩ := now.exists_timeOfDay hx0 hxday
          have ht := t.day_timeOfDay
          rw [hday, htime] at ht
          have hcov := (isAccessAllowedNow_iff henabled).mp (h t (by omega) (by omega) hday)
          rwa [DateTime.dayOfWeek_of_day hday, htime] at hcov
        · intro h t hle hlt hday
          have ht := t.day_timeOfDay
          have htday := t.timeOfDay_lt
          rw [hday] at ht
          have hcov := h t.timeOfDay (by omega) (lt_min_iff.mpr ⟨by omega, htday⟩)
          rw [← DateTime.dayOfWeek_of_day hday] at hcov
          exact (isAccessAllowedNow_iff henabled).mpr hcov
    _ ↔ _ := hgap
    _ ↔ NoGap settings now stop := by
        constructor
        · intro h v hv hlt hstop hday
          exact h v hv hlt (lt_min_iff.mpr ⟨hstop, hday⟩)
        · intro h v hv hlt hmin
          exact h v hv hlt (lt_min_iff.mp hmin).1 (lt_min_iff.mp hmin).2

/-- A readable window that has begun has no gap up to its end. -/
theorem noGap_of_mem {v : Int × Int} (hv : v ∈ intervalsOf settings now.dayOfWeek)
    (hstart : v.1 ≤ now.timeOfDay) : NoGap settings now v.2 :=
  fun _ _ hlater hstop _ => ⟨v, hv, le_trans hstart (le_of_lt hlater), hstop⟩

/-- **When nothing is overpromised**: where a readable window ends between now and the end of the
    first window that contains now, another readable one goes on. -/
theorem neverOverpromises_iff (henabled : settings.enabled = true) :
    NeverOverpromises settings now ↔ (isAccessAllowedNow settings now = true →
      ∀ x, FirstContaining settings now x → NoGap settings now x.stop) := by
  simp only [← currentWindow_eq_some]
  constructor
  · rintro ⟨-, h⟩ hallowed x hx
    have hr := (getTimeRemaining_eq_some henabled).mpr ⟨hallowed, x, hx, rfl⟩
    exact (allowed_until_iff henabled hallowed x.stop).mp (h _ hr).2
  · intro h
    constructor
    · constructor
      · intro hsome
        obtain ⟨r, hr⟩ := Option.isSome_iff_exists.mp hsome
        exact ((getTimeRemaining_eq_some henabled).mp hr).1
      · intro hallowed
        obtain ⟨x, hx⟩ := currentWindow_isSome henabled hallowed
        exact Option.isSome_iff_exists.mpr
          ⟨_, (getTimeRemaining_eq_some henabled).mpr ⟨hallowed, x, hx, rfl⟩⟩
    · intro r hr
      obtain ⟨hallowed, x, hx, rfl⟩ := (getTimeRemaining_eq_some henabled).mp hr
      have hcontains := currentWindow_contains hx
      exact ⟨by omega, (allowed_until_iff henabled hallowed x.stop).mpr (h hallowed x hx)⟩

/-! ## The end of access -/

/-- The first instant later on the day at which access is denied. -/
structure ExpiresAt (settings : AccessControlSettings) (now t : DateTime) : Prop where
  later : now.ticks < t.ticks
  sameDay : t.day = now.day
  denied : isAccessAllowedNow settings t = false
  first : ∀ u : DateTime, now.ticks ≤ u.ticks → u.ticks < t.ticks →
    isAccessAllowedNow settings u = true

/-- Access expires when it is said to. -/
def Exact (settings : AccessControlSettings) (now : DateTime) : Prop :=
  ∃ r t, getTimeRemaining settings now = some r ∧ (t.ticks : Int) = now.ticks + r ∧
    ExpiresAt settings now t

/-- `warningThreshold` of `EnforceSchedulesAsync`: five minutes. -/
def warningThreshold : Int := 300 * ticksPerSecond

/-- When `EnforceSchedulesAsync` warns, at most once a minute. -/
def expiresSoon (settings : AccessControlSettings) (now : DateTime) : Bool :=
  match getTimeRemaining settings now with
  | some timeRemaining => timeRemaining < warningThreshold
  | none => false

/-- The pattern of the settings' schema. -/
def MatchesPattern (settings : AccessControlSettings) : Prop :=
  ∀ w ∈ settings.schedule, (∃ hour minute, IsHHmm w.startTime hour minute) ∧
    ∃ hour minute, IsHHmm w.endTime hour minute

theorem tryParse_within {text : String} {hour minute : Nat} (h : IsHHmm text hour minute) :
    ∃ ticks, tryParse text = some ticks ∧ 0 ≤ ticks ∧ ticks < ticksPerDay := by
  refine ⟨_, tryParse_hhmm h, ?_⟩
  obtain ⟨hhour, hminute, -⟩ := h
  unfold ticksPerSecond ticksPerDay
  omega

theorem intervalsOf_within (hpattern : MatchesPattern settings) {v : Int × Int}
    (hv : v ∈ intervalsOf settings day) : 0 ≤ v.1 ∧ v.2 < ticksPerDay := by
  obtain ⟨w, hw, -, hstart, hstop⟩ := mem_intervalsOf.mp hv
  obtain ⟨⟨hour, minute, hstartText⟩, ⟨hour', minute', hstopText⟩⟩ := hpattern w hw
  obtain ⟨start, hstart', hstart0, -⟩ := tryParse_within hstartText
  obtain ⟨stop, hstop', -, hstopDay⟩ := tryParse_within hstopText
  cases hstart.symm.trans hstart'
  cases hstop.symm.trans hstop'
  exact ⟨hstart0, hstopDay⟩

/-- **Two schedules allow the same** when on each weekday their windows cover the same times. -/
theorem isAccessAllowedNow_eq_iff {settings' : AccessControlSettings}
    (henabled : settings.enabled = true) (henabled' : settings'.enabled = true)
    (hpattern : MatchesPattern settings) (hpattern' : MatchesPattern settings') :
    (∀ t, isAccessAllowedNow settings t = isAccessAllowedNow settings' t) ↔
      ∀ day x, Covered (intervalsOf settings day) x ↔ Covered (intervalsOf settings' day) x := by
  constructor
  · intro h day x
    by_cases hx : 0 ≤ x ∧ x < ticksPerDay
    · obtain ⟨t, rfl, rfl⟩ := DateTime.exists_dayOfWeek day hx.1 hx.2
      rw [← isAccessAllowedNow_iff henabled, ← isAccessAllowedNow_iff henabled', h t]
    · have hnone : ∀ {settings : AccessControlSettings}, MatchesPattern settings →
          ¬ Covered (intervalsOf settings day) x := by
        rintro settings hpattern ⟨v, hv, hstart, hstop⟩
        obtain ⟨hstart0, hstopDay⟩ := intervalsOf_within hpattern hv
        exact hx ⟨le_trans hstart0 hstart, lt_trans hstop hstopDay⟩
      exact iff_of_false (hnone hpattern) (hnone hpattern')
  · intro h t
    rw [Bool.eq_iff_iff, isAccessAllowedNow_iff henabled, isAccessAllowedNow_iff henabled']
    exact h t.dayOfWeek t.timeOfDay

/-- A window by the pattern is readable, and ends on its day. -/
theorem currentWindow_pattern {x : Span} (hpattern : MatchesPattern settings)
    (hx : currentWindow settings now = some x) :
    (x.start, x.stop) ∈ intervalsOf settings now.dayOfWeek ∧ 0 ≤ x.stop ∧ x.stop < ticksPerDay := by
  obtain ⟨w, hw, rfl⟩ := List.mem_map.mp (List.mem_of_find?_eq_some hx)
  obtain ⟨hw, hday⟩ := List.mem_filter.mp hw
  obtain ⟨⟨hour, minute, hstart⟩, ⟨hour', minute', hstop⟩⟩ := hpattern w hw
  obtain ⟨start, hstart, -, -⟩ := tryParse_within hstart
  obtain ⟨stop, hstop, hstop0, hstopDay⟩ := tryParse_within hstop
  show (parseTime w.startTime, parseTime w.endTime) ∈ _ ∧ 0 ≤ parseTime w.endTime ∧
    parseTime w.endTime < ticksPerDay
  rw [parseTime_of_some hstart, parseTime_of_some hstop]
  exact ⟨mem_intervalsOf.mpr ⟨w, hw, by simpa using hday, hstart, hstop⟩, hstop0, hstopDay⟩

/-- Access expires once at most. -/
theorem expiresAt_unique {t' : DateTime} (h : ExpiresAt settings now t)
    (h' : ExpiresAt settings now t') : t.ticks = t'.ticks := by
  by_contra hne
  rcases Nat.lt_or_gt_of_ne hne with hlt | hlt
  · have hallowed := h'.first t (Nat.le_of_lt h.later) hlt
    rw [h.denied] at hallowed
    cases hallowed
  · have hallowed := h.first t' (Nat.le_of_lt h'.later) hlt
    rw [h'.denied] at hallowed
    cases hallowed

/-- Where it is exact, the warning comes when access is about to end, and only then. -/
theorem expiresSoon_of_exact (h : Exact settings now) : expiresSoon settings now = true ↔
    ∃ t, ExpiresAt settings now t ∧ (t.ticks : Int) < now.ticks + warningThreshold := by
  obtain ⟨r, t, hr, ht, hexpires⟩ := h
  unfold expiresSoon
  rw [hr]
  simp only [decide_eq_true_eq]
  constructor
  · intro hlt
    exact ⟨t, hexpires, by omega⟩
  · rintro ⟨t', hexpires', hlt⟩
    have heq := expiresAt_unique hexpires hexpires'
    omega

/-- Access expires at the end of the first window that contains now just when it is denied there. -/
theorem exact_iff_denied (henabled : settings.enabled = true) (hpattern : MatchesPattern settings)
    (hallowed : isAccessAllowedNow settings now = true) :
    Exact settings now ↔ ∀ x, currentWindow settings now = some x →
      ¬ Covered (intervalsOf settings now.dayOfWeek) x.stop := by
  have hnow := now.day_timeOfDay
  constructor
  · rintro ⟨r, t, hr, ht, hexpires⟩ x hx hcovered
    obtain ⟨-, x', hx', rfl⟩ := (getTimeRemaining_eq_some henabled).mp hr
    obtain rfl : x' = x := Option.some.inj (hx'.symm.trans hx)
    have htime := t.day_timeOfDay
    rw [hexpires.sameDay] at htime
    have hstop : t.timeOfDay = x'.stop := by omega
    rw [← hstop, ← DateTime.dayOfWeek_of_day hexpires.sameDay] at hcovered
    have hdenied := hexpires.denied
    rw [(isAccessAllowedNow_iff henabled).mpr hcovered] at hdenied
    cases hdenied
  · intro h
    obtain ⟨x, hx⟩ := currentWindow_isSome henabled hallowed
    obtain ⟨hmem, hstop0, hstopDay⟩ := currentWindow_pattern hpattern hx
    obtain ⟨hstart, hstop⟩ := currentWindow_contains hx
    obtain ⟨t, hday, htime⟩ := now.exists_timeOfDay hstop0 hstopDay
    have ht := t.day_timeOfDay
    rw [hday, htime] at ht
    refine ⟨x.stop - now.timeOfDay, t,
      (getTimeRemaining_eq_some henabled).mpr ⟨hallowed, x, hx, rfl⟩, by omega, by omega, hday,
      ?_, ?_⟩
    · rw [Bool.eq_false_iff]
      intro hallowed'
      have hcovered := (isAccessAllowedNow_iff henabled).mp hallowed'
      rw [DateTime.dayOfWeek_of_day hday, htime] at hcovered
      exact h x hx hcovered
    · intro u hle hlt
      have hsame : u.day = now.day := by
        have hlower : now.day ≤ u.day := Nat.div_le_div_right hle
        have hupper : u.day ≤ t.day := Nat.div_le_div_right (Nat.le_of_lt hlt)
        omega
      have hgap : NoGap settings now x.stop := noGap_of_mem hmem hstart
      exact (allowed_until_iff henabled hallowed x.stop).mpr hgap u hle (by omega) hsame

end Schedules

/-! ## Some texts of times -/

def digitOf (c : Char) : Option Nat := if c.isDigit then some (c.toNat - 48) else none

def twoDigits (c c' : Char) : Option Nat := do
  let tens ← digitOf c
  let ones ← digitOf c'
  pure (10 * tens + ones)

def clock (hour minute : Option Nat) : Option Int := do
  let hour ← hour
  let minute ← minute
  if hour < 24 ∧ minute < 60 then some ((hour * 60 + minute : Nat) * 60 * ticksPerSecond) else none

/-- The forms `h:mm`, `hh:mm`, `-hh:mm` and `d.hh:mm`. -/
def readSpan : List Char → Option Int
  | [h, c, m, m'] => if c = ':' then clock (digitOf h) (twoDigits m m') else none
  | [h, h', c, m, m'] => if c = ':' then clock (twoDigits h h') (twoDigits m m') else none
  | [s, h, h', c, m, m'] =>
    if s = '-' ∧ c = ':' then (clock (twoDigits h h') (twoDigits m m')).map (-·) else none
  | [d, p, h, h', c, m, m'] => do
    let days ← digitOf d
    let time ← clock (twoDigits h h') (twoDigits m m')
    if p = '.' ∧ c = ':' then some ((days * ticksPerDay : Nat) + time) else none
  | _ => none

theorem toList_padded : ∀ n < 60,
    (padded 2 n).toList = [Nat.digitChar (n / 10), Nat.digitChar (n % 10)] := by
  decide +kernel

theorem toList_hour : ∀ n < 24, (toString n).toList =
    if n < 10 then [Nat.digitChar n] else [Nat.digitChar (n / 10), Nat.digitChar (n % 10)] := by
  decide +kernel

theorem digitOf_digitChar : ∀ n < 10, digitOf (Nat.digitChar n) = some n := by
  decide

theorem twoDigits_digitChar : ∀ n < 60,
    twoDigits (Nat.digitChar (n / 10)) (Nat.digitChar (n % 10)) = some n := by
  decide

theorem readSpan_hhmm {text : String} {hour minute : Nat} (h : IsHHmm text hour minute) :
    readSpan text.toList = some ((hour * 60 + minute : Nat) * 60 * ticksPerSecond) := by
  obtain ⟨hhour, hminute, htext⟩ := h
  have hclock : clock (some hour) (some minute) =
      some ((hour * 60 + minute : Nat) * 60 * ticksPerSecond) := if_pos ⟨hhour, hminute⟩
  have hminutes := twoDigits_digitChar minute hminute
  have hhours := twoDigits_digitChar hour (by omega)
  have htwo : readSpan ([Nat.digitChar (hour / 10), Nat.digitChar (hour % 10)] ++ [':'] ++
      [Nat.digitChar (minute / 10), Nat.digitChar (minute % 10)]) =
        some ((hour * 60 + minute : Nat) * 60 * ticksPerSecond) := by
    show clock (twoDigits _ _) (twoDigits _ _) = _
    rw [hhours, hminutes, hclock]
  have hcolon : (":" : String).toList = [':'] := rfl
  rcases htext with rfl | rfl
  · rw [String.toList_append, String.toList_append, toList_padded hour (by omega),
      toList_padded minute hminute, hcolon]
    exact htwo
  · rw [String.toList_append, String.toList_append, toList_hour hour hhour,
      toList_padded minute hminute, hcolon]
    by_cases hone : hour < 10
    · rw [if_pos hone]
      show clock (digitOf _) (twoDigits _ _) = _
      rw [digitOf_digitChar hour hone, hminutes, hclock]
    · rw [if_neg hone]
      exact htwo

/-- A parser of these forms. -/
@[reducible] def invariant : TimeSpanParser where
  tryParse text := readSpan text.toList
  tryParse_hhmm := readSpan_hhmm

/-! ## A Monday -/

/-- 4 March 2024, at half past nine. -/
def halfPastNine : DateTime := ⟨638451414000000000, by decide⟩

/-- And at two minutes to twelve. -/
def beforeNoon : DateTime := ⟨638451502800000000, by decide⟩

def noon : DateTime := ⟨638451504000000000, by decide⟩

def monday (windows : List (String × String)) : AccessControlSettings where
  enabled := true
  schedule := windows.map fun w => ⟨.monday, w.1, w.2⟩

/-- Two windows that touch. -/
def touching : AccessControlSettings := monday [("09:00", "12:00"), ("12:00", "18:00")]

theorem matchesPattern_touching : MatchesPattern touching := by
  intro w hw
  simp only [touching, monday, List.map_cons, List.map_nil, List.mem_cons, List.not_mem_nil,
    or_false] at hw
  rcases hw with rfl | rfl
  · exact ⟨⟨9, 0, by decide, by decide, Or.inl (by decide)⟩,
      ⟨12, 0, by decide, by decide, Or.inl (by decide)⟩⟩
  · exact ⟨⟨12, 0, by decide, by decide, Or.inl (by decide)⟩,
      ⟨18, 0, by decide, by decide, Or.inl (by decide)⟩⟩

/-- The first of two windows that touch is not too much to promise. -/
theorem neverOverpromises_touching : @NeverOverpromises invariant touching beforeNoon := by
  refine (@neverOverpromises_iff invariant touching beforeNoon rfl).mpr ?_
  intro _ x hx
  have hwindow : @currentWindow invariant touching beforeNoon =
      some ⟨324000000000, 432000000000⟩ := by decide +kernel
  obtain rfl := Option.some.inj
    ((@currentWindow_eq_some invariant _ _ _).mpr hx |>.symm.trans hwindow)
  unfold NoGap
  decide +kernel

/-- A window without a readable start, before one that ends at ten. -/
def unreadable : List (String × String) := [("abc", "23:00"), ("09:00", "10:00")]

/-- Access is promised until 23:00; it ends at ten. -/
theorem not_neverOverpromises_unreadable :
    ¬ @NeverOverpromises invariant (monday unreadable) halfPastNine := by
  rintro ⟨-, h⟩
  have hremaining : @getTimeRemaining invariant (monday unreadable)
      halfPastNine = some 486000000000 := by decide +kernel
  have hallowed := (h _ hremaining).2 beforeNoon (by decide) (by decide) (by decide)
  have hdenied : @isAccessAllowedNow invariant (monday unreadable)
      beforeNoon = false := by decide +kernel
  rw [hdenied] at hallowed
  cases hallowed

end Service.AccessControl
