/-
  THE USAGE CHART (client/src/features/schedule/Usage24HourChart.tsx).

  1. **The allowed hours** — `isHourAllowed` goes by the hours of the two times.  It agrees with
     what the service enforces except on the hour in which a window ends, and on windows that cross
     midnight, which the service never opens (`agrees_iff`).

  2. **The usage** — the chart adds up the parts of the sessions in an hour, where the server's
     summary merges them.  For the disjoint sessions of one day that is the same (`usage_eq`).
-/
import Vorsight.Dashboard.AccessControlConfig
import Vorsight.Library.Js
import Vorsight.Server.Analytics

namespace Dashboard.Usage24HourChart

open AccessControlConfig Intervals Service.AccessControl Time Vorsight
open Server (ActivitySession)
open Server.Analytics (activeMillis_le exactMinutes exactMinutes_eq hourlyIntervals interval
  unionLength_hourlyIntervals)

/-! ## Allowed hours -/

/-- `const [hour] = time.split(':').map(Number)` -/
def hourOf (time : String) : Option Int := Js.number (time.toList.takeWhile (· ≠ ':'))

def isHourAllowed (hour : Nat) (start stop : String) : Bool :=
  let startHour := hourOf start
  let endHour := hourOf stop
  if Js.le startHour endHour then Js.le startHour (hour : Int) && Js.lt (hour : Int) endHour
  -- crosses midnight
  else Js.le startHour (hour : Int) || Js.lt (hour : Int) endHour

example : (List.range 24).filter (isHourAllowed · "22:00" "06:00") =
    [0, 1, 2, 3, 4, 5, 22, 23] := by decide

def ticksPerHour : Int := 3600 * ticksPerSecond

theorem digitChar_ne_colon : ∀ n < 10, Nat.digitChar n ≠ ':' := by decide

theorem number_digit : ∀ n < 10, Js.number [Nat.digitChar n] = some (n : Int) := by decide

theorem number_digits : ∀ n < 24,
    Js.number [Nat.digitChar (n / 10), Nat.digitChar (n % 10)] = some (n : Int) := by
  decide

theorem hourOf_hhmm {time : String} {hour minute : Nat} (h : IsHHmm time hour minute) :
    hourOf time = some (hour : Int) := by
  obtain ⟨hhour, hminute, htime⟩ := h
  have htwo : hourOf (padded 2 hour ++ ":" ++ padded 2 minute) = some (hour : Int) := by
    have htens := digitChar_ne_colon (hour / 10) (by omega)
    have hones := digitChar_ne_colon (hour % 10) (by omega)
    unfold hourOf
    rw [toList_padded_clock hhour hminute, ← number_digits hour hhour]
    simp [htens, hones]
  rcases htime with rfl | rfl
  · exact htwo
  · by_cases hone : hour < 10
    · have hdigit := digitChar_ne_colon hour hone
      unfold hourOf
      rw [toList_clock hone hminute, ← number_digit hour hone]
      simp [hdigit]
    · rw [toString_hour hhour hone]
      exact htwo

theorem isHourAllowed_iff {start stop : String} {startHour startMinute endHour endMinute : Nat}
    (hstart : IsHHmm start startHour startMinute) (hstop : IsHHmm stop endHour endMinute)
    (hour : Nat) : isHourAllowed hour start stop = true ↔
      if startHour ≤ endHour then startHour ≤ hour ∧ hour < endHour
      else startHour ≤ hour ∨ hour < endHour := by
  unfold isHourAllowed
  rw [hourOf_hhmm hstart, hourOf_hhmm hstop]
  by_cases hle : startHour ≤ endHour
  · simp [Js.le, Js.lt, hle]
  · simp [Js.le, Js.lt, hle]

section Allowed

variable [TimeSpanParser]

/-- The chart marks an hour of a day as allowed just when the schedule that the form saves allows
    access at some instant of it. -/
def Agrees (s : State) (date : DateTime) (hour : Nat) : Prop :=
  ∃ saved, handleSave s = some saved ∧
    (isHourAllowed hour s.simpleStart s.simpleEnd = true ↔
      ∃ t : DateTime, t.day = date.day ∧ hour * ticksPerHour ≤ t.timeOfDay ∧
        t.timeOfDay < (hour + 1) * ticksPerHour ∧ isAccessAllowedNow saved t = true)

/-- The hour is not the one in which the window ends, unless the end is on the hour or not after the
    start; and where the window would cross midnight, it is outside it. -/
def ShownRight (startHour startMinute endHour endMinute hour : Nat) : Prop :=
  if startHour ≤ endHour then
    hour ≠ endHour ∨ endMinute = 0 ∨ (startHour = endHour ∧ endMinute ≤ startMinute)
  else endHour ≤ hour ∧ hour < startHour

/-- Access in an hour: the window begins before the end of it, and goes on beyond its beginning. -/
theorem exists_allowed_iff {settings : AccessControlSettings} {start stop : String} {a b : Int}
    (henabled : settings.enabled = true) (hstart : tryParse start = some a)
    (hstop : tryParse stop = some b) (hschedule : settings.schedule =
      orderedDays.map fun day => ⟨day, start, stop⟩) (date : DateTime) {hour : Nat}
    (hhour : hour < 24) :
    (∃ t : DateTime, t.day = date.day ∧ hour * ticksPerHour ≤ t.timeOfDay ∧
        t.timeOfDay < (hour + 1) * ticksPerHour ∧ isAccessAllowedNow settings t = true) ↔
      a < b ∧ a < (hour + 1) * ticksPerHour ∧ hour * ticksPerHour < b := by
  have hcovered : ∀ t, isAccessAllowedNow settings t = true ↔
      a ≤ t.timeOfDay ∧ t.timeOfDay < b := by
    intro t
    obtain ⟨day, hday⟩ := exists_toSystemDay t.dayOfWeek
    rw [isAccessAllowedNow_iff henabled, ← hday, covered_everyDay hstart hstop hschedule]
  simp only [hcovered]
  constructor
  · rintro ⟨t, -, hle, hlt, hat, htb⟩
    omega
  · rintro ⟨hab, hend, hbegin⟩
    have hlt : (hour + 1) * ticksPerHour ≤ ticksPerDay := by
      unfold ticksPerHour ticksPerSecond ticksPerDay
      omega
    have h0 : 0 ≤ hour * ticksPerHour := by
      unfold ticksPerHour ticksPerSecond
      omega
    have hlonger : hour * ticksPerHour < (hour + 1) * ticksPerHour := by
      unfold ticksPerHour ticksPerSecond
      omega
    obtain ⟨t, hday, htime⟩ := date.exists_timeOfDay (x := max a (hour * ticksPerHour))
      (by omega) (by omega)
    exact ⟨t, hday, by omega, by omega, by omega, by omega⟩

/-- **The chart against the service**, for the hours of any day and any two times that the form
    takes. -/
theorem agrees_iff {s : State} (hmode : s.mode = .simple)
    (hstart : isValidTime s.simpleStart = true) (hstop : isValidTime s.simpleEnd = true)
    (date : DateTime) {hour : Nat} (hhour : hour < 24) :
    ∃ startHour startMinute endHour endMinute, IsHHmm s.simpleStart startHour startMinute ∧
      IsHHmm s.simpleEnd endHour endMinute ∧
        (Agrees s date hour ↔ ShownRight startHour startMinute endHour endMinute hour) := by
  obtain ⟨saved, hsaved, hschedule⟩ := handleSave_of_simple hmode hstart hstop
  obtain ⟨henabled, -, -⟩ := handleSave_spec hsaved
  obtain ⟨startHour, startMinute, hstart⟩ := isValidTime_iff.mp hstart
  obtain ⟨endHour, endMinute, hstop⟩ := isValidTime_iff.mp hstop
  refine ⟨startHour, startMinute, endHour, endMinute, hstart, hstop, ?_⟩
  have hservice := exists_allowed_iff henabled (tryParse_hhmm hstart) (tryParse_hhmm hstop)
    hschedule date hhour
  have hagrees : Agrees s date hour ↔ (isHourAllowed hour s.simpleStart s.simpleEnd = true ↔
      ∃ t : DateTime, t.day = date.day ∧ hour * ticksPerHour ≤ t.timeOfDay ∧
        t.timeOfDay < (hour + 1) * ticksPerHour ∧ isAccessAllowedNow saved t = true) := by
    constructor
    · rintro ⟨saved', hsaved', h⟩
      cases hsaved.symm.trans hsaved'
      exact h
    · exact fun h => ⟨saved, hsaved, h⟩
  obtain ⟨hstartHour, hstartMinute, -⟩ := id hstart
  obtain ⟨hendHour, hendMinute, -⟩ := id hstop
  rw [hagrees, hservice, isHourAllowed_iff hstart hstop]
  unfold ShownRight ticksPerHour ticksPerSecond
  by_cases hle : startHour ≤ endHour
  · rw [if_pos hle, if_pos hle]
    omega
  · rw [if_neg hle, if_neg hle]
    omega

end Allowed

/-! ### A day and a night -/

/-- The form in simple mode. -/
def everyDay (start stop : String) : State where
  mode := .simple
  simpleStart := start
  simpleEnd := stop

theorem agrees_day : ∃ startHour startMinute endHour endMinute,
    IsHHmm "08:00" startHour startMinute ∧ IsHHmm "22:00" endHour endMinute ∧
      (@Agrees invariant (everyDay "08:00" "22:00") noon 12 ↔
        ShownRight startHour startMinute endHour endMinute 12) :=
  @agrees_iff invariant (everyDay "08:00" "22:00") rfl (by decide) (by decide) noon _ (by decide)

/-- 4 March 2024, at ten past five in the afternoon. -/
def tenPastFive : DateTime := ⟨638451690000000000, by decide⟩

/-- A window that ends at half past five is open in the hour that begins at five, and is not shown
    there; one from ten in the evening to six is shown at eleven, and is never open. -/
theorem not_agrees : ¬ @Agrees invariant (everyDay "09:00" "17:30") noon 17 ∧
    ¬ @Agrees invariant (everyDay "22:00" "06:00") noon 23 := by
  constructor
  · rintro ⟨saved, hsaved, h⟩
    have hallowed : (handleSave (everyDay "09:00" "17:30")).map
        (@isAccessAllowedNow invariant · tenPastFive) = some true := by decide +kernel
    rw [hsaved, Option.map_some, Option.some_inj] at hallowed
    have hshown := h.mpr ⟨tenPastFive, by decide, by decide, by decide, hallowed⟩
    exact absurd hshown (by decide)
  · rintro ⟨saved, hsaved, h⟩
    obtain ⟨saved', hsaved', hschedule⟩ :=
      @handleSave_of_simple (everyDay "22:00" "06:00") rfl (by decide) (by decide)
    cases hsaved.symm.trans hsaved'
    obtain ⟨henabled, -, -⟩ := handleSave_spec hsaved
    have hshown : isHourAllowed 23 "22:00" "06:00" = true := by decide
    obtain ⟨hopen, -⟩ := (@exists_allowed_iff invariant _ _ _ 792000000000 216000000000 henabled
      (by decide +kernel) (by decide +kernel) hschedule noon 23 (by decide)).mp (h.mp hshown)
    exact absurd hopen (by decide)

/-! ## Usage -/

/-- `hours[hour].usage += durationInHour / 3600` -/
def addUsage (hour : Nat) (usage : Rat) (segment : Segment) : Rat :=
  let durationInHour := ((segment.stop - segment.start : Int) : Rat) / 1000
  if segment.hour = hour then usage + durationInHour / 3600 else usage

/-- `hours[hour].usage`, capped at 1 -/
def usage (offset : Int) (sessions : List ActivitySession) (hour : Nat) : Rat :=
  let segments := (sessions.map interval).flatMap fun w => splitHours offset w.1 w.2
  let usage := segments.foldl (addUsage hour) 0
  if usage > 1 then 1 else usage

variable {offset : Int} {sessions : List ActivitySession} {hour : Nat}

/-- The parts in the hour are added up, whatever the others are. -/
theorem foldl_addUsage : ∀ (segments : List Segment) (usage : Rat),
    segments.foldl (addUsage hour) usage = usage +
      (totalLength ((segments.filter (·.hour = hour)).map Segment.interval) : Rat) / 1000 / 3600
  | [], usage => by simp [totalLength]
  | segment :: segments, usage => by
    rw [List.foldl_cons, foldl_addUsage segments]
    by_cases hhour : segment.hour = hour
    · rw [List.filter_cons_of_pos (by simpa using hhour), List.map_cons, totalLength, addUsage,
        if_pos hhour]
      show _ = usage + (((segment.stop - segment.start) + totalLength _ : Int) : Rat) / 1000 / 3600
      push_cast
      ring
    · rw [List.filter_cons_of_neg (by simpa using hhour), addUsage, if_neg hhour]

/-- Sessions that are apart in seconds are apart in milliseconds. -/
theorem apart_interval (h : sessions.Pairwise fun a b =>
    Apart (a.startTime, a.endTime) (b.startTime, b.endTime)) :
    (sessions.map interval).Pairwise Apart := by
  refine List.pairwise_map.mpr (h.imp ?_)
  intro a b hapart x ha ha' hb hb'
  simp only [interval] at ha ha' hb hb'
  exact hapart (x / 1000) (by simp only; omega) (by simp only; omega) (by simp only; omega)
    (by simp only; omega)

/-- **Both charts show the same**: adding the parts of the sessions up and merging them comes to
    one, when no two sessions overlap; and within a day the cap takes nothing away. -/
theorem usage_eq {first : Int} (hapart : sessions.Pairwise fun a b =>
      Apart (a.startTime, a.endTime) (b.startTime, b.endTime))
    (hwindow : ∀ session ∈ sessions, first ≤ session.startTime ∧
      session.endTime ≤ first + 24 * 3600) :
    usage offset sessions hour * 60 = exactMinutes offset sessions hour := by
  have htotal : totalLength (hourlyIntervals offset sessions hour) =
      Server.Analytics.activeMillis offset sessions hour := by
    rw [← unionLength_hourlyIntervals]
    exact totalLength_eq (fun _ hv => le_of_mem_hourSegments hv)
      (apart_hourSegments (apart_interval hapart))
  have hsum : ((sessions.map interval).flatMap fun w => splitHours offset w.1 w.2).foldl
      (addUsage hour) 0 =
        (Server.Analytics.activeMillis offset sessions hour : Rat) / 1000 / 3600 := by
    rw [foldl_addUsage, zero_add, ← Int.cast_natCast, ← htotal]
    rfl
  have hle : (Server.Analytics.activeMillis offset sessions hour : Rat) ≤ 3600000 := by
    exact_mod_cast activeMillis_le hwindow
  rw [usage, hsum, if_neg (by linarith), exactMinutes_eq]
  ring

def session (startTime endTime : Int) : ActivitySession where
  id := 1
  machineId := "PC-1"
  startTime
  endTime
  durationSeconds := endTime - startTime
  processName := "chrome"
  activeWindow := none
  username := none
  createdAt := 0
  updatedAt := 0

/-- Sessions that cross an hour, touch, and one without length. -/
def morning : List ActivitySession := [session 600 5400, session 5400 7000, session 9000 9000]

/-- Five and a half hours ahead of UTC. -/
theorem usage_morning : usage 19800000 morning 6 * 60 = exactMinutes 19800000 morning 6 := by
  refine @usage_eq _ _ _ 0 ?_ ?_
  · simp only [morning, List.pairwise_cons, List.mem_cons, List.not_mem_nil, or_false,
      forall_eq_or_imp, forall_eq, Apart, session]
    refine ⟨⟨?_, ?_⟩, ?_, ?_, ?_⟩ <;> grind
  · simp [morning, session]

end Dashboard.Usage24HourChart
