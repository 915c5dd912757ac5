/-
  THE ACCESS-CONTROL FORM (client/src/features/schedule/AccessControlConfig.tsx).

  The form takes a schedule apart into one window for all days and one window for each day, and
  builds a schedule from one of them when it is saved.

  1. **The form** — `load` is its state once the settings have come in, `handleSave` what it sends.

  2. **Its times** (`isValidTime_iff`): the pattern of the settings' schema, so that what is saved
     matches the schema (`matchesPattern_of_handleSave`).

  3. `unchanged_iff`: opening and saving changes nothing exactly when the schedule is one that the
     form can show (`Shown`).
-/
import Vorsight.Library.Js
import Vorsight.Service.AccessControl

namespace Dashboard.AccessControlConfig

open Intervals Js Service.AccessControl Time Vorsight

/-! ## Valid times -/

/-- `/^([0-1]?[0-9]|2[0-3]):[0-5][0-9]$/.test(time)` -/
def isValidTime (time : String) : Bool :=
  match time.toList with
  | [h, c, m, m'] => h.isDigit && c = ':' && ('0' ≤ m && m ≤ '5') && m'.isDigit
  | [h, h', c, m, m'] =>
    (h = '0' && h'.isDigit || h = '1' && h'.isDigit || h = '2' && ('0' ≤ h' && h' ≤ '3')) &&
      c = ':' && ('0' ≤ m && m ≤ '5') && m'.isDigit
  | _ => false

example : isValidTime "8:05" = true := by decide
example : isValidTime "24:00" = false := by decide

/-! ## The form -/

def orderedDays : List DayOfWeek :=
  [.monday, .tuesday, .wednesday, .thursday, .friday, .saturday, .sunday]

structure CustomWindow where
  day : DayOfWeek
  start : String
  stop : String
  enabled : Bool
deriving DecidableEq, Repr

structure State where
  mode : ScheduleMode
  simpleStart : String
  simpleEnd : String
  customWindows : List CustomWindow := []
  violationAction : ViolationAction := .logoff
deriving DecidableEq, Repr

/-- The mode the form opens in. -/
def modeOf (settings : AccessControlSettings) : ScheduleMode :=
  settings.scheduleMode.getD (if settings.schedule.length > 1 then .custom else .simple)

/-- The form when the effects have run. -/
def load (settings : AccessControlSettings) : State where
  mode := modeOf settings
  simpleStart := textOr (settings.schedule.head?.map (·.startTime)) "08:00"
  simpleEnd := textOr (settings.schedule.head?.map (·.endTime)) "22:00"
  customWindows := orderedDays.map fun dayKey =>
    let existing := settings.schedule.find? (·.dayOfWeek = dayKey)
    { day := dayKey
      start := textOr (existing.map (·.startTime)) "08:00"
      stop := textOr (existing.map (·.endTime)) "22:00"
      enabled := existing.isSome }
  violationAction := settings.violationAction

/-- `handleSave`: what is passed to `onSave`, if the times are valid. -/
def handleSave (s : State) : Option AccessControlSettings :=
  match s.mode with
  | .simple =>
    if !isValidTime s.simpleStart || !isValidTime s.simpleEnd then none
    else
      some {
        enabled := true, scheduleMode := some .simple, violationAction := s.violationAction
        schedule := orderedDays.map fun day => ⟨day, s.simpleStart, s.simpleEnd⟩ }
  | .custom =>
    if s.customWindows.any fun w => w.enabled && (!isValidTime w.start || !isValidTime w.stop) then
      none
    else
      some {
        enabled := true, scheduleMode := some .custom, violationAction := s.violationAction
        schedule := (s.customWindows.filter (·.enabled)).map fun w => ⟨w.day, w.start, w.stop⟩ }

/-! ## The pattern of a time -/

theorem exists_digitChar {c : Char} (h : c.isDigit = true) : ∃ n < 10, c = Nat.digitChar n := by
  obtain ⟨hge, hle⟩ := Char.isDigit_iff_toNat.mp h
  have hge : 48 ≤ c.toNat := hge
  have hle : c.toNat ≤ 57 := hle
  refine ⟨c.toNat - 48, by omega, ?_⟩
  have hall : ∀ n < 58, 48 ≤ n → Char.ofNat n = Nat.digitChar (n - 48) := by decide
  rw [← hall c.toNat (by omega) hge, Char.ofNat_toNat]

theorem isDigit_of_le {c d : Char} (hle : c ≤ d) (hd : d ≤ '9') (h0 : '0' ≤ c) :
    c.isDigit = true := by
  rw [Char.isDigit_iff_toNat]
  exact ⟨h0, Nat.le_trans hle hd⟩

/-- The digits of an hour, and of the tens of a minute. -/
theorem validHour : ∀ a < 10, ∀ b < 10,
    (Nat.digitChar a = '0' && (Nat.digitChar b).isDigit ||
      Nat.digitChar a = '1' && (Nat.digitChar b).isDigit ||
      Nat.digitChar a = '2' && ('0' ≤ Nat.digitChar b && Nat.digitChar b ≤ '3')) =
    decide (10 * a + b < 24) := by
  decide

theorem validTens : ∀ a < 10,
    ('0' ≤ Nat.digitChar a && Nat.digitChar a ≤ '5') = decide (a < 6) := by
  decide

theorem isDigit_digit : ∀ n < 10, (Nat.digitChar n).isDigit = true := by decide

theorem toList_padded_clock {hour minute : Nat} (hhour : hour < 24) (hminute : minute < 60) :
    (padded 2 hour ++ ":" ++ padded 2 minute).toList =
      [Nat.digitChar (hour / 10), Nat.digitChar (hour % 10), ':', Nat.digitChar (minute / 10),
        Nat.digitChar (minute % 10)] := by
  rw [String.toList_append, String.toList_append, toList_padded hour (by omega),
    toList_padded minute hminute]
  rfl

theorem toList_clock {hour minute : Nat} (hhour : hour < 10) (hminute : minute < 60) :
    (toString hour ++ ":" ++ padded 2 minute).toList =
      [Nat.digitChar hour, ':', Nat.digitChar (minute / 10), Nat.digitChar (minute % 10)] := by
  rw [String.toList_append, String.toList_append, toList_hour hour (by omega), if_pos hhour,
    toList_padded minute hminute]
  rfl

/-- From ten o'clock on, the two forms are one. -/
theorem toString_hour {hour : Nat} (hhour : hour < 24) (h : ¬ hour < 10) :
    toString hour = padded 2 hour := by
  apply String.toList_inj.mp
  rw [toList_hour hour hhour, if_neg h, toList_padded hour (by omega)]

/-- **What the form takes for a time** is what the schema does. -/
theorem isValidTime_iff {time : String} :
    isValidTime time = true ↔ ∃ hour minute, IsHHmm time hour minute := by
  constructor
  · intro h
    unfold isValidTime at h
    split at h
    · rename_i hh c m m' htime
      simp only [Bool.and_eq_true, decide_eq_true_eq] at h
      obtain ⟨⟨⟨hdigit, rfl⟩, hm0, hm5⟩, hdigit'⟩ := h
      obtain ⟨a, ha, rfl⟩ := exists_digitChar hdigit
      obtain ⟨b, hb, rfl⟩ := exists_digitChar (isDigit_of_le hm5 (by decide) hm0)
      obtain ⟨d, hd, rfl⟩ := exists_digitChar hdigit'
      have htens := validTens b hb
      rw [decide_eq_true hm0, decide_eq_true hm5, Bool.and_self] at htens
      have htens := of_decide_eq_true htens.symm
      refine ⟨a, 10 * b + d, by omega, by omega, Or.inr (String.toList_inj.mp ?_)⟩
      rw [htime, toList_clock ha (by omega), show (10 * b + d) / 10 = b by omega,
        show (10 * b + d) % 10 = d by omega]
    · rename_i hh hh' c m m' htime
      simp only [Bool.and_eq_true, decide_eq_true_eq] at h
      obtain ⟨⟨⟨hhour, rfl⟩, hm0, hm5⟩, hdigit'⟩ := h
      have hdigits : hh.isDigit = true ∧ hh'.isDigit = true := by
        simp only [Bool.or_eq_true, Bool.and_eq_true, decide_eq_true_eq] at hhour
        rcases hhour with (⟨rfl, hd⟩ | ⟨rfl, hd⟩) | ⟨rfl, h0, h3⟩
        · exact ⟨by decide, hd⟩
        · exact ⟨by decide, hd⟩
        · exact ⟨by decide, isDigit_of_le h3 (by decide) h0⟩
      obtain ⟨a, ha, rfl⟩ := exists_digitChar hdigits.1
      obtain ⟨a', ha', rfl⟩ := exists_digitChar hdigits.2
      obtain ⟨b, hb, rfl⟩ := exists_digitChar (isDigit_of_le hm5 (by decide) hm0)
      obtain ⟨d, hd, rfl⟩ := exists_digitChar hdigit'
      rw [validHour a ha a' ha', decide_eq_true_eq] at hhour
      have htens := validTens b hb
      rw [decide_eq_true hm0, decide_eq_true hm5, Bool.and_self] at htens
      have htens := of_decide_eq_true htens.symm
      refine ⟨10 * a + a', 10 * b + d, hhour, by omega, Or.inl (String.toList_inj.mp ?_)⟩
      rw [htime, toList_padded_clock hhour (by omega), show (10 * a + a') / 10 = a by omega,
        show (10 * a + a') % 10 = a' by omega, show (10 * b + d) / 10 = b by omega,
        show (10 * b + d) % 10 = d by omega]
    · cases h
  · rintro ⟨hour, minute, hhour, hminute, htime⟩
    have htwo : isValidTime (padded 2 hour ++ ":" ++ padded 2 minute) = true := by
      unfold isValidTime
      rw [toList_padded_clock hhour hminute]
      simp only [validHour _ (show hour / 10 < 10 by omega) _ (show hour % 10 < 10 by omega),
        validTens _ (show minute / 10 < 10 by omega),
        isDigit_digit _ (show minute % 10 < 10 by omega), decide_true, Bool.and_true,
        Bool.and_eq_true, decide_eq_true_eq]
      omega
    rcases htime with rfl | rfl
    · exact htwo
    · by_cases hone : hour < 10
      · unfold isValidTime
        rw [toList_clock hone hminute]
        simp only [isDigit_digit _ hone, validTens _ (show minute / 10 < 10 by omega),
          isDigit_digit _ (show minute % 10 < 10 by omega), decide_true, Bool.and_true,
          Bool.true_and, decide_eq_true_eq]
        omega
      · rw [toString_hour hhour hone]
        exact htwo

/-! ## Saving -/

section Saving

variable {settings saved : AccessControlSettings} {s : State}

theorem mem_orderedDays (day : DayOfWeek) : day ∈ orderedDays := by cases day <;> decide

theorem toSystemDay_inj {day day' : DayOfWeek} :
    toSystemDay day = toSystemDay day' ↔ day = day' := by
  cases day <;> cases day' <;> decide

theorem exists_toSystemDay (day : SystemDay) : ∃ day', toSystemDay day' = day := by
  cases day with
  | sunday => exact ⟨.sunday, rfl⟩
  | monday => exact ⟨.monday, rfl⟩
  | tuesday => exact ⟨.tuesday, rfl⟩
  | wednesday => exact ⟨.wednesday, rfl⟩
  | thursday => exact ⟨.thursday, rfl⟩
  | friday => exact ⟨.friday, rfl⟩
  | saturday => exact ⟨.saturday, rfl⟩

/-- **What is saved** is enabled, has the violation action of the form, and matches the schema. -/
theorem handleSave_spec (h : handleSave s = some saved) :
    saved.enabled = true ∧ saved.violationAction = s.violationAction ∧ MatchesPattern saved := by
  unfold handleSave at h
  split at h
  · split at h
    · cases h
    · rename_i hvalid
      cases h
      simp only [Bool.or_eq_true, Bool.not_eq_true', not_or, Bool.not_eq_false] at hvalid
      refine ⟨rfl, rfl, fun w hw => ?_⟩
      obtain ⟨day, -, rfl⟩ := List.mem_map.mp hw
      exact ⟨isValidTime_iff.mp hvalid.1, isValidTime_iff.mp hvalid.2⟩
  · split at h
    · cases h
    · rename_i hvalid
      cases h
      refine ⟨rfl, rfl, fun w hw => ?_⟩
      obtain ⟨custom, hcustom, rfl⟩ := List.mem_map.mp hw
      obtain ⟨hcustom, henabled⟩ := List.mem_filter.mp hcustom
      have hboth : (!isValidTime custom.start || !isValidTime custom.stop) = false := by
        rw [Bool.eq_false_iff]
        intro hinvalid
        exact hvalid (List.any_eq_true.mpr ⟨custom, hcustom, by rw [henabled, hinvalid]; rfl⟩)
      simp only [Bool.or_eq_false_iff, Bool.not_eq_false'] at hboth
      exact ⟨isValidTime_iff.mp hboth.1, isValidTime_iff.mp hboth.2⟩

/-! ## Loading -/

/-- The times of the schedule's first window, or the form's default. -/
def firstTimes (settings : AccessControlSettings) : String × String :=
  match settings.schedule with
  | [] => ("08:00", "22:00")
  | w :: _ => (w.startTime, w.endTime)

/-- The first window of a weekday. -/
def firstOf (settings : AccessControlSettings) (day : DayOfWeek) : Option TimeWindow :=
  settings.schedule.find? (·.dayOfWeek = day)

theorem firstOf_eq_some {day : DayOfWeek} {w : TimeWindow} (h : firstOf settings day = some w) :
    w ∈ settings.schedule ∧ w.dayOfWeek = day :=
  ⟨List.mem_of_find?_eq_some h, by simpa using List.find?_some h⟩

theorem textOr_of_valid {text other : String} (h : isValidTime text = true) :
    textOr (some text) other = text := by
  unfold textOr
  split
  · rename_i hnone
    cases hnone
  · rename_i hempty
    cases hempty
    cases h
  · rename_i hsome
    exact (Option.some.inj hsome).symm

theorem isValidTime_of_mem (hpattern : MatchesPattern settings) {w : TimeWindow}
    (hw : w ∈ settings.schedule) : isValidTime w.startTime = true ∧ isValidTime w.endTime = true :=
  ⟨isValidTime_iff.mpr (hpattern w hw).1, isValidTime_iff.mpr (hpattern w hw).2⟩

theorem isValidTime_firstTimes (hpattern : MatchesPattern settings) :
    isValidTime (firstTimes settings).1 = true ∧ isValidTime (firstTimes settings).2 = true := by
  unfold firstTimes
  split
  · decide
  · rename_i w _ hschedule
    exact isValidTime_of_mem hpattern (by rw [hschedule]; exact List.mem_cons_self)

theorem load_simpleTimes (hpattern : MatchesPattern settings) :
    (load settings).simpleStart = (firstTimes settings).1 ∧
      (load settings).simpleEnd = (firstTimes settings).2 := by
  have hvalid := isValidTime_firstTimes hpattern
  unfold load firstTimes at *
  cases hschedule : settings.schedule with
  | nil => exact ⟨rfl, rfl⟩
  | cons w rest =>
    rw [hschedule] at hvalid
    exact ⟨textOr_of_valid hvalid.1, textOr_of_valid hvalid.2⟩

/-- The form's window of a day, from the first of the schedule's. -/
def customWindow (settings : AccessControlSettings) (day : DayOfWeek) : CustomWindow where
  day
  start := textOr ((firstOf settings day).map (·.startTime)) "08:00"
  stop := textOr ((firstOf settings day).map (·.endTime)) "22:00"
  enabled := (firstOf settings day).isSome

theorem load_customWindows (settings : AccessControlSettings) :
    (load settings).customWindows = orderedDays.map (customWindow settings) := rfl

theorem customWindow_of_some (hpattern : MatchesPattern settings) {day : DayOfWeek} {w : TimeWindow}
    (h : firstOf settings day = some w) :
    customWindow settings day = ⟨day, w.startTime, w.endTime, true⟩ := by
  have hvalid := isValidTime_of_mem hpattern (firstOf_eq_some h).1
  rw [customWindow, h, Option.map_some, Option.map_some, textOr_of_valid hvalid.1,
    textOr_of_valid hvalid.2]
  rfl

/-- The windows that are enabled are the first ones of their weekdays. -/
theorem mem_enabled (hpattern : MatchesPattern settings) {w : TimeWindow} :
    w ∈ ((load settings).customWindows.filter (·.enabled)).map
        (fun w => (⟨w.day, w.start, w.stop⟩ : TimeWindow)) ↔
      firstOf settings w.dayOfWeek = some w := by
  rw [load_customWindows]
  constructor
  · intro h
    obtain ⟨custom, hcustom, rfl⟩ := List.mem_map.mp h
    obtain ⟨hcustom, henabled⟩ := List.mem_filter.mp hcustom
    obtain ⟨day, -, rfl⟩ := List.mem_map.mp hcustom
    obtain ⟨w, hw⟩ := Option.isSome_iff_exists.mp henabled
    obtain ⟨-, rfl⟩ := firstOf_eq_some hw
    rw [customWindow_of_some hpattern hw]
    exact hw
  · intro h
    refine List.mem_map.mpr ⟨customWindow settings w.dayOfWeek, List.mem_filter.mpr
      ⟨List.mem_map_of_mem (mem_orderedDays _), ?_⟩, ?_⟩
    · rw [customWindow_of_some hpattern h]
    · rw [customWindow_of_some hpattern h]

/-- In simple mode one window is saved for all days. -/
theorem handleSave_of_simple (hmode : s.mode = .simple) (hstart : isValidTime s.simpleStart = true)
    (hstop : isValidTime s.simpleEnd = true) :
    ∃ saved, handleSave s = some saved ∧
      saved.schedule = orderedDays.map fun day => ⟨day, s.simpleStart, s.simpleEnd⟩ := by
  unfold handleSave
  rw [hmode, hstart, hstop]
  exact ⟨_, rfl, rfl⟩

/-- Unedited, that is the schedule's first window. -/
theorem handleSave_simple (hpattern : MatchesPattern settings) (hmode : modeOf settings = .simple) :
    ∃ saved, handleSave (load settings) = some saved ∧ saved.schedule =
      orderedDays.map fun day => ⟨day, (firstTimes settings).1, (firstTimes settings).2⟩ := by
  obtain ⟨hvalid, hvalid'⟩ := isValidTime_firstTimes hpattern
  obtain ⟨hstart, hstop⟩ := load_simpleTimes hpattern
  rw [← hstart] at hvalid ⊢
  rw [← hstop] at hvalid' ⊢
  exact handleSave_of_simple hmode hvalid hvalid'

/-- In custom mode the first window of each day is saved. -/
theorem handleSave_custom (hpattern : MatchesPattern settings) (hmode : modeOf settings = .custom) :
    ∃ saved, handleSave (load settings) = some saved ∧
      ∀ w, w ∈ saved.schedule ↔ firstOf settings w.dayOfWeek = some w := by
  have hcustom : (load settings).mode = .custom := hmode
  unfold handleSave
  rw [hcustom]
  simp only
  rw [if_neg]
  · exact ⟨_, rfl, fun w => mem_enabled hpattern⟩
  · intro hinvalid
    obtain ⟨custom, hcustom, hinvalid⟩ := List.any_eq_true.mp hinvalid
    obtain ⟨henabled, hinvalid⟩ := (Bool.and_eq_true _ _).mp hinvalid
    rw [load_customWindows] at hcustom
    obtain ⟨day, -, rfl⟩ := List.mem_map.mp hcustom
    obtain ⟨w, hw⟩ := Option.isSome_iff_exists.mp henabled
    obtain ⟨hstart, hstop⟩ := isValidTime_of_mem hpattern (firstOf_eq_some hw).1
    rw [customWindow_of_some hpattern hw, hstart, hstop] at hinvalid
    cases hinvalid

end Saving

/-! ## Opening and saving -/

section Unedited

variable [TimeSpanParser] {settings saved : AccessControlSettings}

/-- **A schedule that the form can show.**  In simple mode every weekday's windows together are the
    schedule's first window; in custom mode no window of a weekday goes beyond its first one. -/
def Shown (settings : AccessControlSettings) : Prop :=
  match modeOf settings with
  | .simple => ∀ day, ∀ start ∈ tryParse (firstTimes settings).1,
      ∀ stop ∈ tryParse (firstTimes settings).2,
        Fills (intervalsOf settings (toSystemDay day)) start stop
  | .custom => ∀ day, ∀ w ∈ firstOf settings day, ∀ start ∈ tryParse w.startTime,
      ∀ stop ∈ tryParse w.endTime, ∀ v ∈ intervalsOf settings (toSystemDay day),
        v.1 < v.2 → start ≤ v.1 ∧ v.2 ≤ stop

/-- Saving without an edit gives settings with the same answers and the same violation action. -/
def Unchanged (settings : AccessControlSettings) : Prop :=
  ∃ saved, handleSave (load settings) = some saved ∧
    (∀ t, isAccessAllowedNow saved t = isAccessAllowedNow settings t) ∧
    saved.violationAction = settings.violationAction

/-- One window for all days. -/
theorem covered_everyDay {start stop : String} {a b : Int} (hstart : tryParse start = some a)
    (hstop : tryParse stop = some b) (hschedule : settings.schedule =
      orderedDays.map fun day => ⟨day, start, stop⟩) (day : DayOfWeek) (x : Int) :
    Covered (intervalsOf settings (toSystemDay day)) x ↔ a ≤ x ∧ x < b := by
  constructor
  · rintro ⟨v, hv, hax, hxb⟩
    obtain ⟨w, hw, -, hv1, hv2⟩ := mem_intervalsOf.mp hv
    rw [hschedule] at hw
    obtain ⟨day', -, rfl⟩ := List.mem_map.mp hw
    cases hstart.symm.trans hv1
    cases hstop.symm.trans hv2
    exact ⟨hax, hxb⟩
  · intro hx
    refine ⟨(a, b), mem_intervalsOf.mpr ⟨⟨day, start, stop⟩, ?_, rfl, hstart, hstop⟩, hx⟩
    rw [hschedule]
    exact List.mem_map_of_mem (mem_orderedDays day)

/-- On a weekday with windows, the first of them is all that is saved. -/
theorem covered_firstOf {day : DayOfWeek} {w : TimeWindow} {a b : Int}
    (hschedule : ∀ w, w ∈ saved.schedule ↔ firstOf settings w.dayOfWeek = some w)
    (hw : firstOf settings day = some w) (hstart : tryParse w.startTime = some a)
    (hstop : tryParse w.endTime = some b) (x : Int) :
    Covered (intervalsOf saved (toSystemDay day)) x ↔ a ≤ x ∧ x < b := by
  constructor
  · rintro ⟨v, hv, hax, hxb⟩
    obtain ⟨w', hw', hday, hv1, hv2⟩ := mem_intervalsOf.mp hv
    rw [hschedule, toSystemDay_inj.mp hday, hw] at hw'
    cases hw'
    cases hstart.symm.trans hv1
    cases hstop.symm.trans hv2
    exact ⟨hax, hxb⟩
  · intro hx
    obtain ⟨-, rfl⟩ := firstOf_eq_some hw
    exact ⟨(a, b), mem_intervalsOf.mpr ⟨w, (hschedule w).mpr hw, rfl, hstart, hstop⟩, hx⟩

/-- A weekday without a first window has none, and none is saved for it. -/
theorem not_covered_of_none {day : DayOfWeek}
    (hschedule : ∀ w, w ∈ saved.schedule ↔ firstOf settings w.dayOfWeek = some w)
    (hnone : firstOf settings day = none) (x : Int) :
    ¬ Covered (intervalsOf saved (toSystemDay day)) x ∧
      ¬ Covered (intervalsOf settings (toSystemDay day)) x := by
  constructor
  · rintro ⟨v, hv, -⟩
    obtain ⟨w, hw, hday, -⟩ := mem_intervalsOf.mp hv
    rw [hschedule, toSystemDay_inj.mp hday, hnone] at hw
    cases hw
  · rintro ⟨v, hv, -⟩
    obtain ⟨w, hw, hday, -⟩ := mem_intervalsOf.mp hv
    have hother := List.find?_eq_none.mp hnone w hw
    exact hother (decide_eq_true (toSystemDay_inj.mp hday))

/-- What a saved form says of each weekday decides. -/
theorem unchanged_iff_covered (henabled : settings.enabled = true)
    (hpattern : MatchesPattern settings) (hsaved : handleSave (load settings) = some saved) :
    Unchanged settings ↔ ∀ day x, Covered (intervalsOf saved (toSystemDay day)) x ↔
      Covered (intervalsOf settings (toSystemDay day)) x := by
  obtain ⟨henabled', haction, hpattern'⟩ := handleSave_spec hsaved
  have hsame := isAccessAllowedNow_eq_iff henabled' henabled hpattern' hpattern
  constructor
  · rintro ⟨_, hsaved', hallowed, -⟩ day x
    cases hsaved.symm.trans hsaved'
    exact hsame.mp hallowed (toSystemDay day) x
  · intro h
    refine ⟨saved, hsaved, hsame.mpr fun day x => ?_, haction⟩
    obtain ⟨day, rfl⟩ := exists_toSystemDay day
    exact h day x

/-- **Opening and saving changes nothing** exactly for the schedules that the form can show. -/
theorem unchanged_iff (henabled : settings.enabled = true) (hpattern : MatchesPattern settings) :
    Unchanged settings ↔ Shown settings := by
  unfold Shown
  split
  · rename_i hmode
    obtain ⟨saved, hsaved, hschedule⟩ := handleSave_simple hpattern hmode
    obtain ⟨hstart, hstop⟩ := isValidTime_firstTimes hpattern
    obtain ⟨_, _, hstart⟩ := isValidTime_iff.mp hstart
    obtain ⟨_, _, hstop⟩ := isValidTime_iff.mp hstop
    rw [unchanged_iff_covered henabled hpattern hsaved]
    constructor
    · intro h day start hstart stop hstop
      refine covered_iff_mem_Ico.mp fun x => ?_
      rw [← h day x, covered_everyDay hstart hstop hschedule]
    · intro h day x
      have hfills := h day _ (tryParse_hhmm hstart) _ (tryParse_hhmm hstop)
      rw [covered_iff_mem_Ico.mpr hfills,
        covered_everyDay (tryParse_hhmm hstart) (tryParse_hhmm hstop) hschedule]
  · rename_i hmode
    obtain ⟨saved, hsaved, hschedule⟩ := handleSave_custom hpattern hmode
    rw [unchanged_iff_covered henabled hpattern hsaved]
    constructor
    · intro h day w hw start hstart stop hstop
      have hfills := covered_iff_mem_Ico.mp fun x => by
        rw [← h day x, covered_firstOf hschedule hw hstart hstop]
      exact hfills.within
    · intro h day x
      cases hw : firstOf settings day with
      | none =>
        obtain ⟨hsavedNone, hnone⟩ := not_covered_of_none hschedule hw x
        exact iff_of_false hsavedNone hnone
      | some w =>
        obtain ⟨hmem, hday⟩ := firstOf_eq_some hw
        obtain ⟨⟨_, _, hstart⟩, ⟨_, _, hstop⟩⟩ := hpattern w hmem
        have hstart := tryParse_hhmm hstart
        have hstop := tryParse_hhmm hstop
        have hfirst : (_, _) ∈ intervalsOf settings (toSystemDay day) :=
          mem_intervalsOf.mpr ⟨w, hmem, congrArg toSystemDay hday, hstart, hstop⟩
        have hfills := (fills_iff_of_mem hfirst).mpr (h day w hw _ hstart _ hstop)
        rw [covered_firstOf hschedule hw hstart hstop, covered_iff_mem_Ico.mpr hfills]

end Unedited

/-! ## Mondays only -/

/-- 4 March 2024, a Monday, at two o'clock. -/
def afternoon : DateTime := ⟨638451576000000000, by decide⟩

/-- And the day after, at ten. -/
def tuesday : DateTime := ⟨638452296000000000, by decide⟩

def mondayMorning : AccessControlSettings := monday [("09:00", "12:00")]

/-- With a break at noon. -/
def mondayShifts : AccessControlSettings := monday [("09:00", "12:00"), ("13:00", "18:00")]

theorem matchesPattern_monday (windows : List (String × String))
    (h : ∀ w ∈ windows, isValidTime w.1 = true ∧ isValidTime w.2 = true) :
    MatchesPattern (monday windows) := by
  intro w hw
  obtain ⟨times, htimes, rfl⟩ := List.mem_map.mp hw
  obtain ⟨hstart, hstop⟩ := h times htimes
  exact ⟨isValidTime_iff.mp hstart, isValidTime_iff.mp hstop⟩

/-- Opened in custom mode, one window on Mondays stays as it is. -/
theorem unchanged_mondayMorning :
    @Unchanged invariant { mondayMorning with scheduleMode := some .custom } := by
  have hmem : ∀ w ∈ mondayMorning.schedule, w = ⟨.monday, "09:00", "12:00"⟩ := by
    intro w hw
    exact List.mem_singleton.mp hw
  refine (@unchanged_iff invariant _ rfl ?_).mpr ?_
  · exact matchesPattern_monday [("09:00", "12:00")] (by decide)
  · intro day w hw start hstart stop hstop v hv hlt
    obtain ⟨w', hw', -, hv1, hv2⟩ := (@mem_intervalsOf invariant _ _ _).mp hv
    rw [hmem w (firstOf_eq_some hw).1] at hstart hstop
    rw [hmem w' hw'] at hv1 hv2
    cases hstart.symm.trans hv1
    cases hstop.symm.trans hv2
    exact ⟨le_rfl, le_rfl⟩

/-- Without a mode, two windows on Mondays lose the second one, and one window is given to all
    days. -/
theorem not_unchanged_monday : (MatchesPattern mondayShifts ∧ ¬ @Unchanged invariant mondayShifts) ∧
    MatchesPattern mondayMorning ∧ ¬ @Unchanged invariant mondayMorning := by
  refine ⟨⟨matchesPattern_monday _ (by decide), ?_⟩, matchesPattern_monday _ (by decide), ?_⟩
  · rintro ⟨saved, hsaved, hallowed, -⟩
    have hlost : (handleSave (load mondayShifts)).map
        (@isAccessAllowedNow invariant · afternoon) = some false := by decide +kernel
    have hbefore : @isAccessAllowedNow invariant mondayShifts afternoon = true := by decide +kernel
    rw [hsaved, Option.map_some, hallowed, hbefore] at hlost
    cases hlost
  · rintro ⟨saved, hsaved, hallowed, -⟩
    have hgiven : (handleSave (load mondayMorning)).map
        (@isAccessAllowedNow invariant · tuesday) = some true := by decide +kernel
    have hbefore : @isAccessAllowedNow invariant mondayMorning tuesday = false := by decide +kernel
    rw [hsaved, Option.map_some, hallowed, hbefore] at hgiven
    cases hgiven

end Dashboard.AccessControlConfig
