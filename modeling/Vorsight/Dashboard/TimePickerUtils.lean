/-
  THE TIME PICKER'S UTILITIES (client/src/components/ui/time-picker/time-picker-utils.ts), with the
  two functions by which the forms read its dates from a text and write them back
  (AccessControlConfig.tsx, PendingMachineItem.tsx).

  Hours and minutes are handled as texts of two digits: a valid text stays as it is, any other is
  read as a number and brought within its bounds, or, for the arrow keys, behind the other bound.

  What each function makes of a text of two digits is said here once (`getValidHour_padded`,
  `getValid12Hour_padded`, `getValidMinuteOrSecond_padded`, `arrow_padded`), and what is read from a
  valid time (`timeStringToDate_hhmm`).
-/
import Vorsight.Dashboard.AccessControlConfig

namespace Dashboard.TimePicker

open Dashboard.AccessControlConfig (validHour validTens)
open Js Service.AccessControl Time

/-! ## Numbers of two digits -/

inductive TimePickerType
  | minutes | hours | hours12
deriving DecidableEq, Repr

inductive Period
  | am | pm
deriving DecidableEq, Repr

/-- `/^(0[0-9]|1[0-9]|2[0-3])$/.test(value)` -/
def isValidHour (value : String) : Bool :=
  match value.toList with
  | [a, b] => a = '0' && b.isDigit || a = '1' && b.isDigit || a = '2' && ('0' ≤ b && b ≤ '3')
  | _ => false

/-- `/^(0[1-9]|1[0-2])$/.test(value)` -/
def isValid12Hour (value : String) : Bool :=
  match value.toList with
  | [a, b] => a = '0' && ('1' ≤ b && b ≤ '9') || a = '1' && ('0' ≤ b && b ≤ '2')
  | _ => false

/-- `/^[0-5][0-9]$/.test(value)` -/
def isValidMinuteOrSecond (value : String) : Bool :=
  match value.toList with
  | [a, b] => ('0' ≤ a && a ≤ '5') && b.isDigit
  | _ => false

/-- `parseInt(text, 10)`; `none` is `NaN`. -/
def parseDecimal (text : String) : Option Int :=
  let cs := text.toList.dropWhile isWhitespace
  let (negative, cs) := match cs with
    | '-' :: rest => (true, rest)
    | '+' :: rest => (false, rest)
    | _ => (false, cs)
  match leadingDigits 10 cs with
  | [] => none
  | ds =>
      let n : Nat := ds.foldl (fun n d => n * 10 + d) 0
      some (if negative then -n else n)

/-- `text.padStart(2, "0")` -/
def padStart (text : String) : String :=
  String.ofList (List.replicate (2 - text.length) '0') ++ text

structure NumberConfig where
  max : Int
  min : Int := 0
  loop : Bool := false

/-- The number within its bounds, or behind the other bound. -/
def NumberConfig.bring (config : NumberConfig) (n : Int) : Int :=
  if !config.loop then
    let n := if n > config.max then config.max else n
    if n < config.min then config.min else n
  else
    let n := if n > config.max then config.min else n
    if n < config.min then config.max else n

def getValidNumber (value : String) (config : NumberConfig) : String :=
  match parseDecimal value with
  | none => "00"
  | some n => padStart (toString (config.bring n))

def getValidHour (value : String) : String :=
  if isValidHour value then value else getValidNumber value { max := 23 }

def getValid12Hour (value : String) : String :=
  if isValid12Hour value then value else getValidNumber value { min := 1, max := 12 }

def getValidMinuteOrSecond (value : String) : String :=
  if isValidMinuteOrSecond value then value else getValidNumber value { max := 59 }

def getValidArrowNumber (value : String) (min max step : Int) : String :=
  match parseDecimal value with
  | none => "00"
  | some n => getValidNumber (toString (n + step)) { min, max, loop := true }

def getArrowByType (value : String) (step : Int) : TimePickerType → String
  | .minutes => getValidArrowNumber value 0 59 step
  | .hours => getValidArrowNumber value 0 23 step
  | .hours12 => getValidArrowNumber value 1 12 step

/-! ## Dates -/

/-- The local time of a date. -/
structure Clock where
  hour : Nat
  minute : Nat
deriving DecidableEq, Repr

/-- `none` is an invalid date. -/
abbrev Date := Option Clock

/-- The day on which times are set: a time that the clocks skip is set to another one. -/
class LocalDay where
  settle : Clock → Clock

def convert12HourTo24Hour (hour : Int) : Period → Int
  | .pm => if hour ≤ 11 then hour + 12 else hour
  | .am => if hour = 12 then 0 else hour

def display12HourValue : Option Nat → String
  | none => "0NaN"
  | some hours =>
    if hours = 0 ∨ hours = 12 then "12"
    else if hours ≥ 22 then toString (hours - 12)
    else if hours % 12 > 9 then toString hours
    else "0" ++ toString (hours % 12)

/-- `String(n)` -/
def numberText : Option Nat → String
  | some n => toString n
  | none => "NaN"

def getDateByType (date : Date) : TimePickerType → String
  | .minutes => getValidMinuteOrSecond (numberText (date.map (·.minute)))
  | .hours => getValidHour (numberText (date.map (·.hour)))
  | .hours12 => getValid12Hour (display12HourValue (date.map (·.hour)))

section Dates

variable [LocalDay]

/-- A number of minutes from midnight on, on the clock. -/
def ofMinutes (total : Int) : Clock :=
  LocalDay.settle ⟨(total / 60 % 24).toNat, (total % 60).toNat⟩

/-- `date.setHours(hours)`, which leaves an invalid date as it is. -/
def setHoursOf (date : Date) (hours : Option Int) : Date := do
  let c ← date
  let h ← hours
  pure (ofMinutes (h * 60 + c.minute))

def setMinutesOf (date : Date) (minutes : Option Int) : Date := do
  let c ← date
  let m ← minutes
  pure (ofMinutes (c.hour * 60 + m))

def setDateByType (date : Date) (value : String) (type : TimePickerType)
    (period : Option Period) : Date :=
  match type, period with
  | .minutes, _ => setMinutesOf date (parseDecimal (getValidMinuteOrSecond value))
  | .hours, _ => setHoursOf date (parseDecimal (getValidHour value))
  | .hours12, none => date
  | .hours12, some period =>
    setHoursOf date ((parseDecimal (getValid12Hour value)).map (convert12HourTo24Hour · period))

/-- `timeStringToDate`; the outer `none` is `undefined`. -/
def timeStringToDate (timeStr : String) : Option Date :=
  if timeStr = "" then none
  else
    let parts := timeStr.toList.splitOn ':'
    some (do
      let hours ← parts[0]?.bind number
      let minutes ← parts[1]?.bind number
      pure (ofMinutes (hours * 60 + minutes)))

/-- The text that `handleTimeChange` sets. -/
def handleTimeChange (date : Date) : String :=
  padStart (numberText (date.map (·.hour))) ++ ":" ++ padStart (numberText (date.map (·.minute)))

end Dates

/-! ## The utilities on two digits -/

theorem foldl_digits (cs : List Char) :
    (cs.map fun c => c.toNat - '0'.toNat).foldl (fun n d => n * 10 + d) 0 =
      Nat.ofDigitChars 10 cs 0 := by
  simp only [Nat.ofDigitChars_eq_foldl, List.foldl_map, Nat.mul_comm]

theorem parseDecimal_digits {text : String} {cs : List Char} (htext : text.toList = cs)
    (hne : cs ≠ []) (h : ∀ c ∈ cs, c.isDigit = true) :
    parseDecimal text = some ((Nat.ofDigitChars 10 cs 0 : Nat) : Int) := by
  obtain ⟨c, rest, rfl⟩ := List.exists_cons_of_ne_nil hne
  have hc := h c List.mem_cons_self
  have hdrop : (c :: rest).dropWhile isWhitespace = c :: rest := by
    rw [List.dropWhile_cons, isWhitespace_digit hc]
    rfl
  have hsign : (match c :: rest with
      | '-' :: rest => (true, rest)
      | '+' :: rest => (false, rest)
      | _ => (false, c :: rest)) = (false, c :: rest) := by
    split
    · rename_i heq
      rw [(List.cons.inj heq).1] at hc
      exact absurd hc (by decide)
    · rename_i heq
      rw [(List.cons.inj heq).1] at hc
      exact absurd hc (by decide)
    · rfl
  unfold parseDecimal
  rw [htext, hdrop]
  dsimp only
  rw [hsign]
  dsimp only
  rw [leadingDigits_digits h, ← foldl_digits]
  rfl

theorem parseDecimal_toString (n : Nat) : parseDecimal (toString n) = some (n : Int) := by
  have hne : Nat.toDigits 10 n ≠ [] := List.ne_nil_of_length_pos Nat.length_toDigits_pos
  have htoString : (toString n).toList = Nat.toDigits 10 n := Nat.toList_repr
  rw [parseDecimal_digits htoString hne fun c hc =>
    Nat.isDigit_of_mem_toDigits (by decide) (by decide) hc,
    Nat.ofDigitChars_toDigits (by decide) (by decide)]

theorem toList_toString {n : Nat} (hn : n < 100) : (toString n).toList =
    if n < 10 then [Nat.digitChar n] else [Nat.digitChar (n / 10), Nat.digitChar (n % 10)] := by
  have htoString : (toString n).toList = Nat.toDigits 10 n := Nat.toList_repr
  rw [htoString]
  split
  · rename_i h
    exact Nat.toDigits_of_lt_base h
  · rw [Nat.toDigits_of_base_le (by decide) (by omega), Nat.toDigits_of_lt_base (by omega)]
    rfl

theorem toList_padded_two {n : Nat} (hn : n < 100) :
    (padded 2 n).toList = [Nat.digitChar (n / 10), Nat.digitChar (n % 10)] := by
  rw [padded, String.toList_append, String.toList_ofList, ← String.length_toList,
    toList_toString hn]
  split
  · rename_i h
    rw [Nat.div_eq_of_lt h, Nat.mod_eq_of_lt h]
    rfl
  · rfl

theorem toString_eq_padded {n : Nat} (hn : n < 100) (h : ¬ n < 10) : toString n = padded 2 n := by
  rw [← String.toList_inj, toList_toString hn, toList_padded_two hn, if_neg h]

theorem zero_append_toString {n : Nat} (h : n < 10) : "0" ++ toString n = padded 2 n := by
  rw [← String.toList_inj, String.toList_append, toList_toString (by omega), if_pos h,
    toList_padded_two (by omega), Nat.div_eq_of_lt h, Nat.mod_eq_of_lt h]
  rfl

theorem parseDecimal_padded {n : Nat} (hn : n < 100) :
    parseDecimal (padded 2 n) = some (n : Int) := by
  by_cases h : n < 10
  · have hall : ∀ n < 10, Nat.ofDigitChars 10 [Nat.digitChar 0, Nat.digitChar n] 0 = n := by
      decide
    rw [parseDecimal_digits rfl (by simp [toList_padded_two hn]) fun c => isDigit_of_mem_padded,
      toList_padded_two hn, Nat.div_eq_of_lt h, Nat.mod_eq_of_lt h, hall n h]
  · rw [← toString_eq_padded hn h, parseDecimal_toString]

/-- A number that is brought to `m`. -/
theorem getValidNumber_eq {text : String} {config : NumberConfig} {n : Int} {m : Nat}
    (hparse : parseDecimal text = some n) (hm : config.bring n = m) :
    getValidNumber text config = padded 2 m := by
  rw [getValidNumber, hparse]
  show padStart (toString (config.bring n)) = padded 2 m
  rw [hm]
  rfl

/-- The three fields in common: a valid text stays, and any other is brought within the bounds. -/
theorem valid_padded {valid : String → Bool} {config : NumberConfig} {n m : Nat} (hn : n < 100)
    (hvalid : valid (padded 2 n) = true → m = n) (hm : config.bring n = m) :
    (if valid (padded 2 n) then padded 2 n else getValidNumber (padded 2 n) config) =
      padded 2 m := by
  split
  · rename_i h
    rw [hvalid h]
  · exact getValidNumber_eq (parseDecimal_padded hn) hm

theorem getValidHour_padded {n : Nat} (hn : n < 100) :
    getValidHour (padded 2 n) = padded 2 (min n 23) := by
  refine valid_padded hn (fun hvalid => ?_) ?_
  · rw [isValidHour, toList_padded_two hn] at hvalid
    have hvalid' := (validHour (n / 10) (by omega) (n % 10) (by omega)).symm.trans hvalid
    have hlt := of_decide_eq_true hvalid'
    omega
  · simp only [NumberConfig.bring, Bool.not_false, if_true]
    split <;> split <;> omega

theorem getValid12Hour_padded {n : Nat} (hn : n < 100) :
    getValid12Hour (padded 2 n) = padded 2 (max 1 (min n 12)) := by
  have hall : ∀ a < 10, ∀ b < 10, (Nat.digitChar a = '0' && ('1' ≤ Nat.digitChar b &&
      Nat.digitChar b ≤ '9') || Nat.digitChar a = '1' && ('0' ≤ Nat.digitChar b &&
        Nat.digitChar b ≤ '2')) = decide (1 ≤ 10 * a + b ∧ 10 * a + b ≤ 12) := by
    decide
  refine valid_padded hn (fun hvalid => ?_) ?_
  · rw [isValid12Hour, toList_padded_two hn] at hvalid
    have hvalid' := (hall (n / 10) (by omega) (n % 10) (by omega)).symm.trans hvalid
    have hle := of_decide_eq_true hvalid'
    omega
  · simp only [NumberConfig.bring, Bool.not_false, if_true]
    split <;> split <;> omega

theorem getValidMinuteOrSecond_padded {n : Nat} (hn : n < 100) :
    getValidMinuteOrSecond (padded 2 n) = padded 2 (min n 59) := by
  refine valid_padded hn (fun hvalid => ?_) ?_
  · rw [isValidMinuteOrSecond, toList_padded_two hn] at hvalid
    have htens := (Bool.and_eq_true _ _).mp hvalid
    have hvalid' := (validTens (n / 10) (by omega)).symm.trans htens.1
    have hlt := of_decide_eq_true hvalid'
    omega
  · simp only [NumberConfig.bring, Bool.not_false, if_true]
    split <;> split <;> omega

/-- What is shown of a number that has not been padded. -/
theorem valid_toString {valid : String → Bool} {config : NumberConfig} {n : Nat} (hn : n < 60)
    (hone : ∀ text : String, text.toList.length = 1 → valid text = false)
    (hpadded : (if valid (padded 2 n) then padded 2 n else getValidNumber (padded 2 n) config) =
      padded 2 n) (hm : config.bring n = n) :
    (if valid (toString n) then toString n else getValidNumber (toString n) config) =
      padded 2 n := by
  by_cases h : n < 10
  · have hinvalid := hone (toString n) (by rw [toList_toString (by omega), if_pos h]; rfl)
    rw [hinvalid]
    exact getValidNumber_eq (parseDecimal_toString n) hm
  · rw [toString_eq_padded (by omega) h]
    exact hpadded

theorem getValidHour_toString {hour : Nat} (hhour : hour < 24) :
    getValidHour (toString hour) = padded 2 hour := by
  have hpadded := getValidHour_padded (n := hour) (by omega)
  rw [Nat.min_eq_left (by omega)] at hpadded
  refine valid_toString (by omega) (fun text hlength => ?_) hpadded ?_
  · obtain ⟨c, hc⟩ := List.length_eq_one_iff.mp hlength
    simp [isValidHour, hc]
  · simp only [NumberConfig.bring, Bool.not_false, if_true]
    split <;> split <;> omega

theorem getValidMinuteOrSecond_toString {minute : Nat} (hminute : minute < 60) :
    getValidMinuteOrSecond (toString minute) = padded 2 minute := by
  have hpadded := getValidMinuteOrSecond_padded (n := minute) (by omega)
  rw [Nat.min_eq_left (by omega)] at hpadded
  refine valid_toString hminute (fun text hlength => ?_) hpadded ?_
  · obtain ⟨c, hc⟩ := List.length_eq_one_iff.mp hlength
    simp [isValidMinuteOrSecond, hc]
  · simp only [NumberConfig.bring, Bool.not_false, if_true]
    split <;> split <;> omega

theorem display12HourValue_eq {hour : Nat} (hhour : hour < 24) :
    display12HourValue (some hour) = padded 2 ((hour + 11) % 12 + 1) := by
  show (if hour = 0 ∨ hour = 12 then "12"
    else if hour ≥ 22 then toString (hour - 12)
    else if hour % 12 > 9 then toString hour
    else "0" ++ toString (hour % 12)) = _
  split
  · rw [show (hour + 11) % 12 + 1 = 12 by omega]
    rfl
  split
  · rw [show (hour + 11) % 12 + 1 = hour - 12 by omega,
      toString_eq_padded (by omega) (by omega)]
  split
  · rw [show (hour + 11) % 12 + 1 = hour by omega, toString_eq_padded (by omega) (by omega)]
  · rw [show (hour + 11) % 12 + 1 = hour % 12 by omega, zero_append_toString (by omega)]

theorem getValid12Hour_display {hour : Nat} (hhour : hour < 24) :
    getValid12Hour (display12HourValue (some hour)) = padded 2 ((hour + 11) % 12 + 1) := by
  rw [display12HourValue_eq hhour, getValid12Hour_padded (by omega),
    show max 1 (min ((hour + 11) % 12 + 1) 12) = (hour + 11) % 12 + 1 by omega]

theorem parseDecimal_int {n : Int} (h : -1 ≤ n) : parseDecimal (toString n) = some n := by
  by_cases hneg : n = -1
  · subst hneg
    decide
  · obtain ⟨m, rfl⟩ := Int.eq_ofNat_of_zero_le (show 0 ≤ n by omega)
    exact parseDecimal_toString m

/-- An arrow, from `n` to `m`. -/
theorem getValidArrowNumber_eq {n m : Nat} {min max step : Int} (hn : n < 100)
    (hstep : -1 ≤ n + step)
    (hm : ({ min, max, loop := true } : NumberConfig).bring (n + step) = m) :
    getValidArrowNumber (padded 2 n) min max step = padded 2 m := by
  rw [getValidArrowNumber, parseDecimal_padded hn]
  exact getValidNumber_eq (parseDecimal_int hstep) hm

theorem bring_loop (min max n : Int) :
    ({ min, max, loop := true } : NumberConfig).bring n =
      if n > max then min else if n < min then max else n := by
  simp only [NumberConfig.bring, Bool.not_true, Bool.false_eq_true, if_false]
  split
  · rw [if_neg (by omega)]
  · rfl

/-- An arrow key goes one on or one back, and from one end to the other. -/
theorem arrow_padded {min max n : Nat} (hle : min ≤ n) (hmax : n ≤ max) (hlt : max < 100) :
    getValidArrowNumber (padded 2 n) min max 1 =
        padded 2 (if n = max then min else n + 1) ∧
      getValidArrowNumber (padded 2 n) min max (-1) =
        padded 2 (if n = min then max else n - 1) := by
  constructor
  · refine getValidArrowNumber_eq (by omega) (by omega) ?_
    rw [bring_loop]
    by_cases h : n = max
    · rw [if_pos (by omega), if_pos h]
    · rw [if_neg (by omega), if_neg (by omega), if_neg h]
      rfl
  · refine getValidArrowNumber_eq (by omega) (by omega) ?_
    rw [bring_loop, if_neg (by omega)]
    by_cases h : n = min
    · rw [if_pos (by omega), if_pos h]
    · rw [if_neg (by omega), if_neg h]
      omega

/-! ## The dates of valid texts -/

theorem splitOn_colon {xs ys : List Char} (hxs : ':' ∉ xs) (hys : ':' ∉ ys) :
    (xs ++ ':' :: ys).splitOn ':' = [xs, ys] := by
  have hnone : ∀ {zs : List Char}, ':' ∉ zs → ∀ c ∈ zs, (c == ':') = false := by
    intro zs hzs c hc
    rw [beq_eq_false_iff_ne]
    rintro rfl
    exact hzs hc
  rw [List.splitOn, List.splitOnP_append_cons_of_forall_mem (hnone hxs) ':' (by decide),
    List.splitOnP_eq_singleton (hnone hys)]

/-- A text of digits is a number, and has no colon. -/
theorem number_digits {cs : List Char} (h : ∀ c ∈ cs, c.isDigit = true) :
    number cs = some ((Nat.ofDigitChars 10 cs 0 : Nat) : Int) ∧ ':' ∉ cs := by
  constructor
  · rw [number, leadingDigits_digits h, List.length_map]
    simp only [if_true, foldl_digits]
  · intro hmem
    exact absurd (h ':' hmem) (by decide)

theorem number_toString (n : Nat) :
    number (toString n).toList = some (n : Int) ∧ ':' ∉ (toString n).toList := by
  have htoString : (toString n).toList = Nat.toDigits 10 n := Nat.toList_repr
  have hnumber := number_digits fun c (hc : c ∈ Nat.toDigits 10 n) =>
    Nat.isDigit_of_mem_toDigits (by decide) (by decide) hc
  rw [Nat.ofDigitChars_toDigits (by decide) (by decide)] at hnumber
  rw [htoString]
  exact hnumber

theorem number_padded {n : Nat} (hn : n < 100) :
    number (padded 2 n).toList = some (n : Int) ∧ ':' ∉ (padded 2 n).toList := by
  have hparse := parseDecimal_padded hn
  have hdigits : ∀ c ∈ (padded 2 n).toList, c.isDigit = true := fun c => isDigit_of_mem_padded
  rw [parseDecimal_digits rfl (by simp [toList_padded_two hn]) hdigits] at hparse
  rw [← hparse]
  exact number_digits hdigits

theorem handleTimeChange_clock (hhour : hour < 24) (hminute : minute < 60) :
    IsHHmm (handleTimeChange (some ⟨hour, minute⟩)) hour minute := by
  refine ⟨hhour, hminute, Or.inl ?_⟩
  show padStart (numberText (some hour)) ++ ":" ++ padStart (numberText (some minute)) = _
  rfl

section Days

variable [LocalDay] {hour minute : Nat} {text : String}

/-- A day on which the clocks are not changed. -/
def Plain : Prop := ∀ c : Clock, LocalDay.settle c = c

theorem ofMinutes_clock (hday : Plain) (hhour : hour < 24) (hminute : minute < 60) :
    ofMinutes ((hour : Int) * 60 + minute) = ⟨hour, minute⟩ := by
  rw [ofMinutes, hday, Clock.mk.injEq]
  omega

theorem timeStringToDate_hhmm (hday : Plain) (h : IsHHmm text hour minute) :
    timeStringToDate text = some (some ⟨hour, minute⟩) := by
  obtain ⟨hhour, hminute, htext⟩ := h
  have hM := number_padded (n := minute) (by omega)
  have hparts : ∃ hs, text.toList = hs ++ ':' :: (padded 2 minute).toList ∧
      number hs = some (hour : Int) ∧ ':' ∉ hs := by
    rcases htext with rfl | rfl
    · refine ⟨(padded 2 hour).toList, ?_, number_padded (by omega)⟩
      simp [String.toList_append]
    · refine ⟨(toString hour).toList, ?_, number_toString hour⟩
      simp [String.toList_append]
  obtain ⟨hs, hlist, hnumber, hcolon⟩ := hparts
  have hne : text ≠ "" := by
    rintro rfl
    simp at hlist
  simp only [timeStringToDate, if_neg hne, hlist, splitOn_colon hcolon hM.2]
  simp [hnumber, hM.1, ofMinutes_clock hday hhour hminute]

end Days

end Dashboard.TimePicker
