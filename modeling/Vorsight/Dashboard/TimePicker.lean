/-
  THE TIME PICKER (client/src/components/ui/time-picker/).

  The picker has no state of its own for the time: at each key the text is read into a date, the
  date into a field of two characters, the field is changed as text, and all of it goes back again.

  1. **Program** — `handleKeyDown` (one field), `step` (the picker with its fields, its timers and
     the period's menu).

  2. **What it is for** (`Dial`) — an hour and a minute, and in each field the digit that waits for
     a second one.

  3. **Refinement** (`shows_dial`) — on a day on which the clocks are not changed, the text is at
     any time what the dial shows, in both formats.  The crux is `calculateNewValue_padded`: in the
     12-hour field a first 0 is shown as 01, and `prevIntKey` tells it from a first 1.

  4. **AM and PM** (`period_of_run`) — no key changes the period.  Its menu does, each time, and
     whichever item is chosen.
-/
import Vorsight.Dashboard.TimePickerUtils
import Vorsight.Library.Run

namespace Dashboard.TimePicker

open Runs Service.AccessControl Time

section Picker

variable [LocalDay]

/-! ## A field -/

inductive Key
  | tab | arrowUp | arrowDown | arrowLeft | arrowRight
  /-- A key that gives one character. -/
  | char (c : Char)
  | other
deriving DecidableEq, Repr

structure Input where
  /-- A first digit has been typed, less than two seconds ago. -/
  flag : Bool := false
  prevIntKey : Char := '0'
deriving DecidableEq, Repr

/-- `text.slice(1, 2)` -/
def slice (text : String) : String := String.ofList ((text.toList.drop 1).take 1)

def calculateNewValue (picker : TimePickerType) (input : Input) (calculatedValue : String)
    (key : Char) : String :=
  if picker = .hours12 ∧ input.flag = true ∧ slice calculatedValue = "1" ∧
      input.prevIntKey = '0' then
    "0" ++ String.singleton key
  else if !input.flag then "0" ++ String.singleton key
  else slice calculatedValue ++ String.singleton key

/-- The field after a key, and the date it sets. -/
def handleKeyDown (picker : TimePickerType) (period : Option Period) (date : Date)
    (input : Input) (key : Key) : Input × Option Date :=
  let calculatedValue := getDateByType date picker
  match key with
  | .arrowUp => ({ input with flag := false },
      some (setDateByType date (getArrowByType calculatedValue 1 picker) picker period))
  | .arrowDown => ({ input with flag := false },
      some (setDateByType date (getArrowByType calculatedValue (-1) picker) picker period))
  | .char c =>
    if c.isDigit then
      ({ flag := !input.flag
         prevIntKey := if picker = .hours12 then c else input.prevIntKey },
        some (setDateByType date (calculateNewValue picker input calculatedValue c) picker period))
    else (input, none)
  | _ => (input, none)

/-! ## The picker -/

inductive Field
  | hour | minute
deriving DecidableEq, Repr

structure State where
  /-- The text of the form. -/
  text : String
  period : Period := .pm
  hour : Input := {}
  minute : Input := {}
deriving DecidableEq, Repr

inductive Event
  | key (field : Field) (key : Key)
  /-- Two seconds have passed since the first digit. -/
  | timeout (field : Field)
  /-- An item of the period's menu is chosen. -/
  | choose (value : Period)
deriving DecidableEq, Repr

/-- The effect that runs after each rendering. -/
def syncPeriod (s : State) : State :=
  match timeStringToDate s.text with
  | none => s
  | some date => { s with period := if (date.map (·.hour)).any (12 ≤ ·) then .pm else .am }

/-- The date of a field; without one it is midnight. -/
def fieldDate (s : State) : Date := (timeStringToDate s.text).getD (some ⟨0, 0⟩)

def setText (s : State) : Option Date → State
  | some date => { s with text := handleTimeChange date }
  | none => s

def hourPicker (format12 : Bool) : TimePickerType := if format12 then .hours12 else .hours

/-- What the handlers do, before the effect. -/
def handle (format12 : Bool) (s : State) : Event → Option State
  | .key .hour key =>
    let (input, date) :=
      handleKeyDown (hourPicker format12) (some s.period) (fieldDate s) s.hour key
    some (setText { s with hour := input } date)
  | .key .minute key =>
    let (input, date) := handleKeyDown .minutes none (fieldDate s) s.minute key
    some (setText { s with minute := input } date)
  | .timeout .hour => if s.hour.flag then some { s with hour.flag := false } else none
  | .timeout .minute => if s.minute.flag then some { s with minute.flag := false } else none
  | .choose value =>
    if format12 then
      match timeStringToDate s.text with
      | none => some { s with period := value }
      | some date =>
        let hours := display12HourValue (date.map (·.hour))
        let other := if s.period = .am then .pm else .am
        some (setText { s with period := value }
          (some (setDateByType date hours .hours12 (some other))))
    else none

def step (format12 : Bool) (s : State) (event : Event) : Option State :=
  (handle format12 s event).map syncPeriod

/-- The picker when it has been rendered first. -/
def mount (text : String) : State := syncPeriod { text }

/-! ## What it is for -/

/-- A time, and the digits that wait for a second one. -/
structure Dial where
  hour : Nat
  minute : Nat
  hourDigit : Option Nat := none
  minuteDigit : Option Nat := none
deriving DecidableEq, Repr

/-- The number of a digit's key. -/
def digit (c : Char) : Nat := c.toNat - '0'.toNat

/-- The number in the field, with the digit `d`. -/
def typed (digit : Option Nat) (d : Nat) : Nat := digit.getD 0 * 10 + d

/-- A first digit waits, and a second one does not. -/
def waiting (digit : Option Nat) (d : Nat) : Option Nat := if digit.isSome then none else some d

/-- The hour, when the number in its field is `n`: in the 12-hour format it stays in its half of the
    day. -/
def hourOf (format12 : Bool) (hour n : Nat) : Nat :=
  if format12 then hour / 12 * 12 + max 1 (min n 12) % 12 else min n 23

/-- The hour, turned on by some steps. -/
def turnHour (format12 : Bool) (hour steps : Nat) : Nat :=
  if format12 then hour / 12 * 12 + (hour + steps) % 12 else (hour + steps) % 24

/-- A key in the hour's field. -/
def Dial.pressHour (format12 : Bool) (d : Dial) : Key → Dial
  | .arrowUp => { d with hour := turnHour format12 d.hour 1, hourDigit := none }
  | .arrowDown =>
    { d with hour := turnHour format12 d.hour (if format12 then 11 else 23), hourDigit := none }
  | .char c =>
    if c.isDigit then
      { d with
        hour := hourOf format12 d.hour (typed d.hourDigit (digit c))
        hourDigit := waiting d.hourDigit (digit c) }
    else d
  | _ => d

def Dial.pressMinute (d : Dial) : Key → Dial
  | .arrowUp => { d with minute := (d.minute + 1) % 60, minuteDigit := none }
  | .arrowDown => { d with minute := (d.minute + 59) % 60, minuteDigit := none }
  | .char c =>
    if c.isDigit then
      { d with
        minute := min (typed d.minuteDigit (digit c)) 59
        minuteDigit := waiting d.minuteDigit (digit c) }
    else d
  | _ => d

def Dial.step (format12 : Bool) (d : Dial) : Event → Dial
  | .key .hour key => d.pressHour format12 key
  | .key .minute key => d.pressMinute key
  | .timeout .hour => { d with hourDigit := none }
  | .timeout .minute => { d with minuteDigit := none }
  | .choose _ => { d with hour := (d.hour + 12) % 24 }

end Picker

/-! ## The texts of the fields -/

theorem slice_padded {n : Nat} (hn : n < 100) :
    slice (padded 2 n) = String.singleton (Nat.digitChar (n % 10)) := by
  rw [slice, toList_padded_two hn, ← String.toList_inj]
  rfl

theorem singleton_append_singleton {a d : Nat} (ha : a < 10) (hd : d < 10) :
    String.singleton (Nat.digitChar a) ++ String.singleton (Nat.digitChar d) =
      padded 2 (a * 10 + d) := by
  rw [← String.toList_inj, toList_padded_two (by omega), show (a * 10 + d) / 10 = a by omega,
    show (a * 10 + d) % 10 = d by omega, String.toList_append]
  simp

/-- What a field shows of an hour or a minute. -/
def shown : TimePickerType → Nat → Nat
  | .hours12, hour => (hour + 11) % 12 + 1
  | _, n => n

/-- How many values a field's number has. -/
def range : TimePickerType → Nat
  | .minutes => 60
  | _ => 24

variable {hour minute n : Nat} {text : String} {format12 : Bool} {s s' : State} {d : Dial}

/-! ## The number in a field -/

/-- The period of an hour. -/
def half (hour : Nat) : Period := if hour < 12 then .am else .pm

theorem convert12HourTo24Hour_half {hour n : Nat} (hhour : hour < 24) (hn : 1 ≤ n) (hle : n ≤ 12) :
    convert12HourTo24Hour (n : Int) (half hour) = ((hour / 12 * 12 + n % 12 : Nat) : Int) := by
  unfold half
  by_cases hmorning : hour < 12
  · rw [if_pos hmorning]
    show (if (n : Int) = 12 then 0 else (n : Int)) = _
    split <;> omega
  · rw [if_neg hmorning]
    show (if (n : Int) ≤ 11 then (n : Int) + 12 else (n : Int)) = _
    split <;> omega

theorem hourOf_lt (format12 : Bool) {hour : Nat} (hhour : hour < 24) (n : Nat) :
    hourOf format12 hour n < 24 := by
  unfold hourOf
  split <;> omega

theorem turnHour_lt (format12 : Bool) {hour : Nat} (hhour : hour < 24) (steps : Nat) :
    turnHour format12 hour steps < 24 := by
  unfold turnHour
  split <;> omega

theorem shown_hour_lt (format12 : Bool) {hour : Nat} (hhour : hour < 24) :
    shown (hourPicker format12) hour < 24 := by
  cases format12 with
  | false => exact hhour
  | true =>
    show (hour + 11) % 12 + 1 < 24
    omega

/-- What is shown of the hour. -/
theorem getDateByType_hour (format12 : Bool) (hhour : hour < 24) (minute : Nat) :
    getDateByType (some ⟨hour, minute⟩) (hourPicker format12) =
      padded 2 (shown (hourPicker format12) hour) := by
  cases format12 with
  | false => exact getValidHour_toString hhour
  | true => exact getValid12Hour_display hhour

/-- An hour that is turned on comes out of its field as it went in. -/
theorem hourOf_shown (format12 : Bool) (hour steps : Nat) :
    hourOf format12 hour (shown (hourPicker format12) (turnHour format12 hour steps)) =
      turnHour format12 hour steps := by
  cases format12 with
  | false =>
    show min ((hour + steps) % 24) 23 = (hour + steps) % 24
    omega
  | true =>
    show hour / 12 * 12 + max 1 (min ((hour / 12 * 12 + (hour + steps) % 12 + 11) % 12 + 1) 12) % 12
      = hour / 12 * 12 + (hour + steps) % 12
    omega

theorem shown_hourOf (format12 : Bool) (hour n : Nat) :
    shown (hourPicker format12) (hourOf format12 hour n) =
      if hourPicker format12 = .hours12 then max 1 (min n 12)
      else min n (range (hourPicker format12) - 1) := by
  cases format12 with
  | false => rfl
  | true =>
    show (hour / 12 * 12 + max 1 (min n 12) % 12 + 11) % 12 + 1 = max 1 (min n 12)
    omega

theorem arrows_hour (format12 : Bool) (hhour : hour < 24) :
    getArrowByType (padded 2 (shown (hourPicker format12) hour)) 1 (hourPicker format12) =
        padded 2 (shown (hourPicker format12) (turnHour format12 hour 1)) ∧
      getArrowByType (padded 2 (shown (hourPicker format12) hour)) (-1) (hourPicker format12) =
        padded 2 (shown (hourPicker format12)
          (turnHour format12 hour (if format12 then 11 else 23))) := by
  cases format12 with
  | false =>
    obtain ⟨hup, hdown⟩ := arrow_padded (Nat.zero_le hour) (Nat.le_of_lt_succ hhour) (by decide)
    refine ⟨hup.trans (congrArg (padded 2) ?_), hdown.trans (congrArg (padded 2) ?_)⟩
    · show (if hour = 23 then 0 else hour + 1) = (hour + 1) % 24
      split <;> omega
    · show (if hour = 0 then 23 else hour - 1) = (hour + 23) % 24
      split <;> omega
  | true =>
    have hlow : 1 ≤ (hour + 11) % 12 + 1 := by omega
    have hhigh : (hour + 11) % 12 + 1 ≤ 12 := by omega
    obtain ⟨hup, hdown⟩ := arrow_padded hlow hhigh (by decide)
    refine ⟨hup.trans (congrArg (padded 2) ?_), hdown.trans (congrArg (padded 2) ?_)⟩
    · show (if (hour + 11) % 12 + 1 = 12 then 1 else (hour + 11) % 12 + 1 + 1) =
        (hour / 12 * 12 + (hour + 1) % 12 + 11) % 12 + 1
      split <;> omega
    · show (if (hour + 11) % 12 + 1 = 1 then 12 else (hour + 11) % 12 + 1 - 1) =
        (hour / 12 * 12 + (hour + 11) % 12 + 11) % 12 + 1
      split <;> omega

theorem arrows_minutes {minute : Nat} (hminute : minute < 60) :
    getArrowByType (padded 2 minute) 1 .minutes = padded 2 ((minute + 1) % 60) ∧
      getArrowByType (padded 2 minute) (-1) .minutes = padded 2 ((minute + 59) % 60) := by
  obtain ⟨hup, hdown⟩ :=
    arrow_padded (Nat.zero_le minute) (Nat.le_of_lt_succ hminute) (by decide)
  refine ⟨hup.trans (congrArg (padded 2) ?_), hdown.trans (congrArg (padded 2) ?_)⟩
  · show (if minute = 59 then 0 else minute + 1) = (minute + 1) % 60
    split <;> omega
  · show (if minute = 0 then 59 else minute - 1) = (minute + 59) % 60
    split <;> omega

/-! ## The digit that waits -/

/-- The field waits for a second digit, or for a first one. -/
def Waits (picker : TimePickerType) (input : Input) (value : Nat) : Option Nat → Prop
  | none => input.flag = false
  | some a => a < 10 ∧ input.flag = true ∧
      if picker = .hours12 then input.prevIntKey = Nat.digitChar a ∧ shown picker value = max 1 a
      else shown picker value = a

/-- **The crux: the number with the next digit.** -/
theorem calculateNewValue_padded {picker : TimePickerType} {input : Input} {value : Nat}
    {digit : Option Nat} (h : Waits picker input value digit) {d : Nat} (hd : d < 10) :
    calculateNewValue picker input (padded 2 (shown picker value)) (Nat.digitChar d) =
      padded 2 (typed digit d) := by
  have hfirst : "0" ++ String.singleton (Nat.digitChar d) = padded 2 (0 * 10 + d) :=
    @singleton_append_singleton 0 d (by decide) hd
  unfold calculateNewValue
  cases digit with
  | none =>
    have hflag : input.flag = false := h
    rw [if_neg (by simp [hflag]), if_pos (by simp [hflag])]
    exact hfirst
  | some a =>
    obtain ⟨ha, hflag, hvalue⟩ := h
    by_cases hpicker : picker = .hours12
    · rw [if_pos hpicker] at hvalue
      obtain ⟨hprev, hshown⟩ := hvalue
      rw [hshown, slice_padded (by omega)]
      by_cases hzero : a = 0
      · subst hzero
        rw [if_pos ⟨hpicker, hflag, by decide, hprev.trans rfl⟩]
        exact hfirst
      · have hnot : input.prevIntKey ≠ '0' := by
          have hall : ∀ a < 10, a ≠ 0 → Nat.digitChar a ≠ '0' := by decide
          rw [hprev]
          exact hall a ha hzero
        rw [if_neg fun hif => hnot hif.2.2.2, if_neg (by simp [hflag]),
          show max 1 a % 10 = a by omega]
        exact singleton_append_singleton ha hd
    · rw [if_neg hpicker] at hvalue
      rw [if_neg fun hif => hpicker hif.1, if_neg (by simp [hflag]), hvalue,
        slice_padded (by omega), Nat.mod_eq_of_lt ha]
      exact singleton_append_singleton ha hd

theorem typed_lt {picker : TimePickerType} {input : Input} {value : Nat} {digit : Option Nat}
    (h : Waits picker input value digit) {n : Nat} (hn : n < 10) : typed digit n < 100 := by
  cases digit with
  | none =>
    show 0 * 10 + n < 100
    omega
  | some a =>
    have ha := h.1
    show a * 10 + n < 100
    omega

theorem waits_typed {picker : TimePickerType} {input : Input} {value value' : Nat}
    {digit : Option Nat} (h : Waits picker input value digit) {d : Nat} (hd : d < 10)
    (hvalue : shown picker value' = if picker = .hours12 then max 1 (min (typed digit d) 12) else
      min (typed digit d) (range picker - 1)) :
    Waits picker { flag := !input.flag,
                   prevIntKey := if picker = .hours12 then Nat.digitChar d else input.prevIntKey }
      value' (waiting digit d) := by
  cases digit with
  | none =>
    have hflag : input.flag = false := h
    refine ⟨hd, by simp [hflag], ?_⟩
    rw [hvalue]
    cases picker with
    | hours12 =>
      refine ⟨rfl, ?_⟩
      show max 1 (min (0 * 10 + d) 12) = max 1 d
      omega
    | _ =>
      show min (0 * 10 + d) _ = d
      simp only [range]
      omega
  | some a => simp [Waits, waiting, h.2.1]

/-- The other half of the day is shown as this one. -/
theorem waits_choose {input : Input} {digit : Option Nat} (h : Waits .hours12 input hour digit) :
    Waits .hours12 input ((hour + 12) % 24) digit := by
  have hshown : shown .hours12 ((hour + 12) % 24) = shown .hours12 hour := by
    show ((hour + 12) % 24 + 11) % 12 + 1 = (hour + 11) % 12 + 1
    omega
  cases digit with
  | none => exact h
  | some a =>
    simp only [Waits, hshown]
    exact h

/-- A key of a digit. -/
theorem digit_of_key {c : Char} (h : c.isDigit = true) :
    digit c < 10 ∧ c = Nat.digitChar (digit c) := by
  obtain ⟨hlow, hhigh⟩ := Char.isDigit_iff_toNat.mp h
  have hlow : 48 ≤ c.toNat := hlow
  have hhigh : c.toNat ≤ 57 := hhigh
  have hall : ∀ n < 58, 48 ≤ n → Char.ofNat n = Nat.digitChar (n - 48) := by decide
  refine ⟨?_, ?_⟩
  · show c.toNat - 48 < 10
    omega
  · show c = Nat.digitChar (c.toNat - 48)
    rw [← hall c.toNat (by omega) hlow, Char.ofNat_toNat]

/-! ## The dial -/

/-- What a key in the hour's field does: a number is set, or the hour is turned on. -/
theorem Dial.pressHour_cases (format12 : Bool) (d : Dial) (key : Key) :
    ((d.pressHour format12 key).minute = d.minute ∧
        (d.pressHour format12 key).minuteDigit = d.minuteDigit) ∧
      ((d.pressHour format12 key).hour = d.hour ∨
        (∃ n, (d.pressHour format12 key).hour = hourOf format12 d.hour n) ∨
          ∃ steps, (d.pressHour format12 key).hour = turnHour format12 d.hour steps) := by
  cases key with
  | arrowUp => exact ⟨⟨rfl, rfl⟩, Or.inr (Or.inr ⟨_, rfl⟩)⟩
  | arrowDown => exact ⟨⟨rfl, rfl⟩, Or.inr (Or.inr ⟨_, rfl⟩)⟩
  | char c =>
    rw [Dial.pressHour]
    split
    · exact ⟨⟨rfl, rfl⟩, Or.inr (Or.inl ⟨_, rfl⟩)⟩
    · exact ⟨⟨rfl, rfl⟩, Or.inl rfl⟩
  | _ => exact ⟨⟨rfl, rfl⟩, Or.inl rfl⟩

theorem Dial.pressMinute_cases (hminute : d.minute < 60) (key : Key) :
    ((d.pressMinute key).hour = d.hour ∧ (d.pressMinute key).hourDigit = d.hourDigit) ∧
      (d.pressMinute key).minute < 60 := by
  cases key with
  | arrowUp => exact ⟨⟨rfl, rfl⟩, Nat.mod_lt _ (by decide)⟩
  | arrowDown => exact ⟨⟨rfl, rfl⟩, Nat.mod_lt _ (by decide)⟩
  | char c =>
    rw [Dial.pressMinute]
    split
    · exact ⟨⟨rfl, rfl⟩, Nat.lt_succ_of_le (Nat.min_le_right _ _)⟩
    · exact ⟨⟨rfl, rfl⟩, hminute⟩
  | _ => exact ⟨⟨rfl, rfl⟩, hminute⟩

/-- The dial stays within the day. -/
theorem Dial.step_lt (format12 : Bool) (hhour : d.hour < 24) (hminute : d.minute < 60)
    (event : Event) :
    (d.step format12 event).hour < 24 ∧ (d.step format12 event).minute < 60 := by
  cases event with
  | key field key =>
    cases field with
    | hour =>
      obtain ⟨⟨hsame, -⟩, hcases⟩ := d.pressHour_cases format12 key
      refine ⟨?_, lt_of_eq_of_lt hsame hminute⟩
      rcases hcases with h | ⟨n, h⟩ | ⟨steps, h⟩
      · exact lt_of_eq_of_lt h hhour
      · exact lt_of_eq_of_lt h (hourOf_lt format12 hhour n)
      · exact lt_of_eq_of_lt h (turnHour_lt format12 hhour steps)
    | minute =>
      obtain ⟨⟨hsame, -⟩, hlt⟩ := Dial.pressMinute_cases hminute key
      exact ⟨lt_of_eq_of_lt hsame hhour, hlt⟩
  | timeout field => cases field <;> exact ⟨hhour, hminute⟩
  | choose value => exact ⟨Nat.mod_lt _ (by decide), hminute⟩

def Event.isChoice : Event → Bool
  | .choose _ => true
  | _ => false

/-- A key leaves the hour in its half of the day, and the menu takes it to the other one. -/
theorem Dial.half_step (hhour : d.hour < 24) (hminute : d.minute < 60) (event : Event) :
    (d.step true event).hour < 12 ↔ (d.hour < 12 ↔ event.isChoice = false) := by
  have hkeep : ∀ n, d.hour / 12 * 12 + n % 12 < 12 ↔ d.hour < 12 := by omega
  cases event with
  | key field key =>
    simp only [Event.isChoice, iff_true]
    cases field with
    | hour =>
      show (d.pressHour true key).hour < 12 ↔ d.hour < 12
      rcases (d.pressHour_cases true key).2 with h | ⟨n, h⟩ | ⟨steps, h⟩
      · rw [h]
      · rw [h]
        exact hkeep _
      · rw [h]
        exact hkeep _
    | minute =>
      show (d.pressMinute key).hour < 12 ↔ d.hour < 12
      rw [(Dial.pressMinute_cases hminute key).1.1]
  | timeout field =>
    simp only [Event.isChoice, iff_true]
    cases field <;> rfl
  | choose value =>
    simp only [Event.isChoice, Bool.true_eq_false, iff_false]
    show (d.hour + 12) % 24 < 12 ↔ ¬ d.hour < 12
    omega

theorem Dial.half_run : ∀ {events : List Event} {d : Dial}, d.hour < 24 → d.minute < 60 →
    ((events.foldl (Dial.step true) d).hour < 12 ↔
      (d.hour < 12 ↔ events.countP Event.isChoice % 2 = 0))
  | [], d, _, _ => by simp
  | event :: events, d, hhour, hminute => by
    obtain ⟨hhour', hminute'⟩ := Dial.step_lt true hhour hminute event
    rw [List.foldl_cons, Dial.half_run hhour' hminute', Dial.half_step hhour hminute,
      List.countP_cons]
    cases event.isChoice with
    | false => simp
    | true =>
      have hodd : (events.countP Event.isChoice + 1) % 2 = 0 ↔
          ¬ events.countP Event.isChoice % 2 = 0 := by omega
      rw [if_pos rfl, hodd]
      by_cases h : d.hour < 12 <;> simp [h]

section Refinement

variable [LocalDay]

/-- **A number typed in the hour's field.** -/
theorem setDateByType_hour (hday : Plain) (hhour : hour < 24) (hminute : minute < 60)
    (hn : n < 100) :
    setDateByType (some ⟨hour, minute⟩) (padded 2 n) (hourPicker format12) (some (half hour)) =
      some ⟨hourOf format12 hour n, minute⟩ := by
  have hlt := hourOf_lt format12 hhour n
  cases format12 with
  | false =>
    show setHoursOf _ (parseDecimal (getValidHour (padded 2 n))) = _
    rw [getValidHour_padded hn, parseDecimal_padded (by omega)]
    exact congrArg some (ofMinutes_clock hday hlt hminute)
  | true =>
    show setHoursOf _ ((parseDecimal (getValid12Hour (padded 2 n))).map
      (convert12HourTo24Hour · (half hour))) = _
    rw [getValid12Hour_padded hn, parseDecimal_padded (by omega), Option.map_some,
      convert12HourTo24Hour_half hhour (by omega) (by omega)]
    exact congrArg some (ofMinutes_clock hday hlt hminute)

theorem setDateByType_minute (hday : Plain) (hhour : hour < 24) (hn : n < 100)
    (period : Option Period) :
    setDateByType (some ⟨hour, minute⟩) (padded 2 n) .minutes period =
      some ⟨hour, min n 59⟩ := by
  show setMinutesOf _ (parseDecimal (getValidMinuteOrSecond (padded 2 n))) = _
  rw [getValidMinuteOrSecond_padded hn, parseDecimal_padded (by omega)]
  exact congrArg some (ofMinutes_clock hday hhour (by omega))

/-- The period's menu. -/
theorem setDateByType_choose (hday : Plain) (hhour : hour < 24) (hminute : minute < 60) :
    setDateByType (some ⟨hour, minute⟩) (display12HourValue (some hour)) .hours12
        (some (if half hour = .am then .pm else .am)) = some ⟨(hour + 12) % 24, minute⟩ := by
  have hperiod : (if half hour = .am then Period.pm else .am) = half ((hour + 12) % 24) := by
    unfold half
    by_cases h : hour < 12
    · rw [if_pos h, if_pos rfl, if_neg (by omega)]
    · rw [if_neg h, if_neg (by decide), if_pos (by omega)]
  rw [hperiod]
  show setHoursOf _ ((parseDecimal (getValid12Hour (display12HourValue (some hour)))).map
    (convert12HourTo24Hour · (half ((hour + 12) % 24)))) = _
  rw [getValid12Hour_display hhour, parseDecimal_padded (by omega), Option.map_some,
    convert12HourTo24Hour_half (by omega) (by omega) (by omega)]
  refine (congrArg some (ofMinutes_clock hday (by omega) hminute)).trans ?_
  rw [Option.some.injEq, Clock.mk.injEq]
  omega

/-! ## Refinement -/

/-- The picker shows what the dial does. -/
structure Shows (format12 : Bool) (s : State) (d : Dial) : Prop where
  text : IsHHmm s.text d.hour d.minute
  period : s.period = half d.hour
  hour : Waits (hourPicker format12) s.hour d.hour d.hourDigit
  minute : Waits .minutes s.minute d.minute d.minuteDigit

/-- The effect sets the period. -/
theorem shows_syncPeriod (hday : Plain) {s : State} {d : Dial}
    (htext : IsHHmm s.text d.hour d.minute)
    (hhour : Waits (hourPicker format12) s.hour d.hour d.hourDigit)
    (hminute : Waits .minutes s.minute d.minute d.minuteDigit) :
    Shows format12 (syncPeriod s) d := by
  have hsync : syncPeriod s = { s with period := half d.hour } := by
    rw [syncPeriod, timeStringToDate_hhmm hday htext]
    show ({ s with period := if (decide (12 ≤ d.hour)) then .pm else .am } : State) = _
    unfold half
    by_cases h : 12 ≤ d.hour
    · simp [h, Nat.not_lt.mpr h]
    · simp [h, Nat.lt_of_not_le h]
  rw [hsync]
  exact ⟨htext, rfl, hhour, hminute⟩

theorem fieldDate_eq (hday : Plain) (h : Shows format12 s d) :
    fieldDate s = some ⟨d.hour, d.minute⟩ := by
  rw [fieldDate, timeStringToDate_hhmm hday h.text]
  rfl

/-- What a key in a field makes of it: the field shows what the dial does, and the date that is set
    is the dial's time. -/
structure Answers (picker : TimePickerType) (r : Input × Option Date) (d d' : Dial)
    (value : Nat) (digit : Option Nat) : Prop where
  waits : Waits picker r.1 value digit
  date : r.2 = some (some ⟨d'.hour, d'.minute⟩) ∨ r.2 = none ∧ d' = d

theorem answers_hour (hday : Plain) {input : Input} (hhour : d.hour < 24) (hminute : d.minute < 60)
    (hwaits : Waits (hourPicker format12) input d.hour d.hourDigit) (key : Key) :
    Answers (hourPicker format12)
      (handleKeyDown (hourPicker format12) (some (half d.hour)) (some ⟨d.hour, d.minute⟩) input key)
      d (d.pressHour format12 key) (d.pressHour format12 key).hour
      (d.pressHour format12 key).hourDigit := by
  have hfield := getDateByType_hour format12 hhour d.minute
  have hset : ∀ n < 100, setDateByType (some ⟨d.hour, d.minute⟩) (padded 2 n)
      (hourPicker format12) (some (half d.hour)) = some ⟨hourOf format12 d.hour n, d.minute⟩ :=
    fun n hn => setDateByType_hour hday hhour hminute hn
  have harrow : ∀ steps, setDateByType (some ⟨d.hour, d.minute⟩)
      (padded 2 (shown (hourPicker format12) (turnHour format12 d.hour steps)))
      (hourPicker format12) (some (half d.hour)) =
        some ⟨turnHour format12 d.hour steps, d.minute⟩ := by
    intro steps
    have hlt := shown_hour_lt format12 (turnHour_lt format12 hhour steps)
    rw [hset _ (by omega), hourOf_shown]
  obtain ⟨hup, hdown⟩ := arrows_hour format12 hhour
  cases key with
  | arrowUp =>
    simp only [handleKeyDown, hfield, hup, harrow]
    exact ⟨rfl, Or.inl rfl⟩
  | arrowDown =>
    simp only [handleKeyDown, hfield, hdown, harrow]
    exact ⟨rfl, Or.inl rfl⟩
  | char c =>
    by_cases hc : c.isDigit = true
    · obtain ⟨hn, hdigit⟩ := digit_of_key hc
      have hnew := calculateNewValue_padded hwaits hn
      rw [← hdigit] at hnew
      simp only [handleKeyDown, hfield, if_pos hc, Dial.pressHour, hnew, hset _ (typed_lt hwaits hn)]
      refine ⟨?_, Or.inl rfl⟩
      have hwaits' := waits_typed hwaits hn (shown_hourOf format12 d.hour (typed d.hourDigit _))
      rw [← hdigit] at hwaits'
      exact hwaits'
    · simp only [handleKeyDown, Dial.pressHour, if_neg hc]
      exact ⟨hwaits, Or.inr ⟨rfl, rfl⟩⟩
  | _ => exact ⟨hwaits, Or.inr ⟨rfl, rfl⟩⟩

theorem answers_minute (hday : Plain) {input : Input} (hhour : d.hour < 24)
    (hminute : d.minute < 60) (hwaits : Waits .minutes input d.minute d.minuteDigit) (key : Key) :
    Answers .minutes
      (handleKeyDown .minutes none (some ⟨d.hour, d.minute⟩) input key)
      d (d.pressMinute key) (d.pressMinute key).minute
      (d.pressMinute key).minuteDigit := by
  have hfield : getDateByType (some ⟨d.hour, d.minute⟩) .minutes =
      padded 2 (shown .minutes d.minute) := getValidMinuteOrSecond_toString hminute
  have hset : ∀ n < 100, setDateByType (some ⟨d.hour, d.minute⟩) (padded 2 n) .minutes none =
      some ⟨d.hour, min n 59⟩ := fun n hn => setDateByType_minute hday hhour hn none
  have harrow : ∀ n < 60, setDateByType (some ⟨d.hour, d.minute⟩) (padded 2 n) .minutes none =
      some ⟨d.hour, n⟩ := by
    intro n hn
    rw [hset n (by omega), Nat.min_eq_left (by omega)]
  obtain ⟨hup, hdown⟩ := arrows_minutes hminute
  cases key with
  | arrowUp =>
    simp only [handleKeyDown, hfield, shown, hup, harrow _ (Nat.mod_lt _ (by decide : 0 < 60))]
    exact ⟨rfl, Or.inl rfl⟩
  | arrowDown =>
    simp only [handleKeyDown, hfield, shown, hdown, harrow _ (Nat.mod_lt _ (by decide : 0 < 60))]
    exact ⟨rfl, Or.inl rfl⟩
  | char c =>
    by_cases hc : c.isDigit = true
    · obtain ⟨hn, hdigit⟩ := digit_of_key hc
      have hnew := calculateNewValue_padded hwaits hn
      rw [← hdigit] at hnew
      simp only [handleKeyDown, hfield, if_pos hc, Dial.pressMinute, hnew, hset _ (typed_lt hwaits hn)]
      refine ⟨?_, Or.inl rfl⟩
      exact waits_typed hwaits hn rfl
    · simp only [handleKeyDown, Dial.pressMinute, if_neg hc]
      exact ⟨hwaits, Or.inr ⟨rfl, rfl⟩⟩
  | _ => exact ⟨hwaits, Or.inr ⟨rfl, rfl⟩⟩

omit [LocalDay] in
theorem setText_inputs (s : State) (date : Option Date) :
    (setText s date).hour = s.hour ∧ (setText s date).minute = s.minute := by
  cases date <;> exact ⟨rfl, rfl⟩

theorem handle_choose (hday : Plain) (h : Shows true s d) (value : Period) :
    handle true s (.choose value) =
      some { s with
        text := handleTimeChange (some ⟨(d.hour + 12) % 24, d.minute⟩)
        period := value } := by
  obtain ⟨hhour, hminute, -⟩ := h.text
  have hchoose := setDateByType_choose hday hhour hminute
  rw [← h.period] at hchoose
  simp only [handle, timeStringToDate_hhmm hday h.text, if_true, Option.map_some, hchoose, setText]

/-- **A step of the picker** is a step of the dial. -/
theorem shows_step (hday : Plain) (h : Shows format12 s d) {event : Event}
    (hs : step format12 s event = some s') : Shows format12 s' (d.step format12 event) := by
  obtain ⟨hhour, hminute, -⟩ := h.text
  have hdate := fieldDate_eq hday h
  obtain ⟨m, hm, rfl⟩ := Option.map_eq_some_iff.mp hs
  have hlt := Dial.step_lt format12 hhour hminute event
  have htext : ∀ {t : State} {date : Option Date}, t.text = s.text →
      (date = some (some ⟨(d.step format12 event).hour, (d.step format12 event).minute⟩) ∨
        date = none ∧ d.step format12 event = d) →
      IsHHmm (setText t date).text (d.step format12 event).hour
        (d.step format12 event).minute := by
    rintro t date ht (rfl | ⟨rfl, hsame⟩)
    · exact handleTimeChange_clock hlt.1 hlt.2
    · rw [hsame]
      exact ht ▸ h.text
  cases event with
  | key field key =>
    cases field with
    | hour =>
      have hanswers := answers_hour hday hhour hminute h.hour key
      obtain ⟨⟨hminute', hdigit'⟩, -⟩ := d.pressHour_cases format12 key
      simp only [handle, hdate, h.period] at hm
      cases hm
      refine shows_syncPeriod hday (htext rfl hanswers.date) ?_ ?_
      · rw [(setText_inputs _ _).1]
        exact hanswers.waits
      · show Waits .minutes _ (d.pressHour format12 key).minute (d.pressHour format12 key).minuteDigit
        rw [(setText_inputs _ _).2, hminute', hdigit']
        exact h.minute
    | minute =>
      have hanswers := answers_minute hday hhour hminute h.minute key
      obtain ⟨⟨hhour', hdigit'⟩, -⟩ := Dial.pressMinute_cases hminute key
      simp only [handle, hdate] at hm
      cases hm
      refine shows_syncPeriod hday (htext rfl hanswers.date) ?_ ?_
      · show Waits (hourPicker format12) _ (d.pressMinute key).hour (d.pressMinute key).hourDigit
        rw [(setText_inputs _ _).1, hhour', hdigit']
        exact h.hour
      · rw [(setText_inputs _ _).2]
        exact hanswers.waits
  | timeout field =>
    cases field with
    | hour =>
      simp only [handle] at hm
      split at hm
      · cases hm
        exact shows_syncPeriod hday h.text rfl h.minute
      · cases hm
    | minute =>
      simp only [handle] at hm
      split at hm
      · cases hm
        exact shows_syncPeriod hday h.text h.hour rfl
      · cases hm
  | choose value =>
    cases format12 with
    | false => cases hm
    | true =>
      have htext' : IsHHmm (handleTimeChange (some ⟨(d.hour + 12) % 24, d.minute⟩))
          ((d.hour + 12) % 24) d.minute :=
        handleTimeChange_clock (Nat.mod_lt _ (by decide)) hminute
      rw [handle_choose hday h value, Option.some.injEq] at hm
      rw [← hm]
      refine shows_syncPeriod (d := { d with hour := (d.hour + 12) % 24 }) hday ?_ ?_ ?_
      · exact htext'
      · exact waits_choose h.hour
      · exact h.minute

theorem shows_mount (hday : Plain) (htext : IsHHmm text hour minute) :
    Shows format12 (mount text) { hour, minute } :=
  shows_syncPeriod hday htext rfl rfl

theorem shows_run (hday : Plain) {events : List Event} {s₀ : State} (h : Shows format12 s₀ d)
    (hrun : run (step format12) s₀ events = some s) :
    Shows format12 s (events.foldl (Dial.step format12) d) := by
  induction events generalizing s₀ d with
  | nil =>
    cases hrun
    exact h
  | cons event events ih =>
    obtain ⟨m, hm, hrest⟩ := run_cons_eq_some.mp hrun
    exact ih (shows_step hday h hm) hrest

end Refinement

/-! ## A morning -/

@[reducible] def plainDay : LocalDay := ⟨id⟩

/-- 10 is typed as the hour, the minute is turned back, and AM is chosen twice. -/
def presses : List Event :=
  [.key .hour (.char '1'), .key .hour (.char '0'), .key .minute .arrowDown, .choose .am,
    .choose .am, .choose .am]

theorem run_presses : run (@step plainDay true) (@mount plainDay "09:00") presses =
    some { text := "22:59", period := .pm, hour := { prevIntKey := '0' } } := by
  decide +kernel

end Dashboard.TimePicker