/-
  CALENDAR TIME AS TEXT.

  Instants are integers (milliseconds since 1970-01-01T00:00:00Z unless said otherwise); `Civil` is
  the proleptic Gregorian reading of one.  The formats are the two fixed-width ones the standard
  libraries print: JavaScript's `Date.prototype.toISOString`, and .NET's `yyyy-MM-dd`, `HH-mm-ss`
  and `yyyyMMddHHmmss` patterns.
-/

namespace Time

/-- A calendar date with a time of day. -/
structure Civil where
  year : Int
  month : Nat
  day : Nat
  hour : Nat
  minute : Nat
  second : Nat
  milli : Nat
deriving DecidableEq, Repr

/-- Year, month and day of a day number (day 0 is 1970-01-01): days are counted from 0000-03-01 in
    eras of 400 years, so that the leap day is the last day of a year. -/
def dateOfDay (day : Int) : Int × Nat × Nat :=
  let z := day + 719468
  let era := z / 146097
  let doe := (z - era * 146097).toNat
  let yoe := (doe - doe / 1460 + doe / 36524 - doe / 146096) / 365
  let doy := doe - (365 * yoe + yoe / 4 - yoe / 100)
  let mp := (5 * doy + 2) / 153
  let month := if mp < 10 then mp + 3 else mp - 9
  let year := (yoe : Int) + era * 400
  (if month ≤ 2 then year + 1 else year, month, doy - (153 * mp + 2) / 5 + 1)

/-- The calendar reading of an instant in milliseconds. -/
def ofMillis (ms : Int) : Civil :=
  let day := ms / 86400000
  let rest := (ms - day * 86400000).toNat
  let (year, month, dayOfMonth) := dateOfDay day
  { year, month, day := dayOfMonth, hour := rest / 3600000, minute := rest / 60000 % 60,
    second := rest / 1000 % 60, milli := rest % 1000 }

/-- Decimal digits padded with zeros on the left to `width`. -/
def padded (width n : Nat) : String :=
  String.ofList (List.replicate (width - (toString n).length) '0') ++ toString n

theorem isDigit_of_mem_padded {width n : Nat} {c : Char} (h : c ∈ (padded width n).toList) :
    c.isDigit = true := by
  rw [padded, String.toList_append, String.toList_ofList, List.mem_append] at h
  rcases h with hzero | hdigit
  · rw [(List.mem_replicate.mp hzero).2]
    rfl
  · have hdigits : c ∈ Nat.toDigits 10 n := by
      rw [← Nat.toList_repr]
      exact hdigit
    exact Nat.isDigit_of_mem_toDigits (by decide) (by decide) hdigits

/-- The year of an ISO string: four digits, or a sign and six outside 0..9999. -/
def isoYear (year : Int) : String :=
  if year < 0 then "-" ++ padded 6 year.natAbs
  else if year ≤ 9999 then padded 4 year.natAbs
  else "+" ++ padded 6 year.natAbs

/-- The date part of `toISOString`. -/
def isoDate (ms : Int) : String :=
  let c := ofMillis ms
  isoYear c.year ++ "-" ++ padded 2 c.month ++ "-" ++ padded 2 c.day

/-- `new Date(ms).toISOString()`. -/
def toISOString (ms : Int) : String :=
  let c := ofMillis ms
  isoDate ms ++ "T" ++ padded 2 c.hour ++ ":" ++ padded 2 c.minute ++ ":" ++ padded 2 c.second
    ++ "." ++ padded 3 c.milli ++ "Z"

/-- `yyyy-MM-dd`. -/
def Civil.dateText (c : Civil) : String :=
  padded 4 c.year.natAbs ++ "-" ++ padded 2 c.month ++ "-" ++ padded 2 c.day

/-- `HH-mm-ss`. -/
def Civil.timeText (c : Civil) : String :=
  padded 2 c.hour ++ "-" ++ padded 2 c.minute ++ "-" ++ padded 2 c.second

/-- Within one second of the clock these texts do not change. -/
theorem text_of_same_second {ms ms' : Int} (h : ms / 1000 = ms' / 1000) :
    (ofMillis ms).dateText = (ofMillis ms').dateText ∧
      (ofMillis ms).timeText = (ofMillis ms').timeText := by
  have hday : ms / 86400000 = ms' / 86400000 := by omega
  have hrest : (ms - ms / 86400000 * 86400000).toNat / 1000 =
      (ms' - ms' / 86400000 * 86400000).toNat / 1000 := by omega
  constructor
  · simp only [Civil.dateText, ofMillis, hday]
  · simp only [Civil.timeText, ofMillis]
    generalize (ms - ms / 86400000 * 86400000).toNat = rest at hrest ⊢
    generalize (ms' - ms' / 86400000 * 86400000).toNat = rest' at hrest ⊢
    rw [show rest / 3600000 = rest' / 3600000 by omega,
      show rest / 60000 % 60 = rest' / 60000 % 60 by omega,
      show rest / 1000 % 60 = rest' / 1000 % 60 by omega]

/-- `yyyyMMddHHmmss`. -/
def Civil.secondText (c : Civil) : String :=
  padded 4 c.year.natAbs ++ padded 2 c.month ++ padded 2 c.day ++ padded 2 c.hour
    ++ padded 2 c.minute ++ padded 2 c.second

theorem Civil.isDigit_of_mem_secondText {t : Civil} {c : Char} (h : c ∈ t.secondText.toList) :
    c.isDigit = true := by
  simp only [Civil.secondText, String.toList_append, List.mem_append] at h
  rcases h with ((((h | h) | h) | h) | h) | h
  all_goals exact isDigit_of_mem_padded h

/-! ## .NET's `DateTime` -/

/-- `DateTime.MaxValue.Ticks`. -/
def maxTicks : Nat := 3155378975999999999

def ticksPerSecond : Int := 10000000

def ticksPerDay : Nat := 864000000000

/-- `System.DayOfWeek`. -/
inductive SystemDay
  | sunday | monday | tuesday | wednesday | thursday | friday | saturday
deriving DecidableEq, Repr

namespace SystemDay

/-- The number behind the name. -/
def index : SystemDay → Nat
  | .sunday => 0
  | .monday => 1
  | .tuesday => 2
  | .wednesday => 3
  | .thursday => 4
  | .friday => 5
  | .saturday => 6

/-- The name of a number, modulo seven. -/
def ofNumber (n : Nat) : SystemDay :=
  match n % 7 with
  | 0 => .sunday
  | 1 => .monday
  | 2 => .tuesday
  | 3 => .wednesday
  | 4 => .thursday
  | 5 => .friday
  | _ => .saturday

theorem ofNumber_eq_iff {n : Nat} {day : SystemDay} : ofNumber n = day ↔ n % 7 = day.index := by
  have hlt : n % 7 < 7 := Nat.mod_lt n (by decide)
  unfold ofNumber
  generalize n % 7 = k at hlt
  match k, hlt with
  | 0, _ | 1, _ | 2, _ | 3, _ | 4, _ | 5, _ | 6, _ => cases day <;> decide

end SystemDay

/-- 100-nanosecond ticks since 0001-01-01. -/
structure DateTime where
  ticks : Nat
  inRange : ticks ≤ maxTicks
deriving DecidableEq, Repr

namespace DateTime

def minValue : DateTime := ⟨0, Nat.zero_le _⟩

/-- `DateTimeOffset.FromUnixTimeSeconds(seconds).UtcDateTime`; `none` is an exception. -/
def fromUnixTimeSeconds (seconds : Int) : Option DateTime :=
  if h : -62135596800 ≤ seconds ∧ seconds ≤ 253402300799 then
    some ⟨((seconds + 62135596800) * 10000000).toNat, by unfold maxTicks; omega⟩
  else none

/-- `d.AddMinutes(minutes)`; `none` is an exception. -/
def addMinutes (d : DateTime) (minutes : Int) : Option DateTime :=
  if h : 0 ≤ d.ticks + minutes * 60 * ticksPerSecond ∧
      d.ticks + minutes * 60 * ticksPerSecond ≤ maxTicks then
    some ⟨(d.ticks + minutes * 60 * ticksPerSecond).toNat, by omega⟩
  else none

/-- `now - last`, in ticks. -/
def since (now last : DateTime) : Int := (now.ticks : Int) - (last.ticks : Int)

/-- `d.Add(span)`; `none` is an exception. -/
def add (d : DateTime) (span : Int) : Option DateTime :=
  if h : 0 ≤ d.ticks + span ∧ d.ticks + span ≤ maxTicks then
    some ⟨(d.ticks + span).toNat, by omega⟩
  else none

/-- The days since 1 January 0001. -/
def day (d : DateTime) : Nat := d.ticks / ticksPerDay

def timeOfDay (d : DateTime) : Int := (d.ticks % ticksPerDay : Nat)

/-- The first day was a Monday. -/
def dayOfWeek (d : DateTime) : SystemDay := .ofNumber (d.day + 1)

/-- `d.Date`: midnight. -/
def date (d : DateTime) : DateTime where
  ticks := d.day * ticksPerDay
  inRange := Nat.le_trans (Nat.div_mul_le_self _ _) d.inRange

/-- `d.AddDays(days)`. -/
def addDays (d : DateTime) (days : Nat) : Option DateTime := d.add (days * ticksPerDay : Nat)

theorem add_eq_some {d t : DateTime} {span : Int} :
    d.add span = some t ↔ (t.ticks : Int) = d.ticks + span := by
  have hmax := t.inRange
  unfold add
  split
  · rename_i h
    constructor
    · intro ht
      rw [← Option.some.inj ht]
      show ((d.ticks + span).toNat : Int) = d.ticks + span
      omega
    · intro ht
      obtain ⟨ticks, hticks⟩ := t
      have ht : (ticks : Int) = d.ticks + span := ht
      congr
      omega
  · rename_i h
    constructor
    · intro ht
      cases ht
    · intro ht
      omega

theorem addMinutes_eq_some {d t : DateTime} {minutes : Int} :
    d.addMinutes minutes = some t ↔ (t.ticks : Int) = d.ticks + minutes * 60 * ticksPerSecond :=
  add_eq_some

/-- The day and the time of day make the instant. -/
theorem day_timeOfDay (d : DateTime) : (d.ticks : Int) = d.day * ticksPerDay + d.timeOfDay := by
  have h := Nat.div_add_mod d.ticks ticksPerDay
  unfold day timeOfDay
  rw [Nat.mul_comm] at h
  exact_mod_cast h.symm

theorem timeOfDay_nonneg (d : DateTime) : 0 ≤ d.timeOfDay := Int.natCast_nonneg _

theorem timeOfDay_lt (d : DateTime) : d.timeOfDay < ticksPerDay := by
  have h : d.ticks % ticksPerDay < ticksPerDay := Nat.mod_lt _ (by decide)
  unfold timeOfDay
  omega

theorem dayOfWeek_of_day {d t : DateTime} (h : t.day = d.day) : t.dayOfWeek = d.dayOfWeek := by
  unfold dayOfWeek
  rw [h]

/-- What lies `x` behind midnight of a day is that time of that day. -/
theorem day_eq_of_ticks {t : DateTime} {days : Nat} {x : Int} (h0 : 0 ≤ x) (hx : x < ticksPerDay)
    (h : (t.ticks : Int) = days * ticksPerDay + x) : t.day = days ∧ t.timeOfDay = x := by
  obtain ⟨n, rfl⟩ := Int.eq_ofNat_of_zero_le h0
  have hn : n < ticksPerDay := by omega
  have hticks : t.ticks = days * ticksPerDay + n := by exact_mod_cast h
  unfold day timeOfDay
  rw [hticks, Nat.mul_comm, Nat.mul_add_div (by decide), Nat.mul_add_mod, Nat.mod_eq_of_lt hn,
    Nat.div_eq_of_lt hn]
  exact ⟨rfl, rfl⟩

/-- Every time of a day is an instant. -/
theorem exists_timeOfDay (d : DateTime) {x : Int} (h0 : 0 ≤ x) (hx : x < ticksPerDay) :
    ∃ t : DateTime, t.day = d.day ∧ t.timeOfDay = x := by
  have hmax := d.inRange
  obtain ⟨n, rfl⟩ := Int.eq_ofNat_of_zero_le h0
  have hn : n < ticksPerDay := by exact_mod_cast hx
  have hfits : d.day * ticksPerDay + n ≤ maxTicks := by
    have hdays : d.day < 3652059 := by
      unfold day ticksPerDay
      unfold maxTicks at hmax
      omega
    calc d.day * ticksPerDay + n ≤ 3652058 * ticksPerDay + n := by
          exact Nat.add_le_add_right (Nat.mul_le_mul_right _ (by omega)) n
      _ ≤ 3652058 * ticksPerDay + (ticksPerDay - 1) := by omega
      _ = maxTicks := by decide
  refine ⟨⟨d.day * ticksPerDay + n, hfits⟩, day_eq_of_ticks h0 hx ?_⟩
  show ((d.day * ticksPerDay + n : Nat) : Int) = _
  rw [Int.natCast_add, Int.natCast_mul]

/-- Every weekday has every time of day. -/
theorem exists_dayOfWeek (day : SystemDay) {x : Int} (h0 : 0 ≤ x) (hx : x < ticksPerDay) :
    ∃ t : DateTime, t.dayOfWeek = day ∧ t.timeOfDay = x := by
  have hday : ∃ d : DateTime, d.dayOfWeek = day := by
    cases day with
    | sunday => exact ⟨⟨6 * ticksPerDay, by decide⟩, by decide⟩
    | monday => exact ⟨⟨0, by decide⟩, by decide⟩
    | tuesday => exact ⟨⟨1 * ticksPerDay, by decide⟩, by decide⟩
    | wednesday => exact ⟨⟨2 * ticksPerDay, by decide⟩, by decide⟩
    | thursday => exact ⟨⟨3 * ticksPerDay, by decide⟩, by decide⟩
    | friday => exact ⟨⟨4 * ticksPerDay, by decide⟩, by decide⟩
    | saturday => exact ⟨⟨5 * ticksPerDay, by decide⟩, by decide⟩
  obtain ⟨d, hd⟩ := hday
  obtain ⟨t, hsame, htime⟩ := d.exists_timeOfDay h0 hx
  exact ⟨t, (dayOfWeek_of_day hsame).trans hd, htime⟩

theorem day_of_midnight {d : DateTime} {days : Nat} (h : d.ticks = days * ticksPerDay) :
    d.day = days := by
  unfold day
  rw [h, Nat.mul_div_cancel _ (by decide)]

/-- From midnight on, a time of the day can be added. -/
theorem exists_add_midnight {d : DateTime} {days : Nat} {x : Int}
    (h : d.ticks = days * ticksPerDay) (h0 : 0 ≤ x) (hx : x < ticksPerDay) :
    ∃ t, d.add x = some t ∧ (t.ticks : Int) = days * ticksPerDay + x := by
  obtain ⟨t, hday, htime⟩ := d.exists_timeOfDay h0 hx
  have ht := t.day_timeOfDay
  rw [hday, day_of_midnight h, htime] at ht
  refine ⟨t, add_eq_some.mpr ?_, ht⟩
  rw [ht, h, Int.natCast_mul]

end DateTime

/-- `TimeSpan.FromSeconds(seconds)` in ticks; `none` is an exception. -/
def timeSpanFromSeconds (seconds : Int) : Option Int :=
  if -922337203685 ≤ seconds ∧ seconds ≤ 922337203685 then some (seconds * ticksPerSecond)
  else none

/-- `(int)x` for a whole number of a `double`: it saturates. -/
def toInt32 (x : Int) : Int := max (-2147483648) (min x 2147483647)

theorem toInt32_pos {x : Int} (h : 0 < x) : 0 < toInt32 x ∧ toInt32 x ≤ x := by
  unfold toInt32
  omega

/-! ## JavaScript's `Date` -/

/-- The value of a `Date`; `none` is an invalid date. -/
def timeClip (ms : Int) : Option Int :=
  if -8640000000000000 ≤ ms ∧ ms ≤ 8640000000000000 then some ms else none

/-- A time zone: the local time of an instant, and the instant that is taken for a local time. -/
structure Zone where
  toLocal : Int → Int
  ofLocal : Int → Int

/-- `date.setDate(date.getDate() + days)`: the same local time of day, that many days later. -/
def Zone.addDays (zone : Zone) (ms days : Int) : Option Int :=
  timeClip (zone.ofLocal (zone.toLocal ms + days * 86400000))

example : toISOString 0 = "1970-01-01T00:00:00.000Z" := by decide
example : toISOString 1709210096789 = "2024-02-29T12:34:56.789Z" := by decide

end Time
