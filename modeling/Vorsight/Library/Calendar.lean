/-
  THE CALENDAR AND BACK.

  1. `dayOfDate` is the inverse of `dateOfDay` (`dayOfDate_dateOfDay`).  The year of a day is found by
     a division that corrects for leap days; that it is the right one is read off the day's century,
     leap cycle, year and day (`era_digits`).

  2. **Dates as text**: `yyyy-MM-dd` as date-fns prints it, read again as the first instant of that
     day in UTC, which is what `new Date` makes of a text without a time (`dateOnly_isoKey`); and
     `EEEE, MMMM d, yyyy`, which differs from one day to the next.
-/
import Mathlib.Algebra.Group.Nat.Defs
import Vorsight.Library.Time

namespace Time

/-! ## Day numbers -/

/-- A day of an era of 400 years by century, leap cycle, year and day. -/
theorem era_digits {doe : Nat} (h : doe ≤ 146096) :
    ∃ c q t r, doe = 36524 * c + 1461 * q + 365 * t + r ∧ c ≤ 3 ∧ q ≤ 24 ∧ t ≤ 3 ∧ r ≤ 365 ∧
      (doe - doe / 1460 + doe / 36524 - doe / 146096) / 365 = 100 * c + 4 * q + t := by
  obtain ⟨c, hc⟩ : ∃ c, c = min (doe / 36524) 3 := ⟨_, rfl⟩
  obtain ⟨q, hq⟩ : ∃ q, q = (doe - 36524 * c) / 1461 := ⟨_, rfl⟩
  obtain ⟨t, ht⟩ : ∃ t, t = min ((doe - 36524 * c - 1461 * q) / 365) 3 := ⟨_, rfl⟩
  have hc3 : c ≤ 3 := by omega
  have hcent : doe - 36524 * c ≤ 36524 ∧ 36524 * c ≤ doe := by omega
  have hq24 : q ≤ 24 := by omega
  have hcyc : doe - 36524 * c - 1461 * q ≤ 1460 := by omega
  have ht3 : t ≤ 3 := by omega
  obtain ⟨r, hr⟩ : ∃ r, r = doe - 36524 * c - 1461 * q - 365 * t := ⟨_, rfl⟩
  have hr365 : r ≤ 364 ∨ (r = 365 ∧ t = 3) := by omega
  have hsum : doe = 36524 * c + 1461 * q + 365 * t + r := by omega
  refine ⟨c, q, t, r, hsum, hc3, hq24, ht3, by omega, ?_⟩
  obtain ⟨δ, hδ⟩ : ∃ δ, δ = (24 * c + q + 365 * t + r) / 1460 := ⟨_, rfl⟩
  have hdays : doe / 1460 = 25 * c + q + δ := by omega
  have hcenturies : doe / 36524 = c + doe / 146096 := by omega
  have hδr : δ ≤ r ∧ r - δ ≤ 364 := by omega
  have hs : doe - doe / 1460 + doe / 36524 - doe / 146096 =
      365 * (100 * c + 4 * q + t) + (r - δ) := by
    rw [hdays, hcenturies]
    clear hc hq ht hr hδ hdays hcenturies
    omega
  rw [hs]
  omega

/-- The day number of a date. -/
def dayOfDate (year : Int) (month day : Nat) : Int :=
  let y := if month ≤ 2 then year - 1 else year
  let era := y / 400
  let yoe := (y - era * 400).toNat
  let mp := if month ≤ 2 then month + 9 else month - 3
  let doy := (153 * mp + 2) / 5 + day - 1
  era * 146097 + (yoe * 365 + yoe / 4 - yoe / 100 + doy : Nat) - 719468

/-- Year of the era, and day of the year, which begins on 1 March. -/
theorem era_year {doe : Nat} (h : doe ≤ 146096) :
    ∃ yoe doy, (doe - doe / 1460 + doe / 36524 - doe / 146096) / 365 = yoe ∧ yoe ≤ 399 ∧
      doy ≤ 365 ∧ doe = 365 * yoe + yoe / 4 - yoe / 100 + doy ∧
      doe - (365 * yoe + yoe / 4 - yoe / 100) = doy := by
  obtain ⟨c, q, t, r, hsum, hc, hq, ht, hr, hyoe⟩ := era_digits h
  have hleaps : (100 * c + 4 * q + t) / 4 = 25 * c + q := by omega
  have hcenturies : (100 * c + 4 * q + t) / 100 = c := by omega
  have hdays : doe = 365 * (100 * c + 4 * q + t) + (100 * c + 4 * q + t) / 4 -
      (100 * c + 4 * q + t) / 100 + r := by
    rw [hleaps, hcenturies]
    clear hyoe h
    omega
  refine ⟨100 * c + 4 * q + t, r, hyoe, by omega, hr, hdays, ?_⟩
  rw [hleaps, hcenturies] at hdays ⊢
  clear hyoe h
  omega

/-- The parts a date is made of. -/
theorem dateOfDay_parts (n : Int) : ∃ (era : Int) (yoe doy mp : Nat),
    n = era * 146097 + (365 * yoe + yoe / 4 - yoe / 100 + doy : Nat) - 719468 ∧ yoe ≤ 399 ∧
      doy ≤ 365 ∧ mp = (5 * doy + 2) / 153 ∧
      dateOfDay n =
        (if (if mp < 10 then mp + 3 else mp - 9) ≤ 2 then (yoe : Int) + era * 400 + 1
          else (yoe : Int) + era * 400,
          if mp < 10 then mp + 3 else mp - 9, doy - (153 * mp + 2) / 5 + 1) := by
  obtain ⟨era, hera⟩ : ∃ era, (n + 719468) / 146097 = era := ⟨_, rfl⟩
  obtain ⟨doe, hdoe⟩ : ∃ doe, (n + 719468 - era * 146097).toNat = doe := ⟨_, rfl⟩
  obtain ⟨yoe, doy, hyoe, hyoe_le, hdoy_le, hsum, hdoy⟩ := @era_year doe (by omega)
  refine ⟨era, yoe, doy, (5 * doy + 2) / 153, ?_, hyoe_le, hdoy_le, rfl, ?_⟩
  · rw [← hsum]
    omega
  · unfold dateOfDay
    simp only [hera, hdoe, hyoe, hdoy]

/-- **The calendar and back.** -/
theorem dayOfDate_dateOfDay (n : Int) :
    dayOfDate (dateOfDay n).1 (dateOfDay n).2.1 (dateOfDay n).2.2 = n := by
  obtain ⟨era, yoe, doy, mp, hn, hyoe, hdoy, hmp, hdate⟩ := dateOfDay_parts n
  have hera : ((yoe : Int) + era * 400) / 400 = era := by omega
  have hyear : ((yoe : Int) + era * 400 - era * 400).toNat = yoe := by omega
  rw [hdate]
  by_cases hmarch : mp < 10
  · have hlate : ¬ mp + 3 ≤ 2 := by omega
    simp only [dayOfDate, if_pos hmarch, if_neg hlate, hera, hyear]
    rw [show mp + 3 - 3 = mp by omega]
    omega
  · have hearly : mp - 9 ≤ 2 := by omega
    simp only [dayOfDate, if_neg hmarch, if_pos hearly]
    rw [show (yoe : Int) + era * 400 + 1 - 1 = yoe + era * 400 by omega, hera, hyear,
      show mp - 9 + 9 = mp by omega]
    omega

/-- Months and days are those of a calendar. -/
theorem dateOfDay_range (n : Int) : 1 ≤ (dateOfDay n).2.1 ∧ (dateOfDay n).2.1 ≤ 12 ∧
    1 ≤ (dateOfDay n).2.2 ∧ (dateOfDay n).2.2 ≤ 31 := by
  obtain ⟨era, yoe, doy, mp, -, -, hdoy, hmp, hdate⟩ := dateOfDay_parts n
  rw [hdate]
  dsimp only
  split <;> omega

/-! ## Padded numbers -/

theorem padded_toList (width n : Nat) : (padded width n).toList =
    List.replicate (width - (Nat.toDigits 10 n).length) '0' ++ Nat.toDigits 10 n := by
  have hdigits : (toString n).toList = Nat.toDigits 10 n := Nat.toList_repr
  rw [padded, String.toList_append, String.toList_ofList, hdigits, ← String.length_toList, hdigits]

theorem length_padded {width n : Nat} (hwidth : 0 < width) (h : n < 10 ^ width) :
    (padded width n).toList.length = width := by
  have hle : (Nat.toDigits 10 n).length ≤ width :=
    (Nat.length_toDigits_le_iff (by decide) hwidth).mpr h
  rw [padded_toList, List.length_append, List.length_replicate]
  omega

theorem value_padded (width n : Nat) : Nat.ofDigitChars 10 (padded width n).toList 0 = n := by
  rw [padded_toList, Nat.ofDigitChars_append, Nat.ofDigitChars_replicate_zero, Nat.mul_zero,
    Nat.ofDigitChars_ten_toDigits]

/-! ## Dates as text -/

/-- `yyyy` of date-fns, which counts years before the common era backwards. -/
def yyyy (year : Int) : String := padded 4 (if 0 < year then year else 1 - year).toNat

/-- `yyyy-MM-dd`, of a day number. -/
def isoKey (day : Int) : String :=
  let (year, month, dayOfMonth) := dateOfDay day
  yyyy year ++ "-" ++ padded 2 month ++ "-" ++ padded 2 dayOfMonth

/-- `new Date(text).getTime()`, for a text with a date only: the day begins in UTC. -/
def dateOnly (text : String) : Option Int :=
  let cs := text.toList
  let year := cs.take 4
  let month := (cs.drop 5).take 2
  let day := cs.drop 8
  if cs.length = 10 ∧ cs[4]? = some '-' ∧ cs[7]? = some '-' ∧
      (year ++ month ++ day).all Char.isDigit then
    let m := Nat.ofDigitChars 10 month 0
    let d := Nat.ofDigitChars 10 day 0
    if 1 ≤ m ∧ m ≤ 12 ∧ 1 ≤ d ∧ d ≤ 31 then
      some (dayOfDate (Nat.ofDigitChars 10 year 0) m d * 86400000)
    else none
  else none

/-- The parts of a text of four, two and two characters with dashes between. -/
theorem parts_of_dashes {y m d : List Char} (hy : y.length = 4) (hm : m.length = 2)
    (hd : d.length = 2) : (y ++ '-' :: (m ++ '-' :: d)).length = 10 ∧
      (y ++ '-' :: (m ++ '-' :: d))[4]? = some '-' ∧ (y ++ '-' :: (m ++ '-' :: d))[7]? = some '-' ∧
      (y ++ '-' :: (m ++ '-' :: d)).take 4 = y ∧
      ((y ++ '-' :: (m ++ '-' :: d)).drop 5).take 2 = m ∧
      (y ++ '-' :: (m ++ '-' :: d)).drop 8 = d := by
  match y, hy with
  | [_, _, _, _], _ =>
    match m, hm with
    | [_, _], _ => exact ⟨by simp [hd], rfl, rfl, rfl, rfl, rfl⟩

/-- **A date that is printed is read as the beginning of its day in UTC.** -/
theorem dateOnly_isoKey {day : Int} (hpast : 1 ≤ (dateOfDay day).1)
    (hfuture : (dateOfDay day).1 ≤ 9999) : dateOnly (isoKey day) = some (day * 86400000) := by
  obtain ⟨hm1, hm12, hd1, hd31⟩ := dateOfDay_range day
  have hround := dayOfDate_dateOfDay day
  generalize hdate : dateOfDay day = date at *
  obtain ⟨year, m, d⟩ := date
  dsimp only at *
  have hy : yyyy year = padded 4 year.toNat := by rw [yyyy, if_pos (by omega)]
  have hyear : (padded 4 year.toNat).toList.length = 4 := length_padded (by decide) (by omega)
  have hmonth : (padded 2 m).toList.length = 2 := length_padded (by decide) (by omega)
  have hday : (padded 2 d).toList.length = 2 := length_padded (by decide) (by omega)
  have hdigits : ∀ width n, (padded width n).toList.all Char.isDigit = true := fun width n =>
    List.all_eq_true.mpr fun c hc => isDigit_of_mem_padded hc
  have hdash : "-".toList = ['-'] := rfl
  have htext : (isoKey day).toList = (padded 4 year.toNat).toList ++
      '-' :: ((padded 2 m).toList ++ '-' :: (padded 2 d).toList) := by
    simp only [isoKey, hdate, hy, String.toList_append, List.append_assoc, hdash, List.cons_append,
      List.nil_append]
  obtain ⟨hlength, h4, h7, htake, hmiddle, hdrop⟩ := parts_of_dashes hyear hmonth hday
  unfold dateOnly
  dsimp only
  rw [htext, hlength, h4, h7, htake, hmiddle, hdrop, if_pos, value_padded, value_padded,
    value_padded, if_pos ⟨hm1, hm12, hd1, hd31⟩, show ((year.toNat : Nat) : Int) = year by omega,
    hround]
  exact ⟨rfl, rfl, rfl, by simp only [List.all_append, hdigits, Bool.and_self]⟩

def weekdays : List String :=
  ["Sunday", "Monday", "Tuesday", "Wednesday", "Thursday", "Friday", "Saturday"]

def months : List String :=
  ["January", "February", "March", "April", "May", "June", "July", "August", "September", "October",
    "November", "December"]

/-- `EEEE, MMMM d, yyyy`, of a day number; day 0 was a Thursday. -/
def longDate (day : Int) : String :=
  let (year, month, dayOfMonth) := dateOfDay day
  weekdays.getD ((day + 4) % 7).toNat "" ++ ", " ++ months.getD (month - 1) "" ++ " " ++
    toString dayOfMonth ++ ", " ++ yyyy year

/-- A long date begins with the weekday, up to the first comma. -/
theorem takeWhile_longDate (day : Int) : (longDate day).toList.takeWhile (· ≠ ',') =
    (weekdays.getD ((day + 4) % 7).toNat "").toList := by
  have hplain : ∀ n < 7, (weekdays.getD n "").toList.all (· ≠ ',') = true := by decide
  have hletters := List.all_eq_true.mp (hplain ((day + 4) % 7).toNat (by omega))
  have hcomma : ", ".toList = [',', ' '] := rfl
  simp only [longDate, String.toList_append, List.append_assoc, hcomma]
  rw [List.takeWhile_append_of_pos hletters, List.cons_append, List.takeWhile_cons_of_neg (by decide),
    List.append_nil]

/-- No two days in a row have the same text: their weekdays differ. -/
theorem longDate_pred (day : Int) : longDate (day - 1) ≠ longDate day := by
  have hinj : ∀ i < 7, ∀ j < 7, weekdays.getD i "" = weekdays.getD j "" → i = j := by decide
  intro heq
  have hlists : (longDate (day - 1)).toList.takeWhile (· ≠ ',') =
      (longDate day).toList.takeWhile (· ≠ ',') := by rw [heq]
  rw [takeWhile_longDate, takeWhile_longDate] at hlists
  have hindex := hinj _ (by omega) _ (by omega) (String.toList_injective hlists)
  omega

end Time
