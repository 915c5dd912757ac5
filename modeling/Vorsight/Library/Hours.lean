/-
  LOCAL HOURS in a time zone with a fixed offset from UTC, and intervals of milliseconds that are
  cut at them.

  The parts of an interval are labelled by the local hour they lie in.  The parts labelled `hour`
  are the instants of the interval at which the clock shows that hour (`covered_hourSegments`), and
  no two of all the parts overlap (`apart_splitHours`).  In 24 hours each hour is shown for one
  (`unionLength_le_hour`).
-/
import Vorsight.Library.Sweep

namespace Time

open Intervals

def msPerHour : Int := 3600000

/-- `date.setMinutes(0, 0, 0)` -/
def startOfHour (offset ms : Int) : Int := (ms + offset) / msPerHour * msPerHour - offset

/-- `date.setHours(date.getHours() + 1)` -/
def addHour (ms : Int) : Int := ms + msPerHour

/-- `date.getHours()` -/
def getHours (offset ms : Int) : Nat := ((ms + offset) / msPerHour % 24).toNat

/-- All of an hour shows the hour of its beginning. -/
theorem getHours_of_mem {offset ms x : Int} (hle : startOfHour offset ms ≤ x)
    (hlt : x < addHour (startOfHour offset ms)) :
    getHours offset x = getHours offset (startOfHour offset ms) := by
  unfold getHours addHour startOfHour msPerHour at *
  omega

theorem startOfHour_le (offset ms : Int) : startOfHour offset ms ≤ ms := by
  unfold startOfHour msPerHour
  omega

theorem lt_addHour (offset ms : Int) : ms < addHour (startOfHour offset ms) := by
  unfold addHour startOfHour msPerHour
  omega

/-! ## Cutting an interval -/

/-- A part of an interval, in one local hour. -/
structure Segment where
  hour : Nat
  start : Int
  stop : Int
deriving DecidableEq, Repr

def Segment.interval (segment : Segment) : Int × Int := (segment.start, segment.stop)

/-- `while (current < end)`: each turn goes on to the next hour, or to the end. -/
def splitHours (offset current stop : Int) : List Segment :=
  if current < stop then
    let currentHourStart := startOfHour offset current
    let nextHourStart := addHour currentHourStart
    let segmentEnd := min stop nextHourStart
    { hour := getHours offset currentHourStart, start := current, stop := segmentEnd } ::
      splitHours offset segmentEnd stop
  else []
termination_by (stop - current).toNat
decreasing_by
  have hlater := lt_addHour offset current
  omega

variable {offset current stop : Int}

theorem splitHours_of_lt (h : current < stop) : splitHours offset current stop =
    { hour := getHours offset (startOfHour offset current), start := current,
      stop := min stop (addHour (startOfHour offset current)) } ::
      splitHours offset (min stop (addHour (startOfHour offset current))) stop := by
  rw [splitHours, if_pos h]

theorem splitHours_of_le (h : stop ≤ current) : splitHours offset current stop = [] := by
  rw [splitHours, if_neg (by omega)]

/-- The parts lie in the interval, and none is empty. -/
theorem within_splitHours {segment : Segment} (h : segment ∈ splitHours offset current stop) :
    current ≤ segment.start ∧ segment.start < segment.stop ∧ segment.stop ≤ stop := by
  induction current using splitHours.induct offset stop with
  | case1 current hlt currentHourStart nextHourStart segmentEnd ih =>
    have hlater := lt_addHour offset current
    have hend : segmentEnd = min stop (addHour (startOfHour offset current)) := rfl
    clear_value segmentEnd
    rw [splitHours_of_lt hlt, ← hend] at h
    rcases List.mem_cons.mp h with rfl | h
    · show current ≤ current ∧ current < segmentEnd ∧ segmentEnd ≤ stop
      omega
    · obtain ⟨hstart, hproper, hstop⟩ := ih h
      exact ⟨by omega, hproper, hstop⟩
  | case2 current hge =>
    rw [splitHours_of_le (by omega)] at h
    cases h

/-- **The parts in an hour** are the instants that show it. -/
theorem covered_splitHours (hour : Nat) (x : Int) :
    (∃ segment ∈ splitHours offset current stop,
        segment.hour = hour ∧ segment.start ≤ x ∧ x < segment.stop) ↔
      (current ≤ x ∧ x < stop) ∧ getHours offset x = hour := by
  induction current using splitHours.induct offset stop with
  | case1 current hlt currentHourStart nextHourStart segmentEnd ih =>
    have hbefore := startOfHour_le offset current
    have hlater := lt_addHour offset current
    have hend : segmentEnd = min stop (addHour (startOfHour offset current)) := rfl
    clear_value segmentEnd
    rw [splitHours_of_lt hlt, List.exists_mem_cons_iff, ← hend, ih]
    constructor
    · rintro (⟨rfl, hstart, hstop⟩ | ⟨⟨hstart, hstop⟩, hhour⟩)
      · have hstart : current ≤ x := hstart
        have hstop : x < segmentEnd := hstop
        exact ⟨by omega, getHours_of_mem (by omega) (by omega)⟩
      · exact ⟨by omega, hhour⟩
    · rintro ⟨⟨hstart, hstop⟩, hhour⟩
      by_cases hfirst : x < segmentEnd
      · exact Or.inl ⟨(getHours_of_mem (by omega) (by omega)).symm.trans hhour, hstart, hfirst⟩
      · exact Or.inr ⟨⟨by omega, hstop⟩, hhour⟩
  | case2 current hge =>
    rw [splitHours_of_le (by omega)]
    constructor
    · rintro ⟨_, hmem, -⟩
      cases hmem
    · rintro ⟨⟨hstart, hstop⟩, -⟩
      omega

theorem apart_splitHours :
    (splitHours offset current stop).Pairwise fun v w => Apart v.interval w.interval := by
  induction current using splitHours.induct offset stop with
  | case1 current hlt currentHourStart nextHourStart segmentEnd ih =>
    rw [splitHours_of_lt hlt]
    refine List.pairwise_cons.mpr ⟨fun segment h x _ hx hx' _ => ?_, ih⟩
    have hafter := (within_splitHours h).1
    exact absurd hx (not_lt.mpr (le_trans hafter hx'))
  | case2 current hge =>
    rw [splitHours_of_le (by omega)]
    exact List.Pairwise.nil

/-! ## The intervals of an hour -/

/-- What of the intervals, one after another, lies in an hour. -/
def hourSegments (offset : Int) (hour : Nat) (ws : List (Int × Int)) : List (Int × Int) :=
  ((ws.flatMap fun w => splitHours offset w.1 w.2).filter (·.hour = hour)).map Segment.interval

variable {hour : Nat} {ws : List (Int × Int)}

theorem mem_hourSegments {v : Int × Int} : v ∈ hourSegments offset hour ws ↔
    ∃ w ∈ ws, ∃ segment ∈ splitHours offset w.1 w.2,
      segment.hour = hour ∧ segment.interval = v := by
  unfold hourSegments
  simp only [List.mem_map, List.mem_filter, List.mem_flatMap, decide_eq_true_eq]
  constructor
  · rintro ⟨segment, ⟨⟨w, hw, hsegment⟩, hhour⟩, hv⟩
    exact ⟨w, hw, segment, hsegment, hhour, hv⟩
  · rintro ⟨w, hw, segment, hsegment, hhour, hv⟩
    exact ⟨segment, ⟨⟨w, hw, hsegment⟩, hhour⟩, hv⟩

theorem le_of_mem_hourSegments {v : Int × Int} (h : v ∈ hourSegments offset hour ws) :
    v.1 ≤ v.2 := by
  obtain ⟨w, -, segment, hsegment, -, rfl⟩ := mem_hourSegments.mp h
  exact le_of_lt (within_splitHours hsegment).2.1

/-- **The intervals of an hour** are the instants of the union that show it. -/
theorem covered_hourSegments {x : Int} : Covered (hourSegments offset hour ws) x ↔
    Covered ws x ∧ getHours offset x = hour := by
  constructor
  · rintro ⟨v, hv, hstart, hstop⟩
    obtain ⟨w, hw, segment, hsegment, hhour, rfl⟩ := mem_hourSegments.mp hv
    obtain ⟨hwithin, hx⟩ :=
      (covered_splitHours hour x).mp ⟨segment, hsegment, hhour, hstart, hstop⟩
    exact ⟨⟨w, hw, hwithin⟩, hx⟩
  · rintro ⟨⟨w, hw, hwithin⟩, hx⟩
    obtain ⟨segment, hsegment, hhour, hstart, hstop⟩ :=
      (covered_splitHours hour x).mpr ⟨hwithin, hx⟩
    exact ⟨segment.interval, mem_hourSegments.mpr ⟨w, hw, segment, hsegment, hhour, rfl⟩,
      hstart, hstop⟩

/-- Where the intervals are apart, their parts are. -/
theorem apart_hourSegments (h : ws.Pairwise Apart) :
    (hourSegments offset hour ws).Pairwise Apart := by
  unfold hourSegments
  rw [List.pairwise_map]
  refine List.Pairwise.filter _ ?_
  rw [List.pairwise_flatMap]
  refine ⟨fun w _ => apart_splitHours, h.imp ?_⟩
  intro v w hapart part hpart part' hpart' x hstart hstop hstart' hstop'
  obtain ⟨hv, -, hv'⟩ := within_splitHours hpart
  obtain ⟨hw, -, hw'⟩ := within_splitHours hpart'
  exact hapart x (le_trans hv hstart) (lt_of_lt_of_le hstop hv') (le_trans hw hstart')
    (lt_of_lt_of_le hstop' hw')

/-- **In 24 hours an hour is shown for an hour**: two instants that are as far into it are the same
    or a day apart. -/
theorem unionLength_le_hour {first : Int}
    (h : ∀ w ∈ ws, first ≤ w.1 ∧ w.2 ≤ first + 24 * msPerHour) :
    (unionLength (hourSegments offset hour ws) : Int) ≤ msPerHour := by
  have hcard : (points (hourSegments offset hour ws)).card ≤ (stretch 0 msPerHour).card := by
    refine Finset.card_le_card_of_injOn (fun x => (x + offset) % msPerHour) ?_ ?_
    · intro x _
      have h0 := Int.emod_nonneg (x + offset) (show msPerHour ≠ 0 by decide)
      have hlt := Int.emod_lt_of_pos (x + offset) (show 0 < msPerHour by decide)
      exact Finset.mem_coe.mpr (mem_stretch.mpr ⟨h0, hlt⟩)
    · intro x hx y hy hsame
      obtain ⟨⟨v, hv, hvx, hxv⟩, hxhour⟩ := covered_hourSegments.mp (mem_points.mp hx)
      obtain ⟨⟨w, hw, hwy, hyw⟩, hyhour⟩ := covered_hourSegments.mp (mem_points.mp hy)
      have hvbounds := h v hv
      have hwbounds := h w hw
      have hhour := hxhour.trans hyhour.symm
      simp only [getHours, msPerHour] at *
      omega
  rw [card_stretch] at hcard
  unfold unionLength
  have hpos : (0 : Int) ≤ msPerHour := by decide
  omega

end Time
