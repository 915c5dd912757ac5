/-
  THE ANALYTICS SUMMARY (server/src/routes/web/analytics.ts).

  The server's clock has a fixed offset from UTC.  Times are milliseconds; the quotients of the
  timeline are exact here, since doubles round none of them beyond the half of a minute.

  1. **The timeline** — the sessions are cut at the local hours, and what falls into an hour is
     merged.  Each hour counts every active second once (`timeline_exact`).
-/
import Mathlib.Algebra.Order.Round
import Mathlib.Data.Rat.Floor
import Mathlib.Tactic.Linarith
import Vorsight.Library.Hours
import Vorsight.Server.Database

namespace Server.Analytics

open Intervals Time

/-! ## The timeline -/

/-- `start` and `end` of a session, in milliseconds. -/
def interval (activity : ActivitySession) : Int × Int :=
  (activity.startTime * 1000, activity.endTime * 1000)

/-- `hourlyIntervals[hour]` -/
def hourlyIntervals (offset : Int) (activities : List ActivitySession) (hour : Nat) :
    List (Int × Int) :=
  hourSegments offset hour (activities.map interval)

/-- Active minutes by merging overlapping intervals, before they are rounded. -/
def exactMinutes (offset : Int) (activities : List ActivitySession) (hour : Nat) : Rat :=
  (mergedLength (hourlyIntervals offset activities hour) : Rat) / 1000 / 60

structure TimelineHour where
  hour : Nat
  activeMinutes : Int
deriving DecidableEq, Repr

def timeline (offset : Int) (activities : List ActivitySession) : List TimelineHour :=
  (List.range 24).map fun hour =>
    { hour, activeMinutes := round (exactMinutes offset activities hour) }

/-- The instant is in one of the sessions. -/
def Active (activities : List ActivitySession) (x : Int) : Prop :=
  ∃ activity ∈ activities, activity.startTime * 1000 ≤ x ∧ x < activity.endTime * 1000

/-- The length of the union of the sessions, as far as it shows the hour, in milliseconds. -/
noncomputable def activeMillis (offset : Int) (activities : List ActivitySession) (hour : Nat) :
    Nat :=
  {x : Int | Active activities x ∧ getHours offset x = hour}.ncard

variable {offset : Int} {activities : List ActivitySession} {hour : Nat}

theorem covered_interval {x : Int} :
    Covered (activities.map interval) x ↔ Active activities x := by
  constructor
  · rintro ⟨w, hw, hx⟩
    obtain ⟨activity, hactivity, rfl⟩ := List.mem_map.mp hw
    exact ⟨activity, hactivity, hx⟩
  · rintro ⟨activity, hactivity, hx⟩
    exact ⟨interval activity, List.mem_map_of_mem hactivity, hx⟩

theorem unionLength_hourlyIntervals :
    unionLength (hourlyIntervals offset activities hour) = activeMillis offset activities hour := by
  rw [unionLength_eq_ncard, activeMillis]
  congr 1
  ext x
  show Covered (hourSegments offset hour (activities.map interval)) x ↔ _
  rw [covered_hourSegments, covered_interval]
  rfl

theorem exactMinutes_eq : exactMinutes offset activities hour =
    (activeMillis offset activities hour : Rat) / 1000 / 60 := by
  have hmerged : mergedLength (hourlyIntervals offset activities hour) =
      unionLength (hourlyIntervals offset activities hour) :=
    mergedLength_eq fun _ hv => le_of_mem_hourSegments hv
  rw [exactMinutes, hmerged, unionLength_hourlyIntervals, Int.cast_natCast]

/-- Sessions of one day are active for an hour at most in each hour. -/
theorem activeMillis_le {first : Int}
    (h : ∀ activity ∈ activities, first ≤ activity.startTime ∧
      activity.endTime ≤ first + 24 * 3600) :
    activeMillis offset activities hour ≤ 3600000 := by
  have hwindow : ∀ w ∈ activities.map interval,
      first * 1000 ≤ w.1 ∧ w.2 ≤ first * 1000 + 24 * msPerHour := by
    intro w hw
    obtain ⟨activity, hactivity, rfl⟩ := List.mem_map.mp hw
    obtain ⟨hstart, hend⟩ := h activity hactivity
    unfold interval msPerHour
    omega
  have hle := @unionLength_le_hour offset hour _ _ hwindow
  show activeMillis offset activities hour ≤ 3600000
  rw [← unionLength_hourlyIntervals]
  unfold msPerHour at hle
  exact_mod_cast hle

/-- **The timeline counts every active instant once**: an hour's active minutes are the length of
    the union of the sessions within that local hour, rounded; and sixty at most, where the sessions
    lie in one day. -/
theorem timeline_exact : (timeline offset activities).map (·.hour) = List.range 24 ∧
    ∀ t ∈ timeline offset activities,
      t.activeMinutes = round ((activeMillis offset activities t.hour : Rat) / 1000 / 60) ∧
      ((∃ first, ∀ activity ∈ activities, first ≤ activity.startTime ∧
        activity.endTime ≤ first + 24 * 3600) → t.activeMinutes ≤ 60) := by
  constructor
  · rw [timeline, List.map_map]
    exact List.map_id' _
  · intro t ht
    obtain ⟨hour, -, rfl⟩ := List.mem_map.mp ht
    have hexact : round (exactMinutes offset activities hour) =
        round ((activeMillis offset activities hour : Rat) / 1000 / 60) := by
      rw [exactMinutes_eq]
    refine ⟨hexact, ?_⟩
    rintro ⟨first, hwindow⟩
    show round (exactMinutes offset activities hour) ≤ 60
    rw [hexact, round_eq, Int.floor_le_iff]
    have hle : (activeMillis offset activities hour : Rat) ≤ 3600000 := by
      exact_mod_cast activeMillis_le hwindow
    push_cast
    linarith

end Server.Analytics
