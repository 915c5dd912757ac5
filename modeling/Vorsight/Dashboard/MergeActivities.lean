/-
  MERGING ACTIVITIES (client/src/features/activity/utils/mergeActivities.ts).

  The entries are sorted by time, equal neighbours are merged into the first of them, and the list
  is turned round.  Durations are exact; the server sends whole seconds.

  `mergeSequentialActivities_spec`: the list has one entry for each maximal run of equal neighbours
  in time order.  The pass is `Neighbours.merge` (`mergeLoop_eq`), and where no two timestamps are
  equal the sort has one result only.
-/
import Mathlib.Algebra.Order.Ring.Rat
import Vorsight.Library.Neighbours
import Vorsight.Library.StableSort

namespace Dashboard.MergeActivities

structure ActivityLogEntry where
  id : Int
  machineId : String
  timestamp : String
  activeWindow : Option String
  processName : Option String
  duration : Option Rat
  username : Option String := none
deriving DecidableEq, Repr

/-- `new Date(timestamp).getTime()`; `none` is `NaN`. -/
class DateParser where
  getTime : String → Option Int

/-- `activity.duration || 0` -/
def ActivityLogEntry.durationOrZero (activity : ActivityLogEntry) : Rat := activity.duration.getD 0

/-- What is compared for `isSame`. -/
def ActivityLogEntry.shown (activity : ActivityLogEntry) : Option String × Option String :=
  (activity.processName, activity.activeWindow)

/-- Merge by adding duration. -/
def addDuration (current activity : ActivityLogEntry) : ActivityLogEntry :=
  { current with duration := some (current.durationOrZero + activity.durationOrZero) }

/-- The loop, and `merged.push(current)` after it. -/
def mergeLoop (merged : List ActivityLogEntry) (current : ActivityLogEntry) :
    List ActivityLogEntry → List ActivityLogEntry
  | [] => merged ++ [current]
  | activity :: rest =>
    if activity.shown = current.shown then mergeLoop merged (addDuration current activity) rest
    else mergeLoop (merged ++ [current]) activity rest

def mergeSorted : List ActivityLogEntry → List ActivityLogEntry
  | [] => []
  | first :: rest => mergeLoop [] first rest

section Model

variable [DateParser]

/-- The difference of the times, where `sort` takes `NaN` for 0. -/
def compareTime (a b : ActivityLogEntry) : Int :=
  match DateParser.getTime a.timestamp, DateParser.getTime b.timestamp with
  | some s, some t => s - t
  | _, _ => 0

/-- Chronologically. -/
def sorted (activities : List ActivityLogEntry) : List ActivityLogEntry :=
  activities.mergeSort fun a b => compareTime a b ≤ 0

def mergeSequentialActivities (activities : List ActivityLogEntry) : List ActivityLogEntry :=
  (mergeSorted (sorted activities)).reverse

end Model

/-! ## The pass -/

theorem mergeLoop_eq : ∀ (rest merged : List ActivityLogEntry) (current : ActivityLogEntry),
    mergeLoop merged current rest =
      merged ++ Neighbours.merge ActivityLogEntry.shown addDuration current rest
  | [], _, _ => rfl
  | activity :: rest, merged, current => by
    rw [mergeLoop, Neighbours.merge]
    split
    · exact mergeLoop_eq rest merged _
    · rw [mergeLoop_eq rest, List.append_assoc]
      rfl

theorem mergeSorted_cons (first : ActivityLogEntry) (rest : List ActivityLogEntry) :
    mergeSorted (first :: rest) = Neighbours.merge ActivityLogEntry.shown addDuration first rest :=
  mergeLoop_eq rest [] first

theorem shown_addDuration (current activity : ActivityLogEntry) :
    (addDuration current activity).shown = current.shown := rfl

def totalDuration (activities : List ActivityLogEntry) : Rat :=
  (activities.map ActivityLogEntry.durationOrZero).sum

/-- The earliest entry of a run, with the run's total duration. -/
def Represents (activity : ActivityLogEntry) (run : List ActivityLogEntry) : Prop :=
  ∃ first rest, run = first :: rest ∧ activity = { first with duration := activity.duration } ∧
    activity.durationOrZero = totalDuration run

variable {xs : List ActivityLogEntry}

theorem totalDuration_mergeSorted : totalDuration (mergeSorted xs) = totalDuration xs := by
  cases xs with
  | nil => rfl
  | cons first rest =>
    rw [mergeSorted_cons]
    exact Neighbours.sum_merge (fun _ _ => rfl) rest first

/-- What an entry keeps besides its duration. -/
theorem sublist_mergeSorted {τ : Type} {mark : ActivityLogEntry → τ}
    (hmark : ∀ a b, mark (addDuration a b) = mark a) :
    ((mergeSorted xs).map mark).Sublist (xs.map mark) := by
  cases xs with
  | nil => exact List.Sublist.refl _
  | cons first rest =>
    rw [mergeSorted_cons]
    exact Neighbours.sublist_merge hmark rest first

theorem isChain_mergeSorted : (mergeSorted xs).IsChain fun a b => a.shown ≠ b.shown := by
  cases xs with
  | nil => exact List.isChain_nil
  | cons first rest =>
    rw [mergeSorted_cons]
    exact Neighbours.isChain_merge shown_addDuration rest first

theorem mergeSorted_of_isChain (h : xs.IsChain fun a b => a.shown ≠ b.shown) :
    mergeSorted xs = xs := by
  cases xs with
  | nil => rfl
  | cons first rest =>
    rw [mergeSorted_cons]
    exact Neighbours.merge_of_isChain h

theorem foldl_addDuration : ∀ (rest : List ActivityLogEntry) (first : ActivityLogEntry),
    rest.foldl addDuration first =
        { first with duration := (rest.foldl addDuration first).duration } ∧
      (rest.foldl addDuration first).durationOrZero = totalDuration (first :: rest)
  | [], first => ⟨rfl, by simp [totalDuration]⟩
  | activity :: rest, first => by
    obtain ⟨hrest, htotal⟩ := foldl_addDuration rest (addDuration first activity)
    rw [List.foldl_cons]
    refine ⟨hrest, ?_⟩
    rw [htotal]
    show (addDuration first activity).durationOrZero + totalDuration rest =
      first.durationOrZero + (activity.durationOrZero + totalDuration rest)
    rw [← add_assoc]
    rfl

theorem represents_mergeSorted : ∃ runs, Neighbours.MaximalRuns ActivityLogEntry.shown xs runs ∧
    List.Forall₂ Represents (mergeSorted xs) runs := by
  refine ⟨_, Neighbours.maximalRuns_splitBy ActivityLogEntry.shown xs, ?_⟩
  cases xs with
  | nil => exact .nil
  | cons first rest =>
    rw [mergeSorted_cons]
    refine (Neighbours.stands_merge shown_addDuration first rest).imp ?_
    rintro _ _ ⟨first, rest, rfl, rfl⟩
    obtain ⟨hfirst, htotal⟩ := foldl_addDuration rest first
    exact ⟨first, rest, rfl, hfirst, htotal⟩

/-! ## The sort -/

section Sorting

variable [DateParser] {activities : List ActivityLogEntry}

/-- The instant of an entry. -/
def ActivityLogEntry.time (activity : ActivityLogEntry) : Int :=
  (DateParser.getTime activity.timestamp).getD 0

/-- All timestamps parse. -/
def Parseable (activities : List ActivityLogEntry) : Prop :=
  ∀ activity ∈ activities, DateParser.getTime activity.timestamp ≠ none

theorem compareTime_eq (h : Parseable activities) : ∀ a ∈ activities, ∀ b ∈ activities,
    compareTime a b = a.time - b.time := by
  intro a ha b hb
  obtain ⟨s, hs⟩ := Option.ne_none_iff_exists'.mp (h a ha)
  obtain ⟨t, ht⟩ := Option.ne_none_iff_exists'.mp (h b hb)
  unfold compareTime ActivityLogEntry.time
  rw [hs, ht]
  rfl

theorem sorted_eq (h : Parseable activities) :
    sorted activities = activities.mergeSort fun a b => a.time ≤ b.time :=
  StableSort.mergeSort_eq_of_key (compareTime_eq h)

theorem perm_sorted : (sorted activities).Perm activities := List.mergeSort_perm _ _

theorem pairwise_sorted (h : Parseable activities) :
    (sorted activities).Pairwise fun a b => a.time ≤ b.time := by
  rw [sorted_eq h]
  exact StableSort.pairwise_sorted ActivityLogEntry.time activities

/-- No two entries at one instant. -/
def Distinct (activities : List ActivityLogEntry) : Prop :=
  activities.Pairwise fun a b => a.time ≠ b.time

theorem sorted_eq_of_perm {other : List ActivityLogEntry} (h : Parseable activities)
    (hdistinct : Distinct activities) (hperm : other.Perm activities) :
    sorted other = sorted activities := by
  rw [sorted_eq h, sorted_eq fun a ha => h a (hperm.mem_iff.mp ha)]
  exact StableSort.sorted_eq_of_perm hdistinct hperm

/-- The merged entries in time order. -/
theorem pairwise_mergeSorted {R : Int → Int → Prop} (h : xs.Pairwise fun a b => R a.time b.time) :
    (mergeSorted xs).Pairwise fun a b => R a.time b.time := by
  have htimes := @sublist_mergeSorted xs _ ActivityLogEntry.time fun _ _ => rfl
  exact List.pairwise_map.mp ((List.pairwise_map.mpr h).sublist htimes)

theorem parseable_mergeSorted (h : Parseable xs) : Parseable (mergeSorted xs) := by
  intro activity hactivity
  have htexts := @sublist_mergeSorted xs _ ActivityLogEntry.timestamp fun _ _ => rfl
  obtain ⟨original, horiginal, hsame⟩ := List.mem_map.mp (htexts.subset
    (List.mem_map_of_mem hactivity))
  rw [← hsame]
  exact h original horiginal

/-- What is in order already, the other way round. -/
theorem sorted_reverse (h : Parseable xs) (hdistinct : Distinct xs)
    (hpairs : xs.Pairwise fun a b => a.time ≤ b.time) : sorted xs.reverse = xs := by
  rw [sorted_eq_of_perm h hdistinct xs.reverse_perm, sorted_eq h]
  exact List.mergeSort_of_pairwise (hpairs.imp fun hle => decide_eq_true hle)

/-- **Merging is faithful**: the total duration stays, the entries fall in time, no two neighbours
    are equal, and each entry is the earliest one of a maximal run of equal neighbours in time
    order, with the run's duration; and where no two entries are at one instant, the result does
    not depend on their order, and merging again changes nothing. -/
theorem mergeSequentialActivities_spec (h : Parseable activities) :
    totalDuration (mergeSequentialActivities activities) = totalDuration activities ∧
    (mergeSequentialActivities activities).Pairwise (fun a b => b.time ≤ a.time) ∧
    (mergeSequentialActivities activities).IsChain (fun a b => a.shown ≠ b.shown) ∧
    (∃ sorted runs, sorted.Perm activities ∧ sorted.Pairwise (fun a b => a.time ≤ b.time) ∧
      Neighbours.MaximalRuns ActivityLogEntry.shown sorted runs ∧
      List.Forall₂ Represents (mergeSequentialActivities activities).reverse runs) ∧
    (Distinct activities →
      (∀ other, other.Perm activities →
        mergeSequentialActivities other = mergeSequentialActivities activities) ∧
      mergeSequentialActivities (mergeSequentialActivities activities) =
        mergeSequentialActivities activities) := by
  have hsorted := pairwise_sorted h
  refine ⟨?_, ?_, ?_, ?_, fun hdistinct => ⟨fun other hperm => ?_, ?_⟩⟩
  · have hreverse : totalDuration (mergeSequentialActivities activities) =
        totalDuration (mergeSorted (sorted activities)) :=
      ((List.reverse_perm _).map _).sum_eq
    rw [hreverse, totalDuration_mergeSorted]
    exact (perm_sorted.map _).sum_eq
  · exact List.pairwise_reverse.mpr (pairwise_mergeSorted hsorted)
  · refine List.isChain_reverse.mpr (isChain_mergeSorted.imp ?_)
    exact fun a b hne => Ne.symm hne
  · obtain ⟨runs, hruns, hrepresents⟩ := @represents_mergeSorted (sorted activities)
    refine ⟨sorted activities, runs, perm_sorted, hsorted, hruns, ?_⟩
    rw [mergeSequentialActivities, List.reverse_reverse]
    exact hrepresents
  · rw [mergeSequentialActivities, sorted_eq_of_perm h hdistinct hperm]
    rfl
  · have hsortedDistinct : Distinct (sorted activities) :=
      hdistinct.perm perm_sorted.symm fun hne => Ne.symm hne
    have hagain : sorted (mergeSequentialActivities activities) =
        mergeSorted (sorted activities) := by
      refine sorted_reverse (parseable_mergeSorted ?_) ?_ (pairwise_mergeSorted hsorted)
      · exact fun a ha => h a (perm_sorted.mem_iff.mp ha)
      · exact pairwise_mergeSorted hsortedDistinct
    rw [mergeSequentialActivities, hagain, mergeSorted_of_isChain isChain_mergeSorted]
    rfl

end Sorting

/-- Two instants of a morning. -/
@[reducible] def morning : DateParser :=
  ⟨fun text =>
    if text = "2024-05-06T08:00:00.000Z" then some 1714982400000
    else if text = "2024-05-06T08:10:00.000Z" then some 1714983000000
    else none⟩

/-- An entry of one window. -/
def entry (id : Int) (timestamp : String) (duration : Option Rat) : ActivityLogEntry :=
  { id, machineId := "desk", timestamp, activeWindow := some "main.rs", processName := some "code",
    duration }

/-- The later one has no duration. -/
def twoEntries : List ActivityLogEntry :=
  [entry 2 "2024-05-06T08:10:00.000Z" none, entry 1 "2024-05-06T08:00:00.000Z" (some 600)]

theorem mergeSequentialActivities_twoEntries :
    totalDuration (@mergeSequentialActivities morning twoEntries) = 600 ∧
      @mergeSequentialActivities morning twoEntries.reverse =
        @mergeSequentialActivities morning twoEntries := by
  have hparse : @Parseable morning twoEntries := by
    unfold Parseable
    decide
  have hdistinct : @Distinct morning twoEntries := by
    unfold Distinct
    decide
  obtain ⟨htotal, -, -, -, hunique⟩ := @mergeSequentialActivities_spec morning twoEntries hparse
  refine ⟨htotal.trans (by decide +kernel), (hunique hdistinct).1 _ (List.reverse_perm _)⟩

end Dashboard.MergeActivities
