/-
  THE ACTIVITY TIMELINE (client/src/features/activity/components/ActivityTimeline.tsx).

  The merged entries, newest first, in sections by local day.  The days are keyed by their texts
  `yyyy-MM-dd`, the keys are sorted by the dates that they are read as, and the heading of a section
  is the local date of that.

  1. `sections_spec`: one section for each day on which there is an entry, latest first, with all
     entries of the day; every merged entry is shown once.

  2. `headings_iff`: a text with a date only is read in UTC, but printed in local time, so west of
     Greenwich every heading is the day before (`heading_of_day`).
-/
import Vorsight.Dashboard.MergeActivities
import Vorsight.Library.Calendar
import Vorsight.Library.GroupBy

namespace Dashboard.ActivityTimeline

open MergeActivities

structure TimelineSection where
  heading : String
  entries : List ActivityLogEntry
deriving DecidableEq, Repr

section Model

variable [DateParser] (offset : Int → Int)

/-- The local day of an instant, `offset` being the zone's milliseconds ahead of UTC. -/
def localDay (ms : Int) : Int := (ms + offset ms) / 86400000

/-- `mergeSequentialActivities(activities).sort(...)` -/
def mergedActivities (activities : List ActivityLogEntry) : List ActivityLogEntry :=
  (mergeSequentialActivities activities).mergeSort fun a b => compareTime b a ≤ 0

/-- `format(date, "yyyy-MM-dd")`, of a date that is valid. -/
def dayKey (activity : ActivityLogEntry) : String := Time.isoKey (localDay offset activity.time)

/-- The `reduce`; `format` throws at an invalid date. -/
def groupedActivities (activities : List ActivityLogEntry) :
    Option (List (String × List ActivityLogEntry)) :=
  if (mergedActivities activities).all fun activity =>
      (DateParser.getTime activity.timestamp).isSome then
    some (GroupBy.groupBy (dayKey offset) (mergedActivities activities))
  else none

/-- `new Date(b).getTime() - new Date(a).getTime()`, where `sort` takes `NaN` for 0. -/
def compareKeys (a b : String) : Int :=
  match Time.dateOnly a, Time.dateOnly b with
  | some s, some t => t - s
  | _, _ => 0

def sortedKeys (groups : List (String × List ActivityLogEntry)) : List String :=
  (groups.map Prod.fst).mergeSort fun a b => compareKeys a b ≤ 0

/-- What is rendered; `none` is an exception. -/
def timeline (activities : List ActivityLogEntry) : Option (List TimelineSection) := do
  let groups ← groupedActivities offset activities
  (sortedKeys groups).mapM fun key => do
    let ms ← Time.dateOnly key
    let entries ← groups.lookup key
    return { heading := Time.longDate (localDay offset ms), entries }

end Model

variable [DateParser] {offset : Int → Int} {activities : List ActivityLogEntry}

/-- All timestamps parse, and their local years have four digits. -/
def Dated (offset : Int → Int) (activities : List ActivityLogEntry) : Prop :=
  ∀ activity ∈ activities, DateParser.getTime activity.timestamp ≠ none ∧
    1 ≤ (Time.dateOfDay (localDay offset activity.time)).1 ∧
    (Time.dateOfDay (localDay offset activity.time)).1 ≤ 9999

theorem Dated.parseable (h : Dated offset activities) : Parseable activities :=
  fun activity hactivity => (h activity hactivity).1

/-! ## The entries -/

/-- The second sort finds them in order. -/
theorem mergedActivities_eq (h : Parseable activities) :
    mergedActivities activities = mergeSequentialActivities activities := by
  have hparse : Parseable (mergeSequentialActivities activities) := by
    intro activity hactivity
    exact parseable_mergeSorted (fun a ha => h a (perm_sorted.mem_iff.mp ha)) activity
      (List.mem_reverse.mp hactivity)
  have hkey : ∀ a ∈ mergeSequentialActivities activities,
      ∀ b ∈ mergeSequentialActivities activities, compareTime b a = -a.time - -b.time := by
    intro a ha b hb
    rw [compareTime_eq hparse b hb a ha]
    omega
  have hpairs : (mergeSequentialActivities activities).Pairwise fun a b => -a.time ≤ -b.time := by
    refine (List.pairwise_reverse.mpr (pairwise_mergeSorted (pairwise_sorted h))).imp ?_
    intro a b hle
    omega
  unfold mergedActivities
  rw [StableSort.mergeSort_eq_of_key hkey]
  exact List.mergeSort_of_pairwise (hpairs.imp fun hle => decide_eq_true hle)

theorem totalDuration_merged :
    totalDuration (mergeSequentialActivities activities) = totalDuration activities := by
  calc totalDuration (mergeSequentialActivities activities)
      = totalDuration (mergeSorted (sorted activities)) := ((List.reverse_perm _).map _).sum_eq
    _ = totalDuration (sorted activities) := totalDuration_mergeSorted
    _ = totalDuration activities := (perm_sorted.map _).sum_eq

theorem dated_merged (h : Dated offset activities) : Dated offset (mergedActivities activities) := by
  rw [mergedActivities_eq h.parseable]
  intro activity hactivity
  have htexts := @sublist_mergeSorted (sorted activities) _ ActivityLogEntry.timestamp
    fun _ _ => rfl
  obtain ⟨original, horiginal, hsame⟩ := List.mem_map.mp (htexts.subset
    (List.mem_map_of_mem (List.mem_reverse.mp hactivity)))
  have htime : activity.time = original.time := by
    unfold ActivityLogEntry.time
    rw [hsame]
  rw [← hsame, htime]
  exact h original (perm_sorted.mem_iff.mp horiginal)

theorem groupedActivities_eq (h : Dated offset activities) : groupedActivities offset activities =
    some (GroupBy.groupBy (dayKey offset) (mergedActivities activities)) := by
  unfold groupedActivities
  rw [if_pos]
  refine List.all_eq_true.mpr fun activity hactivity => ?_
  exact Option.isSome_iff_ne_none.mpr (dated_merged h activity hactivity).1

/-! ## The days -/

omit [DateParser] in
theorem mapM_eq_some {α β : Type} {f : α → Option β} {g : α → β} :
    ∀ {xs : List α}, (∀ x ∈ xs, f x = some (g x)) → xs.mapM f = some (xs.map g)
  | [], _ => rfl
  | x :: xs, h => by
    rw [List.mapM_cons, h x List.mem_cons_self,
      mapM_eq_some fun y hy => h y (List.mem_cons_of_mem _ hy)]
    rfl

/-- The days of the sections. -/
def days (offset : Int → Int) (activities : List ActivityLogEntry) : List Int :=
  (sortedKeys (GroupBy.groupBy (dayKey offset) (mergedActivities activities))).map fun key =>
    (Time.dateOnly key).getD 0 / 86400000

/-- What is shown of a day. -/
def sectionOf (offset : Int → Int) (activities : List ActivityLogEntry) (day : Int) :
    TimelineSection where
  heading := Time.longDate (localDay offset (day * 86400000))
  entries := (mergedActivities activities).filter (localDay offset ·.time = day)

/-- A key is the text of a day, and is read as that. -/
def Reads (key : String) (day : Int) : Prop :=
  key = Time.isoKey day ∧ Time.dateOnly key = some (day * 86400000)

theorem reads_dayKey (h : Dated offset activities) {activity : ActivityLogEntry}
    (hactivity : activity ∈ mergedActivities activities) :
    Reads (dayKey offset activity) (localDay offset activity.time) := by
  obtain ⟨-, hpast, hfuture⟩ := dated_merged h activity hactivity
  exact ⟨rfl, Time.dateOnly_isoKey hpast hfuture⟩

omit [DateParser] in
theorem Reads.day {key : String} {day : Int} (h : Reads key day) :
    (Time.dateOnly key).getD 0 = day * 86400000 := by
  rw [h.2]
  rfl

/-- Different days have different keys. -/
theorem dayKey_eq_iff (h : Dated offset activities) {a b : ActivityLogEntry}
    (ha : a ∈ mergedActivities activities) (hb : b ∈ mergedActivities activities) :
    dayKey offset a = dayKey offset b ↔ localDay offset a.time = localDay offset b.time := by
  constructor
  · intro hkeys
    have hread := (reads_dayKey h ha).day
    rw [hkeys, (reads_dayKey h hb).day] at hread
    omega
  · intro hdays
    unfold dayKey
    rw [hdays]

section Keys

variable {groups : List (String × List ActivityLogEntry)}
  (h : Dated offset activities)
  (hgroups : GroupBy.Groups (dayKey offset) (mergedActivities activities) groups)
include h hgroups

theorem reads_key {key : String} (hkey : key ∈ groups.map Prod.fst) :
    ∃ activity ∈ mergedActivities activities, dayKey offset activity = key ∧
      Reads key (localDay offset activity.time) := by
  obtain ⟨activity, hactivity, rfl⟩ := (hgroups.mem_keys key).mp hkey
  exact ⟨activity, hactivity, rfl, reads_dayKey h hactivity⟩

/-- The sorted keys, latest first. -/
theorem pairwise_sortedKeys : (sortedKeys groups).Pairwise fun a b =>
    (Time.dateOnly b).getD 0 < (Time.dateOnly a).getD 0 := by
  have hcompare : ∀ a ∈ groups.map Prod.fst, ∀ b ∈ groups.map Prod.fst,
      compareKeys a b = -(Time.dateOnly a).getD 0 - -(Time.dateOnly b).getD 0 := by
    intro a ha b hb
    obtain ⟨actA, -, -, hreadA⟩ := reads_key h hgroups ha
    obtain ⟨actB, -, -, hreadB⟩ := reads_key h hgroups hb
    rw [hreadA.day, hreadB.day]
    unfold compareKeys
    rw [hreadA.2, hreadB.2]
    dsimp only
    omega
  have hsorted : sortedKeys groups = (groups.map Prod.fst).mergeSort
      fun a b => -(Time.dateOnly a).getD 0 ≤ -(Time.dateOnly b).getD 0 :=
    StableSort.mergeSort_eq_of_key hcompare
  have hperm : (sortedKeys groups).Perm (groups.map Prod.fst) := List.mergeSort_perm _ _
  have hle := StableSort.pairwise_sorted (fun key => -(Time.dateOnly key).getD 0)
    (groups.map Prod.fst)
  rw [← hsorted] at hle
  have hnodup := List.nodup_iff_pairwise_ne.mp (hperm.nodup_iff.mpr hgroups.nodup)
  refine (hle.and hnodup).imp_of_mem fun {a b} ha hb hab => ?_
  obtain ⟨actA, hactA, rfl, hreadA⟩ := reads_key h hgroups (hperm.mem_iff.mp ha)
  obtain ⟨actB, hactB, rfl, hreadB⟩ := reads_key h hgroups (hperm.mem_iff.mp hb)
  have hdays : localDay offset actA.time ≠ localDay offset actB.time :=
    fun heq => hab.2 ((dayKey_eq_iff h hactA hactB).mpr heq)
  have hle := hab.1
  rw [hreadA.day, hreadB.day] at hle ⊢
  omega

end Keys

/-- The days in order. -/
theorem days_spec (h : Dated offset activities) :
    (days offset activities).Pairwise (fun d d' => d' < d) ∧
      ∀ day, day ∈ days offset activities ↔
        ∃ activity ∈ mergedActivities activities, localDay offset activity.time = day := by
  have hgroups := @GroupBy.groups_groupBy _ _ _ (dayKey offset) (mergedActivities activities)
  have hmem : ∀ key, key ∈ sortedKeys (GroupBy.groupBy (dayKey offset)
      (mergedActivities activities)) → _ := fun key hkey =>
    reads_key h hgroups ((List.mergeSort_perm _ _).mem_iff.mp hkey)
  refine ⟨?_, fun day => ?_⟩
  · refine List.pairwise_map.mpr ((pairwise_sortedKeys h hgroups).imp_of_mem ?_)
    intro a b ha hb hlt
    obtain ⟨actA, -, -, hreadA⟩ := hmem a ha
    obtain ⟨actB, -, -, hreadB⟩ := hmem b hb
    rw [hreadA.day, hreadB.day] at hlt ⊢
    omega
  · unfold days
    rw [List.mem_map]
    constructor
    · rintro ⟨key, hkey, rfl⟩
      obtain ⟨activity, hactivity, -, hread⟩ := hmem key hkey
      refine ⟨activity, hactivity, ?_⟩
      rw [hread.day]
      omega
    · rintro ⟨activity, hactivity, rfl⟩
      refine ⟨dayKey offset activity, ?_, ?_⟩
      · exact (List.mergeSort_perm _ _).mem_iff.mpr
          ((hgroups.mem_keys _).mpr ⟨activity, hactivity, rfl⟩)
      · rw [(reads_dayKey h hactivity).day]
        omega

/-- **One section a day.** -/
theorem timeline_eq (h : Dated offset activities) :
    timeline offset activities =
      some ((days offset activities).map (sectionOf offset activities)) := by
  have hgroups := @GroupBy.groups_groupBy _ _ _ (dayKey offset) (mergedActivities activities)
  unfold timeline
  rw [groupedActivities_eq h]
  unfold days
  rw [List.map_map]
  refine mapM_eq_some fun key hkey => ?_
  have hkey := (List.mergeSort_perm _ _).mem_iff.mp hkey
  obtain ⟨activity, hactivity, hsame, hread⟩ := reads_key h hgroups hkey
  have hentries : (mergedActivities activities).filter (dayKey offset · = key) =
      (mergedActivities activities).filter
        (localDay offset ·.time = localDay offset activity.time) := by
    refine List.filter_congr fun other hother => ?_
    rw [← hsame, decide_eq_decide]
    exact dayKey_eq_iff h hother hactivity
  have hday : (Time.dateOnly key).getD 0 / 86400000 = localDay offset activity.time := by
    rw [hread.day, Int.mul_ediv_cancel _ (by decide)]
  show (do
    let ms ← Time.dateOnly key
    let entries ← (GroupBy.groupBy _ _).lookup key
    return { heading := Time.longDate (localDay offset ms), entries }) =
    some (sectionOf offset activities ((Time.dateOnly key).getD 0 / 86400000))
  rw [hday, hread.2, hgroups.lookup hkey, hentries]
  rfl

theorem mem_days (h : Dated offset activities) {day : Int} : day ∈ days offset activities ↔
    ∃ activity ∈ mergeSequentialActivities activities, localDay offset activity.time = day := by
  rw [(days_spec h).2, mergedActivities_eq h.parseable]

/-- **The sections of the timeline** are the days of the entries, latest first, each with all
    entries of the day, newest first; so every merged entry is shown once, and the durations shown
    add up to those of the activities. -/
theorem sections_spec (h : Dated offset activities) :
    ∃ (sections : List TimelineSection) (days : List Int),
      timeline offset activities = some sections ∧
      days.Pairwise (fun d d' => d' < d) ∧
      (∀ day, day ∈ days ↔
        ∃ activity ∈ mergeSequentialActivities activities, localDay offset activity.time = day) ∧
      List.Forall₂ (fun day shown => shown.entries =
        (mergeSequentialActivities activities).filter (localDay offset ·.time = day) ∧
        shown.entries.Pairwise fun a b => b.time ≤ a.time) days sections ∧
      (sections.flatMap (·.entries)).Perm (mergeSequentialActivities activities) ∧
      totalDuration (sections.flatMap (·.entries)) = totalDuration activities := by
  have hmerged := mergedActivities_eq h.parseable
  have hpairs : (mergeSequentialActivities activities).Pairwise fun a b => b.time ≤ a.time :=
    List.pairwise_reverse.mpr (pairwise_mergeSorted (pairwise_sorted h.parseable))
  have hperm : (((days offset activities).map (sectionOf offset activities)).flatMap
      (·.entries)).Perm (mergeSequentialActivities activities) := by
    rw [List.flatMap_map]
    simp only [sectionOf, hmerged]
    refine GroupBy.perm_flatMap_filter ?_ fun activity hactivity => ?_
    · exact List.nodup_iff_pairwise_ne.mpr ((days_spec h).1.imp fun hlt => ne_of_gt hlt)
    · exact (mem_days h).mpr ⟨activity, hactivity, rfl⟩
  refine ⟨_, days offset activities, timeline_eq h, (days_spec h).1, fun day => mem_days h, ?_,
    hperm, ?_⟩
  · refine List.forall₂_map_right_iff.mpr (List.forall₂_same.mpr fun day _ => ?_)
    simp only [sectionOf, hmerged]
    exact ⟨trivial, hpairs.filter _⟩
  · have htotal : totalDuration (((days offset activities).map
        (sectionOf offset activities)).flatMap (·.entries)) =
        totalDuration (mergeSequentialActivities activities) := (hperm.map _).sum_eq
    exact htotal.trans totalDuration_merged

omit [DateParser] in
theorem sections_spec_twoEntries : ∃ sections,
    @timeline morning (fun _ => 7200000) twoEntries = some sections ∧
      totalDuration (sections.flatMap (·.entries)) = 600 := by
  have hdated : @Dated morning (fun _ => 7200000) twoEntries := by
    unfold Dated
    decide
  obtain ⟨sections, days, hsections, -, -, -, -, htotal⟩ :=
    @sections_spec morning (fun _ => 7200000) twoEntries hdated
  exact ⟨sections, hsections, htotal.trans (by decide +kernel)⟩

/-! ## The headings -/

omit [DateParser] in
/-- Within a day of UTC. -/
theorem localDay_midnight {day : Int} (hzone : (offset (day * 86400000)).natAbs < 86400000) :
    localDay offset (day * 86400000) = if 0 ≤ offset (day * 86400000) then day else day - 1 := by
  unfold localDay
  split <;> omega

theorem heading_of_day {day : Int} (hzone : (offset (day * 86400000)).natAbs < 86400000) :
    (sectionOf offset activities day).heading = Time.longDate day ↔
      0 ≤ offset (day * 86400000) := by
  show Time.longDate (localDay offset (day * 86400000)) = Time.longDate day ↔ _
  rw [localDay_midnight hzone]
  split
  next hahead => simp [hahead]
  next hbehind =>
    constructor
    · intro heq
      exact absurd heq (Time.longDate_pred day)
    · intro hahead
      exact absurd hahead hbehind

/-- **The headings are right where the zone is not behind UTC**, and only there: on each day that
    is shown, when that day begins in UTC. -/
theorem headings_iff (hzone : ∀ ms, (offset ms).natAbs < 86400000) (h : Dated offset activities)
    {sections : List TimelineSection} (hsections : timeline offset activities = some sections) :
    (∀ shown ∈ sections, ∀ activity ∈ shown.entries,
        shown.heading = Time.longDate (localDay offset activity.time)) ↔
      ∀ activity ∈ mergeSequentialActivities activities,
        0 ≤ offset (localDay offset activity.time * 86400000) := by
  have hmerged := mergedActivities_eq h.parseable
  rw [timeline_eq h] at hsections
  obtain rfl := Option.some.inj hsections
  constructor
  · intro hheadings activity hactivity
    refine (heading_of_day (hzone _)).mp (hheadings (sectionOf offset activities
      (localDay offset activity.time)) (List.mem_map_of_mem ?_) activity ?_)
    · exact (mem_days h).mpr ⟨activity, hactivity, rfl⟩
    · show activity ∈ (mergedActivities activities).filter _
      rw [hmerged, List.mem_filter]
      exact ⟨hactivity, decide_eq_true rfl⟩
  · intro hahead shown hshown activity hactivity
    obtain ⟨day, -, rfl⟩ := List.mem_map.mp hshown
    have hactivity : activity ∈ (mergedActivities activities).filter
        (localDay offset ·.time = day) := hactivity
    rw [hmerged, List.mem_filter] at hactivity
    obtain ⟨hmem, hday⟩ := hactivity
    have hday := of_decide_eq_true hday
    rw [hday]
    exact (heading_of_day (hzone _)).mpr (hday ▸ hahead activity hmem)

omit [DateParser] in
/-- Four hours behind UTC. -/
theorem headings_iff_twoEntries : ∃ sections,
    @timeline morning (fun _ => -14400000) twoEntries = some sections ∧
      ¬ ∀ shown ∈ sections, ∀ activity ∈ shown.entries, shown.heading =
        Time.longDate (localDay (fun _ => -14400000) (@ActivityLogEntry.time morning activity)) := by
  have hdated : @Dated morning (fun _ => -14400000) twoEntries := by
    unfold Dated
    decide
  have hsections := @timeline_eq morning (fun _ => -14400000) twoEntries hdated
  obtain ⟨activity, hactivity⟩ : ∃ activity, activity ∈
      @mergeSequentialActivities morning twoEntries := by
    refine List.exists_mem_of_ne_nil _ fun hnil => ?_
    have htotal := @totalDuration_merged morning twoEntries
    rw [hnil] at htotal
    exact absurd htotal (by decide +kernel)
  refine ⟨_, hsections, fun hheadings => ?_⟩
  have hzone := (@headings_iff morning (fun _ => -14400000) twoEntries (fun _ => by decide) hdated
    _ hsections).mp hheadings activity hactivity
  exact absurd hzone (by decide)

end Dashboard.ActivityTimeline
