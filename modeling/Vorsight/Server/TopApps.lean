/-
  THE TOP APPS (server/src/routes/web/analytics.ts).

  The durations of the sessions are added up by app, turned into whole percentages of the total, and
  the first five of the sorted percentages are returned.  The sums are exact: for the column's
  32-bit durations a double holds those of four million sessions.

  1. **The sums** are kept in an ordinary object: a name that its prototype has does not begin at
     zero but with a function, so that its entry becomes a text (`inherited`), and a sum for
     `__proto__` is not kept at all.

  2. **The percentages** (`percentage`) are rounded to doubles twice and then to integers, and only
     these are sorted.  Among equal ones the order of the object's entries decides.

  3. `isTop_iff`: the list shows the apps with the largest totals exactly when the apps are `Ranked`
     by their percentages.
-/
import Mathlib.Algebra.Order.Round
import Mathlib.Data.List.Induction
import Vorsight.Library.Binary64
import Vorsight.Library.Js
import Vorsight.Library.StableSort
import Vorsight.Server.Database

namespace Server.TopApps

open Binary64 Js StableSort

/-! ## The sums -/

/-- What every object has without a value of its own. -/
def inherited : List String :=
  ["constructor", "hasOwnProperty", "isPrototypeOf", "propertyIsEnumerable", "toLocaleString",
    "toString", "valueOf", "__defineGetter__", "__defineSetter__", "__lookupGetter__",
    "__lookupSetter__", "__proto__"]

/-- The object's own properties, in the order of their creation; `none` is a text. -/
abbrev AppDurations := List (String × Option Int)

/-- `appDurations[appName] = (appDurations[appName] || 0) + duration` -/
def addDuration (appDurations : AppDurations) (appName : String) (duration : Int) : AppDurations :=
  if appName = "__proto__" then appDurations  -- sets the prototype, to which a text is ignored
  else if appDurations.any (·.1 = appName) then
    appDurations.map fun (name, value) =>
      if name = appName then (name, value.map (· + duration)) else (name, value)
  else appDurations ++ [(appName, if appName ∈ inherited then none else some duration)]

structure Sums where
  appDurations : AppDurations := []
  totalDuration : Int := 0
deriving DecidableEq, Repr

def appName (activity : ActivitySession) : String := textOr activity.processName "Unknown"

/-- `activities.forEach(...)`, as far as the apps go. -/
def sums (activities : List ActivitySession) : Sums :=
  activities.foldl (fun s activity =>
    { appDurations := addDuration s.appDurations (appName activity) activity.durationSeconds,
      totalDuration := s.totalDuration + activity.durationSeconds }) {}

/-! ## The list -/

/-- The index of an array that a property's name stands for. -/
def arrayIndex (name : String) : Option Int :=
  (number name.toList).filter fun n => toString n = name ∧ n < 2 ^ 32 - 1

/-- Indices come first, in ascending order, then all other names. -/
def propertyRank (name : String) : Int := (arrayIndex name).getD (2 ^ 32 - 1)

/-- `Object.entries(appDurations)` -/
def entries (appDurations : AppDurations) : AppDurations :=
  appDurations.mergeSort fun a b => propertyRank a.1 ≤ propertyRank b.1

/-- `totalDuration > 0 ? Math.round((duration / totalDuration) * 100) : 0`; `none` is `NaN`. -/
def percentage (totalDuration : Int) (duration : Option Int) : Option Int :=
  if 0 < totalDuration then
    duration.map fun (d : Int) => round (nearest (nearest ((d : Rat) / totalDuration) * 100))
  else some 0

structure TopApp where
  name : String
  percentage : Option Int
deriving DecidableEq, Repr

/-- `b.percentage - a.percentage`, where `sort` takes `NaN` for 0. -/
def comparePercentage (a b : TopApp) : Int :=
  match b.percentage, a.percentage with
  | some q, some p => q - p
  | _, _ => 0

/-- The apps before they are sorted. -/
def allApps (activities : List ActivitySession) : List TopApp :=
  (entries (sums activities).appDurations).map fun (name, duration) =>
    { name, percentage := percentage (sums activities).totalDuration duration }

/-- `topApps` may be this list. -/
def IsTopApps (activities : List ActivitySession) (topApps : List TopApp) : Prop :=
  ∃ sorted, Sorts comparePercentage (allApps activities) sorted ∧ topApps = sorted.take 5

/-! ## The apps with the largest totals -/

/-- The duration of all of an app's sessions. -/
def total : List ActivitySession → String → Int
  | [], _ => 0
  | activity :: rest, name =>
    (if appName activity = name then activity.durationSeconds else 0) + total rest name

/-- No app has a larger total than one that is returned, and these are listed by falling totals. -/
def IsTop (activities : List ActivitySession) (topApps : List TopApp) : Prop :=
  (∀ a ∈ topApps, ∀ name ∈ activities.map appName, name ∉ topApps.map (·.name) →
    total activities name ≤ total activities a.name) ∧
  topApps.Pairwise fun a b => total activities b.name ≤ total activities a.name

/-- The apps whose sums are kept, by their first sessions. -/
def apps (activities : List ActivitySession) : List String :=
  ((activities.map appName).filter (· ≠ "__proto__")).eraseDups

/-- The value of an app's property. -/
def kept (activities : List ActivitySession) (name : String) : Option Int :=
  if name ∈ inherited then none else some (total activities name)

/-- The percentage of the total, `NaN` for a text. -/
def share (activities : List ActivitySession) (name : String) : Option Int :=
  percentage (sums activities).totalDuration (kept activities name)

/-- An index before any other name and before larger indices, else the first session decides. -/
def EntersBefore (activities : List ActivitySession) (a b : String) : Prop :=
  propertyRank a < propertyRank b ∨
    propertyRank a = propertyRank b ∧ [a, b].Sublist (apps activities)
deriving Decidable

/-- By shares: greater, or smaller, or (also where one is `NaN`) neither. -/
def compareShare (activities : List ActivitySession) (a b : String) : Int :=
  comparePercentage ⟨a, share activities a⟩ ⟨b, share activities b⟩

/-- A greater share, or no smaller one and an earlier entry. -/
def Precedes (activities : List ActivitySession) (a b : String) : Prop :=
  compareShare activities a b < 0 ∨
    compareShare activities a b = 0 ∧ EntersBefore activities a b
deriving Decidable

/-- Fewer than five precede the app. -/
def AmongFive (activities : List ActivitySession) (a : String) : Prop :=
  (apps activities).countP (Precedes activities · a) < 5
deriving Decidable

/-- There is no `NaN`, or nothing but `NaN` and equal percentages. -/
def Comparable (activities : List ActivitySession) : Prop :=
  (∀ name ∈ apps activities, share activities name ≠ none) ∨
    ∃ p, ∀ name ∈ apps activities, share activities name = none ∨ share activities name = some p

/-- **The percentages rank the apps by their totals.** -/
structure Ranked (activities : List ActivitySession) : Prop where
  comparable : Comparable activities
  /-- No equal share of a later entry belongs to a larger total. -/
  ties : ∀ a ∈ apps activities, ∀ b ∈ apps activities, AmongFive activities a →
    compareShare activities a b = 0 → EntersBefore activities a b →
    total activities b ≤ total activities a
  /-- The sum that is not kept would not be larger. -/
  unkept : ∀ a ∈ apps activities, AmongFive activities a →
    total activities "__proto__" ≤ total activities a

variable {activities : List ActivitySession} {activity : ActivitySession} {name a b : String}

/-! ## What the sums are -/

theorem sums_concat : sums (activities ++ [activity]) =
    { appDurations :=
        addDuration (sums activities).appDurations (appName activity) activity.durationSeconds,
      totalDuration := (sums activities).totalDuration + activity.durationSeconds } := by
  rw [sums, List.foldl_append]
  rfl

theorem total_concat : total (activities ++ [activity]) name =
    total activities name + if appName activity = name then activity.durationSeconds else 0 := by
  induction activities with
  | nil => simp [total]
  | cons first rest ih =>
    rw [List.cons_append, total, total, ih]
    omega

theorem total_eq_zero (h : name ∉ activities.map appName) : total activities name = 0 := by
  induction activities with
  | nil => rfl
  | cons first rest ih =>
    rw [List.map_cons, List.mem_cons, not_or] at h
    rw [total, if_neg (Ne.symm h.1), ih h.2, add_zero]

theorem total_nonneg (h : ∀ activity ∈ activities, 0 ≤ activity.durationSeconds) :
    0 ≤ total activities name := by
  induction activities with
  | nil => exact le_refl 0
  | cons first rest ih =>
    have hfirst := h first List.mem_cons_self
    have hrest := ih fun activity hactivity => h activity (List.mem_cons_of_mem _ hactivity)
    rw [total]
    split
    · omega
    · omega

theorem mem_apps : name ∈ apps activities ↔ name ∈ activities.map appName ∧ name ≠ "__proto__" := by
  rw [apps, List.mem_eraseDups, List.mem_filter, decide_eq_true_eq]

/-- A session's app is entered unless it is there already. -/
theorem apps_concat : apps (activities ++ [activity]) =
    if appName activity = "__proto__" ∨ appName activity ∈ apps activities then apps activities
    else apps activities ++ [appName activity] := by
  unfold apps
  rw [List.map_append, List.filter_append, List.eraseDups_append]
  by_cases hproto : appName activity = "__proto__"
  · simp [hproto, List.removeAll]
  · by_cases hmem : appName activity ∈ activities.map appName
    · have hold : ∃ a ∈ activities, appName a = appName activity := List.mem_map.mp hmem
      simp [hproto, List.removeAll, List.mem_eraseDups, hold]
    · have hnew : ¬ ∃ a ∈ activities, appName a = appName activity := fun h =>
        hmem (List.mem_map.mpr h)
      simp [hproto, List.removeAll, List.mem_eraseDups, hnew, List.eraseDups_cons]

theorem nodup_apps : (apps activities).Nodup := by
  induction activities using List.reverseRecOn with
  | nil => exact List.nodup_nil
  | append_singleton activities activity ih =>
    rw [apps_concat]
    split
    · exact ih
    · rename_i hnew
      rw [not_or] at hnew
      exact List.nodup_append.mpr ⟨ih, List.nodup_singleton _, by
        rintro name hname _ hlast rfl
        exact hnew.2 (List.mem_singleton.mp hlast ▸ hname)⟩

theorem kept_concat_of_ne (h : appName activity ≠ name) :
    kept (activities ++ [activity]) name = kept activities name := by
  rw [kept, total_concat, if_neg h, add_zero, kept]

theorem kept_concat_self : kept (activities ++ [activity]) (appName activity) =
    (kept activities (appName activity)).map (· + activity.durationSeconds) := by
  unfold kept
  rw [total_concat, if_pos rfl]
  split
  · rfl
  · rfl

/-- **The object's properties**: one for each app, with the duration of its sessions. -/
theorem appDurations_eq : (sums activities).appDurations =
    (apps activities).map fun name => (name, kept activities name) := by
  induction activities using List.reverseRecOn with
  | nil => rfl
  | append_singleton activities activity ih =>
    rw [sums_concat, apps_concat, ih]
    dsimp only
    by_cases hproto : appName activity = "__proto__"
    · rw [addDuration, if_pos hproto, if_pos (Or.inl hproto)]
      refine List.map_congr_left fun name hname => ?_
      rw [kept_concat_of_ne (hproto ▸ (mem_apps.mp hname).2.symm)]
    · by_cases hold : appName activity ∈ apps activities
      · have hany : ((apps activities).map fun name => (name, kept activities name)).any
            (·.1 = appName activity) = true := by
          simpa using hold
        rw [addDuration, if_neg hproto, if_pos hany, if_pos (Or.inr hold), List.map_map]
        refine List.map_congr_left fun name _ => ?_
        by_cases hname : name = appName activity
        · subst hname
          simp [kept_concat_self]
        · simp [hname, kept_concat_of_ne (Ne.symm hname)]
      · have hany : ¬ ((apps activities).map fun name => (name, kept activities name)).any
            (·.1 = appName activity) = true := by
          simpa using hold
        have hnew : appName activity ∉ activities.map appName := fun h =>
          hold (mem_apps.mpr ⟨h, hproto⟩)
        rw [addDuration, if_neg hproto, if_neg hany, if_neg (not_or.mpr ⟨hproto, hold⟩),
          List.map_append, List.map_singleton, kept, total_concat, if_pos rfl, total_eq_zero hnew,
          zero_add]
        congr 1
        refine List.map_congr_left fun name hname => ?_
        rw [kept_concat_of_ne fun h => hold (h ▸ hname)]

/-! ## The apps, sorted -/

/-- An app as the list shows it. -/
def top (activities : List ActivitySession) (name : String) : TopApp :=
  { name, percentage := share activities name }

/-- The names of the entries, in their order. -/
def names (activities : List ActivitySession) : List String :=
  (apps activities).mergeSort fun a b => propertyRank a ≤ propertyRank b

theorem allApps_eq : allApps activities = (names activities).map (top activities) := by
  have hentries := @List.map_mergeSort _ _
    (fun a b => decide (propertyRank a ≤ propertyRank b))
    (fun a b : String × Option Int => decide (propertyRank a.1 ≤ propertyRank b.1))
    (fun name => (name, kept activities name)) (apps activities) fun _ _ _ _ => rfl
  rw [allApps, entries, appDurations_eq, ← hentries, List.map_map]
  rfl

theorem mem_names : name ∈ names activities ↔ name ∈ apps activities :=
  (List.mergeSort_perm _ _).mem_iff

theorem nodup_names : (names activities).Nodup :=
  (List.mergeSort_perm _ _).nodup_iff.mpr nodup_apps

theorem pair_names (ha : a ∈ apps activities) (hb : b ∈ apps activities) (hne : a ≠ b) :
    [a, b].Sublist (names activities) ↔ EntersBefore activities a b :=
  pair_mergeSort_iff nodup_apps ha hb hne

/-! ## Shares and totals -/

theorem percentage_mono {T d d' : Int} {p q : Int} (hd : 0 ≤ d) (hle : d ≤ d')
    (hp : percentage T (some d) = some p) (hq : percentage T (some d') = some q) : p ≤ q := by
  unfold percentage at hp hq
  by_cases hT : 0 < T
  · rw [if_pos hT, Option.map_some, Option.some_inj] at hp hq
    have hpos : (0 : Rat) < T := by exact_mod_cast hT
    have hzero : (0 : Rat) ≤ (d : Rat) / T := div_nonneg (by exact_mod_cast hd) hpos.le
    have hquotient : (d : Rat) / T ≤ (d' : Rat) / T :=
      div_le_div_of_nonneg_right (by exact_mod_cast hle) hpos.le
    have hratio : nearest ((d : Rat) / T) * 100 ≤ nearest ((d' : Rat) / T) * 100 :=
      mul_le_mul_of_nonneg_right (nearest_mono hzero hquotient) (by norm_num)
    have hshare := nearest_mono (mul_nonneg (nearest_nonneg hzero) (by norm_num)) hratio
    rw [← hp, ← hq, round_eq, round_eq]
    exact Int.floor_le_floor (by linarith)
  · rw [if_neg hT, Option.some_inj] at hp hq
    omega

/-- A greater percentage belongs to a greater total. -/
theorem total_lt_of_share_lt {p q : Int} (h : ∀ activity ∈ activities, 0 ≤ activity.durationSeconds)
    (ha : share activities a = some p) (hb : share activities b = some q) (hlt : p < q) :
    total activities a < total activities b := by
  by_contra hle
  by_cases hT : 0 < (sums activities).totalDuration
  · have hnumber : ∀ {name p}, share activities name = some p →
        kept activities name = some (total activities name) := by
      intro name p hname
      rw [kept]
      split
      · rename_i htext
        rw [share, kept, if_pos htext, percentage, if_pos hT] at hname
        cases hname
      · rfl
    rw [share, hnumber ha] at ha
    rw [share, hnumber hb] at hb
    have hmono := percentage_mono (total_nonneg h) (not_lt.mp hle) hb ha
    omega
  · rw [share, percentage, if_neg hT, Option.some_inj] at ha hb
    omega

/-- The shares are compared as keys. -/
def ComparedBy (key : String → Int) (activities : List ActivitySession) : Prop :=
  ∀ a ∈ apps activities, ∀ b ∈ apps activities, compareShare activities a b = key a - key b

theorem exists_key (h : Comparable activities) : ∃ key, ComparedBy key activities := by
  rcases h with hnumbers | ⟨p, hequal⟩
  · refine ⟨fun name => -(share activities name).getD 0, fun a ha b hb => ?_⟩
    obtain ⟨p, hp⟩ := Option.ne_none_iff_exists'.mp (hnumbers a ha)
    obtain ⟨q, hq⟩ := Option.ne_none_iff_exists'.mp (hnumbers b hb)
    simp only [compareShare, comparePercentage, hp, hq, Option.getD_some]
    omega
  · refine ⟨fun _ => 0, fun a ha b hb => ?_⟩
    rcases hequal a ha with hp | hp <;> rcases hequal b hb with hq | hq <;>
      simp [compareShare, comparePercentage, hp, hq]

theorem compareShare_self : compareShare activities a a = 0 := by
  unfold compareShare comparePercentage
  cases share activities a with
  | none => rfl
  | some p => exact Int.sub_self p

theorem not_precedes_self : ¬ Precedes activities a a := by
  rintro (hlt | ⟨-, hlt | ⟨-, hpair⟩⟩)
  · exact absurd (compareShare_self ▸ hlt) (lt_irrefl 0)
  · exact absurd hlt (lt_irrefl _)
  · exact ne_of_pair nodup_apps hpair rfl

/-! ## The list, where the shares are comparable -/

section comparable

variable {key : String → Int}

/-- The names by falling shares. -/
def sortedNames (key : String → Int) (activities : List ActivitySession) : List String :=
  (names activities).mergeSort fun a b => key a ≤ key b

theorem perm_sortedNames : (sortedNames key activities).Perm (apps activities) :=
  (List.mergeSort_perm _ _).trans (List.mergeSort_perm _ _)

theorem pair_sortedNames (hkey : ComparedBy key activities) (ha : a ∈ apps activities)
    (hb : b ∈ apps activities) :
    [a, b].Sublist (sortedNames key activities) ↔ Precedes activities a b := by
  by_cases hne : a = b
  · subst hne
    have hnodup : (sortedNames key activities).Nodup := perm_sortedNames.nodup_iff.mpr nodup_apps
    exact iff_of_false (fun h => ne_of_pair hnodup h rfl) not_precedes_self
  · rw [sortedNames, pair_mergeSort_iff nodup_names (mem_names.mpr ha) (mem_names.mpr hb) hne,
      pair_names ha hb hne, Precedes, hkey a ha b hb]
    have hlt : key a < key b ↔ key a - key b < 0 := by omega
    have heq : key a = key b ↔ key a - key b = 0 := by omega
    rw [hlt, heq]

theorem amongFive_iff (hkey : ComparedBy key activities) (ha : a ∈ apps activities) :
    AmongFive activities a ↔ a ∈ (sortedNames key activities).take 5 := by
  rw [mem_take_iff (perm_sortedNames.nodup_iff.mpr nodup_apps) (perm_sortedNames.mem_iff.mpr ha),
    perm_sortedNames.countP_eq, AmongFive]
  have hcount : (apps activities).countP (Precedes activities · a) =
      (apps activities).countP fun c => [c, a].Sublist (sortedNames key activities) := by
    refine List.countP_congr fun c hc => ?_
    rw [decide_eq_true_eq, decide_eq_true_eq, pair_sortedNames hkey hc ha]
  rw [hcount]

theorem isTopApps_iff {topApps : List TopApp} (hkey : ComparedBy key activities) :
    IsTopApps activities topApps ↔
      topApps = ((sortedNames key activities).map (top activities)).take 5 := by
  have hsorts : ∀ ys, Sorts comparePercentage (allApps activities) ys ↔
      ys = (sortedNames key activities).map (top activities) := by
    intro ys
    rw [allApps_eq, @sorts_iff _ _ _ (fun app => key app.name)]
    · rw [sortedNames, @List.map_mergeSort _ _ (fun a b => decide (key a ≤ key b))
        (fun a b : TopApp => decide (key a.name ≤ key b.name)) (top activities) _
        fun _ _ _ _ => rfl]
    · intro x hx y hy
      obtain ⟨a, ha, rfl⟩ := List.mem_map.mp hx
      obtain ⟨b, hb, rfl⟩ := List.mem_map.mp hy
      exact hkey a (mem_names.mp ha) b (mem_names.mp hb)
  simp only [IsTopApps, hsorts, exists_eq_left]

end comparable

/-! ## When the list shows the largest totals -/

theorem isTop_take_iff {ns : List String} (hns : ns.Perm (apps activities))
    (h : ∀ activity ∈ activities, 0 ≤ activity.durationSeconds) :
    IsTop activities ((ns.map (top activities)).take 5) ↔ OnTop (total activities) 5 ns ∧
      ∀ a ∈ ns.take 5, total activities "__proto__" ≤ total activities a := by
  have hnodup : (ns.take 5 ++ ns.drop 5).Nodup := by
    rw [List.take_append_drop]
    exact hns.nodup_iff.mpr nodup_apps
  have hnames : ((ns.take 5).map (top activities)).map (·.name) = ns.take 5 := by
    rw [List.map_map]
    exact List.map_id' _
  rw [← List.map_take, IsTop, hnames, List.pairwise_map, List.forall_mem_map, OnTop]
  constructor
  · rintro ⟨hlargest, hlisted⟩
    refine ⟨⟨hlisted, fun a ha b hb => ?_⟩, fun a ha => ?_⟩
    · have happ : b ∈ apps activities := hns.mem_iff.mp (List.mem_of_mem_drop hb)
      exact hlargest a ha b (mem_apps.mp happ).1 fun hb' =>
        (List.nodup_append.mp hnodup).2.2 b hb' b hb rfl
    · by_cases hproto : "__proto__" ∈ activities.map appName
      · refine hlargest a ha _ hproto fun hmem => ?_
        exact (mem_apps.mp (hns.mem_iff.mp (List.mem_of_mem_take hmem))).2 rfl
      · rw [total_eq_zero hproto]
        exact total_nonneg h
  · rintro ⟨⟨hlisted, hrest⟩, hproto⟩
    refine ⟨fun a ha name hname hnot => ?_, hlisted⟩
    by_cases hn : name = "__proto__"
    · exact hn ▸ hproto a ha
    · have hmem : name ∈ ns.take 5 ++ ns.drop 5 := by
        rw [List.take_append_drop]
        exact hns.mem_iff.mpr (mem_apps.mpr ⟨hname, hn⟩)
      exact hrest a ha name ((List.mem_append.mp hmem).resolve_left hnot)

/-- Comparable shares give one list, which the rest of `Ranked` decides. -/
theorem onTop_sortedNames_iff {key : String → Int} (hkey : ComparedBy key activities)
    (h : ∀ activity ∈ activities, 0 ≤ activity.durationSeconds) :
    OnTop (total activities) 5 (sortedNames key activities) ↔
      ∀ a ∈ apps activities, ∀ b ∈ apps activities, AmongFive activities a →
        compareShare activities a b = 0 → EntersBefore activities a b →
        total activities b ≤ total activities a := by
  have hmem : ∀ {name}, name ∈ sortedNames key activities ↔ name ∈ apps activities :=
    perm_sortedNames.mem_iff
  rw [onTop_iff (perm_sortedNames.nodup_iff.mpr nodup_apps)]
  constructor
  · intro htop a ha b hb hfive hsame henters
    refine htop a b ?_ ((amongFive_iff hkey ha).mp hfive)
    exact (pair_sortedNames hkey ha hb).mpr (Or.inr ⟨hsame, henters⟩)
  · intro hties a b hab hfive
    have ha := hmem.mp (mem_of_pair hab).1
    have hb := hmem.mp (mem_of_pair hab).2
    rcases (pair_sortedNames hkey ha hb).mp hab with hlt | ⟨hsame, henters⟩
    · -- only numbers differ
      unfold compareShare comparePercentage at hlt
      dsimp only at hlt
      cases hp : share activities a with
      | none =>
        rw [hp] at hlt
        cases hq : share activities b <;> simp [hq] at hlt
      | some p =>
        cases hq : share activities b with
        | none => simp [hp, hq] at hlt
        | some q =>
          rw [hp, hq] at hlt
          have hgreater := total_lt_of_share_lt h hq hp (by simpa using hlt)
          omega
    · exact hties a ha b hb ((amongFive_iff hkey ha).mpr hfive) hsame henters

/-- Two different percentages beside `NaN`. -/
theorem exists_of_not_comparable (h : ¬ Comparable activities) :
    ∃ a ∈ apps activities, ∃ b ∈ apps activities, ∃ c ∈ apps activities, ∃ p q,
      share activities a = some p ∧ share activities b = some q ∧ share activities c = none ∧
      p < q := by
  simp only [Comparable, not_or, not_forall, not_exists, ne_eq, not_not] at h
  obtain ⟨⟨c, hc, hnan⟩, hdiffer⟩ := h
  have hnumber : ∀ p, ∃ name ∈ apps activities, ∃ q, share activities name = some q ∧ q ≠ p := by
    intro p
    obtain ⟨name, hname, hnone, hp⟩ := hdiffer p
    obtain ⟨q, hq⟩ := Option.ne_none_iff_exists'.mp hnone
    exact ⟨name, hname, q, hq, fun heq => hp (heq ▸ hq)⟩
  obtain ⟨a, ha, p, hp, -⟩ := hnumber 0
  obtain ⟨b, hb, q, hq, hne⟩ := hnumber p
  rcases lt_or_gt_of_ne hne with hlt | hlt
  · exact ⟨b, hb, a, ha, c, hc, q, p, hq, hp, hnan, hlt⟩
  · exact ⟨a, ha, b, hb, c, hc, p, q, hp, hq, hnan, hlt⟩

/-- What is compared with `NaN` may end up in any order, also with the smaller total first. -/
theorem exists_not_isTop (h : ∀ activity ∈ activities, 0 ≤ activity.durationSeconds)
    (hcomparable : ¬ Comparable activities) :
    ∃ topApps, IsTopApps activities topApps ∧ ¬ IsTop activities topApps := by
  obtain ⟨a, ha, b, hb, c, hc, p, q, hp, hq, hnan, hlt⟩ := exists_of_not_comparable hcomparable
  have hinconsistent : ¬ Consistent comparePercentage (allApps activities) := by
    intro hconsistent
    rw [allApps_eq] at hconsistent
    have hmem : ∀ {name}, name ∈ apps activities →
        top activities name ∈ (names activities).map (top activities) := fun hname =>
      List.mem_map_of_mem (mem_names.mpr hname)
    have htrans := hconsistent.trans _ (hmem ha) _ (hmem hc) _ (hmem hb)
    simp only [comparePercentage, top, hp, hq, hnan] at htrans
    omega
  have hbrest : b ∈ (names activities).erase a := by
    refine (List.mem_erase_of_ne fun hba => ?_).mpr (mem_names.mpr hb)
    rw [hba, hp, Option.some_inj] at hq
    omega
  have hperm : (a :: b :: ((names activities).erase a).erase b).Perm (names activities) :=
    ((List.perm_cons_erase hbrest).symm.cons a).trans
      (List.perm_cons_erase (mem_names.mpr ha)).symm
  refine ⟨_, ⟨(a :: b :: ((names activities).erase a).erase b).map (top activities), ?_, rfl⟩, ?_⟩
  · refine ⟨?_, fun hconsistent => absurd hconsistent hinconsistent⟩
    rw [allApps_eq]
    exact hperm.map _
  · rintro ⟨-, hlisted⟩
    have hpair := (List.pairwise_cons.mp hlisted).1 (top activities b) List.mem_cons_self
    have hgreater := total_lt_of_share_lt h hp hq hlt
    exact absurd hpair (not_le.mpr hgreater)

/-- **The list shows the apps with the largest totals**, by falling totals and whatever the sort
    does where its comparator is not consistent, exactly when the percentages rank the apps. -/
theorem isTop_iff (h : ∀ activity ∈ activities, 0 ≤ activity.durationSeconds) :
    (∀ topApps, IsTopApps activities topApps → IsTop activities topApps) ↔ Ranked activities := by
  by_cases hcomparable : Comparable activities
  · obtain ⟨key, hkey⟩ := exists_key hcomparable
    have hmem : ∀ {name}, name ∈ (sortedNames key activities).take 5 ↔
        name ∈ apps activities ∧ AmongFive activities name := by
      intro name
      constructor
      · intro hname
        have happ := perm_sortedNames.mem_iff.mp (List.mem_of_mem_take hname)
        exact ⟨happ, (amongFive_iff hkey happ).mpr hname⟩
      · rintro ⟨happ, hfive⟩
        exact (amongFive_iff hkey happ).mp hfive
    have hlist : (∀ topApps, IsTopApps activities topApps → IsTop activities topApps) ↔
        IsTop activities (((sortedNames key activities).map (top activities)).take 5) := by
      simp only [isTopApps_iff hkey, forall_eq]
    rw [hlist, isTop_take_iff perm_sortedNames h, onTop_sortedNames_iff hkey h]
    constructor
    · rintro ⟨hties, hproto⟩
      exact ⟨hcomparable, hties, fun a ha hfive => hproto a (hmem.mpr ⟨ha, hfive⟩)⟩
    · rintro ⟨-, hties, hproto⟩
      exact ⟨hties, fun a ha => hproto a (hmem.mp ha).1 (hmem.mp ha).2⟩
  · refine iff_of_false (fun htop => ?_) fun hranked => hcomparable hranked.comparable
    obtain ⟨topApps, hallowed, hnot⟩ := exists_not_isTop h hcomparable
    exact hnot (htop topApps hallowed)

/-- A session of an app. -/
def session (processName : String) (durationSeconds : Int) : ActivitySession :=
  { id := 1, machineId := "desk", startTime := 0, endTime := durationSeconds, durationSeconds,
    processName := some processName, activeWindow := none, username := none, createdAt := default,
    updatedAt := default }

/-- Two apps whose percentages differ. -/
def twoApps : List ActivitySession := [session "code" 2700, session "chrome" 900]

theorem isTopApps_twoApps :
    IsTopApps twoApps [⟨"code", some 75⟩, ⟨"chrome", some 25⟩] := by
  have hnames : names twoApps = apps twoApps := List.mergeSort_of_pairwise (by decide +kernel)
  have hall : allApps twoApps = [⟨"code", some 75⟩, ⟨"chrome", some 25⟩] := by
    rw [allApps_eq, hnames]
    decide +kernel
  refine ⟨_, ⟨List.Perm.refl _, fun _ => ?_⟩, ?_⟩
  · rw [hall]
    exact (List.mergeSort_of_pairwise (by decide +kernel)).symm
  · rw [hall]
    rfl

theorem isTop_twoApps : IsTop twoApps [⟨"code", some 75⟩, ⟨"chrome", some 25⟩] :=
  (isTop_iff (by decide)).mpr ⟨Or.inl (by decide +kernel), by decide +kernel, by decide +kernel⟩ _
    isTopApps_twoApps

/-- Six apps with 17 percent each. -/
def closeTotals : List ActivitySession :=
  [session "a" 1000, session "b" 1000, session "c" 1000, session "d" 1000, session "e" 1000,
    session "f" 1001]

/-- The app that was used longest is left out. -/
theorem not_isTop_closeTotals : ¬ ∀ activities : List ActivitySession,
    (∀ activity ∈ activities, 0 ≤ activity.durationSeconds) →
    ∀ topApps, IsTopApps activities topApps → IsTop activities topApps := by
  intro h
  have hkey : ComparedBy (fun _ => 0) closeTotals := by
    have hequal : ∀ a ∈ apps closeTotals, ∀ b ∈ apps closeTotals,
        compareShare closeTotals a b = 0 := by decide +kernel
    exact hequal
  have hsorted : sortedNames (fun _ => 0) closeTotals = apps closeTotals := by
    have hnames : names closeTotals = apps closeTotals :=
      List.mergeSort_of_pairwise (by decide +kernel)
    rw [sortedNames, hnames]
    exact List.mergeSort_of_pairwise (by decide +kernel)
  have htop := h closeTotals (by decide) _ ((isTopApps_iff hkey).mpr rfl)
  rw [hsorted] at htop
  have hle := htop.1 (top closeTotals "a") (List.mem_cons_self) "f" (by decide) (by decide +kernel)
  exact absurd hle (by decide)

end Server.TopApps
