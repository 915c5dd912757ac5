/-
  WHAT THE COORDINATOR SENDS of the samples it is given.

  A spell is a stretch of samples with one window title.  The coordinator keeps what it knew when
  the spell began, and sends it when a sample with another title ends the spell.

  1. **Spells** — `spells` cuts the samples at each change of the title.  Samples outside the
     calendar, and those at its very beginning, count for nothing (`tracked`).

  2. **What is sent** (`sent_eq`): one payload for each spell that has ended, with the process of
     its first sample and the user of the very first sample of all.
-/
import Vorsight.Service.ActivityCoordinator

namespace Service.ActivityCoordinator

open Time

/-! ## Spells -/

/-- A stretch of samples with one window title, and the sample that ended it. -/
structure Spell where
  opening : ActivityData
  samples : List ActivityData
  closing : ActivityData

/-- The samples with a time after `DateTime.MinValue`. -/
def tracked (samples : List ActivityData) : List ActivityData :=
  samples.filter fun x => -62135596800 < x.timestamp ∧ x.timestamp ≤ 253402300799

/-- The spells that end in `rest`, where `opening` has begun one and `seen` are its samples. -/
def spellsFrom (opening : ActivityData) (seen : List ActivityData) :
    List ActivityData → List Spell
  | [] => []
  | x :: rest =>
    if x.activeWindow = opening.activeWindow then spellsFrom opening (seen ++ [x]) rest
    else ⟨opening, seen, x⟩ :: spellsFrom x [x] rest

/-- The spells that have ended. -/
def spells (samples : List ActivityData) : List Spell :=
  match tracked samples with
  | [] => []
  | x :: rest => spellsFrom x [x] rest

/-- The user of the first sample. -/
def firstUser (samples : List ActivityData) : String :=
  ((tracked samples).head?.map (·.username)).getD ""

/-- The seconds from the first sample of a spell to the sample that ended it. -/
def Spell.duration (p : Spell) : Int := toInt32 (p.closing.timestamp - p.opening.timestamp)

/-- The time of a sample. -/
def timeOf (x : ActivityData) : DateTime :=
  (DateTime.fromUnixTimeSeconds x.timestamp).getD .minValue

/-- What is sent of a spell. -/
def Spell.payload (user : String) (p : Spell) : ActivityPayload where
  timestamp := timeOf p.opening
  activeWindow := p.opening.activeWindow
  processName := p.opening.processName
  duration := p.duration
  username := user

/-- What is sent of the samples, while connected. -/
def sent (samples : List ActivityData) : List ActivityPayload :=
  (samples.foldl (fun s x => s.updateActivity x true) ({} : State)).activities

/-! ## Times -/

/-- The time of a tracked sample. -/
theorem time_tracked {x : ActivityData}
    (hx : -62135596800 < x.timestamp ∧ x.timestamp ≤ 253402300799) :
    DateTime.fromUnixTimeSeconds x.timestamp = some (timeOf x) ∧
      ((timeOf x).ticks : Int) = (x.timestamp + 62135596800) * 10000000 := by
  have hrange : -62135596800 ≤ x.timestamp ∧ x.timestamp ≤ 253402300799 := by omega
  have htime : DateTime.fromUnixTimeSeconds x.timestamp =
      some ⟨((x.timestamp + 62135596800) * 10000000).toNat, by unfold maxTicks; omega⟩ :=
    dif_pos hrange
  unfold timeOf
  rw [htime]
  refine ⟨rfl, ?_⟩
  show ((((x.timestamp + 62135596800) * 10000000).toNat : Nat) : Int) = _
  omega

theorem timeOf_ne_minValue {x : ActivityData}
    (hx : -62135596800 < x.timestamp ∧ x.timestamp ≤ 253402300799) :
    timeOf x ≠ .minValue := by
  intro h
  have hticks := (time_tracked hx).2
  rw [h] at hticks
  have hzero : ((DateTime.minValue.ticks : Nat) : Int) = 0 := rfl
  omega

/-- An untracked sample is outside the calendar, or at its beginning. -/
theorem time_untracked {x : ActivityData}
    (hx : ¬ (-62135596800 < x.timestamp ∧ x.timestamp ≤ 253402300799)) :
    DateTime.fromUnixTimeSeconds x.timestamp = none ∨
      (x.timestamp = -62135596800 ∧
        DateTime.fromUnixTimeSeconds x.timestamp = some .minValue) := by
  by_cases hmin : x.timestamp = -62135596800
  · right
    refine ⟨hmin, ?_⟩
    rw [hmin]
    rfl
  · left
    have hrange : ¬ (-62135596800 ≤ x.timestamp ∧ x.timestamp ≤ 253402300799) := by omega
    exact dif_neg hrange

/-! ## The coordinator between two changes of the title -/

/-- The coordinator is in a spell that `opening` has begun. -/
structure Tracking (user : String) (opening : ActivityData) (s : State) : Prop where
  window : s.currentWindow = opening.activeWindow
  process : s.currentProcess = opening.processName
  start : s.currentActivityStart = timeOf opening
  user : s.currentUsername = user

variable {user : String} {opening x : ActivityData} {s : State}

/-- The seconds between two samples. -/
theorem seconds_between
    (hopening : -62135596800 < opening.timestamp ∧ opening.timestamp ≤ 253402300799)
    (hx : -62135596800 < x.timestamp ∧ x.timestamp ≤ 253402300799) :
    ((timeOf x).since (timeOf opening)).tdiv ticksPerSecond = x.timestamp - opening.timestamp := by
  unfold DateTime.since ticksPerSecond
  rw [(time_tracked hx).2, (time_tracked hopening).2]
  have hproduct : (x.timestamp + 62135596800) * 10000000 -
      (opening.timestamp + 62135596800) * 10000000 =
        (x.timestamp - opening.timestamp) * 10000000 := by omega
  rw [hproduct]
  exact Int.mul_tdiv_cancel _ (by decide)

/-- What a sample sends of the spell that it ends: nothing, if that has no length. -/
theorem previousActivity_tracking (h : Tracking user opening s)
    (hopening : -62135596800 < opening.timestamp ∧ opening.timestamp ≤ 253402300799)
    (hx : -62135596800 < x.timestamp ∧ x.timestamp ≤ 253402300799) (seen : List ActivityData) :
    s.previousActivity x (timeOf x) =
      if opening.timestamp < x.timestamp then
        some (Spell.payload (if user ≠ "" then user else x.username) ⟨opening, seen, x⟩)
      else none := by
  have hpos : 0 < toInt32 (x.timestamp - opening.timestamp) ↔
      opening.timestamp < x.timestamp := by
    unfold toInt32
    omega
  unfold State.previousActivity
  simp only [h.user, h.start, h.window, h.process, seconds_between hopening hx, hpos]
  rfl

/-- A sample during a spell: it goes on, or the next one begins, and what has a length is sent while
    connected. -/
theorem updateActivity_tracking (h : Tracking user opening s)
    (hopening : -62135596800 < opening.timestamp ∧ opening.timestamp ≤ 253402300799)
    (hx : -62135596800 < x.timestamp ∧ x.timestamp ≤ 253402300799) (isConnected : Bool)
    (seen : List ActivityData) :
    if x.activeWindow = opening.activeWindow then
      Tracking user opening (s.updateActivity x isConnected) ∧
        (s.updateActivity x isConnected).activities = s.activities
    else
      Tracking user x (s.updateActivity x isConnected) ∧
        (s.updateActivity x isConnected).activities = s.activities ++
          if isConnected = true ∧ opening.timestamp < x.timestamp then
            [Spell.payload (if user ≠ "" then user else x.username) ⟨opening, seen, x⟩]
          else [] := by
  have hstart : s.currentActivityStart ≠ .minValue := by
    rw [h.start]
    exact timeOf_ne_minValue hopening
  have hinit : s.startTracking x (timeOf x) = s := if_neg hstart
  unfold State.updateActivity
  rw [(time_tracked hx).1]
  simp only [hinit]
  unfold State.changeWindow
  rw [h.window]
  by_cases hwindow : x.activeWindow = opening.activeWindow
  · rw [if_pos hwindow, if_neg (not_not.mpr hwindow)]
    exact ⟨⟨h.window, h.process, h.start, h.user⟩, rfl⟩
  · rw [if_neg hwindow, if_pos hwindow]
    refine ⟨⟨rfl, rfl, rfl, h.user⟩, ?_⟩
    show s.activities ++ (if isConnected = true then (s.previousActivity x (timeOf x)).toList
      else []) = _
    rw [previousActivity_tracking h hopening hx seen]
    cases isConnected with
    | false => rfl
    | true =>
      by_cases hlt : opening.timestamp < x.timestamp
      · have hboth : true = true ∧ opening.timestamp < x.timestamp := ⟨rfl, hlt⟩
        rw [if_pos rfl, if_pos hlt, if_pos hboth]
        rfl
      · have hnot : ¬ (true = true ∧ opening.timestamp < x.timestamp) := fun hboth => hlt hboth.2
        rw [if_pos rfl, if_neg hlt, if_neg hnot]
        rfl

/-! ## Whole sequences -/

theorem tracked_cons_of_pos {rest : List ActivityData}
    (hx : -62135596800 < x.timestamp ∧ x.timestamp ≤ 253402300799) :
    tracked (x :: rest) = x :: tracked rest :=
  List.filter_cons_of_pos (by simpa using hx)

theorem tracked_cons_of_neg {rest : List ActivityData}
    (hx : ¬ (-62135596800 < x.timestamp ∧ x.timestamp ≤ 253402300799)) :
    tracked (x :: rest) = tracked rest :=
  List.filter_cons_of_neg (by simpa using hx)

/-- A sample outside the calendar changes nothing. -/
theorem updateActivity_none (hnone : DateTime.fromUnixTimeSeconds x.timestamp = none)
    (isConnected : Bool) : s.updateActivity x isConnected = s := by
  unfold State.updateActivity
  rw [hnone]

/-- Tracking begins, and the title is the one it has begun with. -/
theorem updateActivity_first (hstart : s.currentActivityStart = .minValue)
    (hx : -62135596800 < x.timestamp ∧ x.timestamp ≤ 253402300799) (isConnected : Bool) :
    Tracking x.username x (s.updateActivity x isConnected) ∧
      (s.updateActivity x isConnected).activities = s.activities := by
  unfold State.updateActivity
  rw [(time_tracked hx).1]
  simp only [State.startTracking, if_pos hstart, State.changeWindow, ne_eq, not_true_eq_false,
    if_false]
  exact ⟨⟨rfl, rfl, rfl, rfl⟩, trivial⟩

/-- A start at the beginning of the calendar is taken for no start. -/
theorem updateActivity_untracked (hstart : s.currentActivityStart = .minValue)
    (hx : ¬ (-62135596800 < x.timestamp ∧ x.timestamp ≤ 253402300799)) (isConnected : Bool) :
    (s.updateActivity x isConnected).currentActivityStart = .minValue ∧
      (s.updateActivity x isConnected).activities = s.activities := by
  rcases time_untracked hx with hnone | ⟨-, hmin⟩
  · rw [updateActivity_none hnone]
    exact ⟨hstart, rfl⟩
  · unfold State.updateActivity
    rw [hmin]
    simp only [State.startTracking, if_pos hstart, State.changeWindow, ne_eq, not_true_eq_false,
      if_false]
    exact ⟨trivial, trivial⟩

/-- From within a spell, each change of the title sends the payload of a spell. -/
theorem activities_foldl (huser : user ≠ "") :
    ∀ (rest : List ActivityData) (opening : ActivityData) (seen : List ActivityData) (s : State),
      Tracking user opening s →
      (-62135596800 < opening.timestamp ∧ opening.timestamp ≤ 253402300799) →
      (∀ x ∈ rest, opening.timestamp < x.timestamp) →
      rest.Pairwise (fun x y => x.timestamp < y.timestamp) →
      (rest.foldl (fun s x => s.updateActivity x true) s).activities =
        s.activities ++ (spellsFrom opening seen (tracked rest)).map (Spell.payload user) := by
  intro rest
  induction rest with
  | nil =>
    intro opening seen s _ _ _ _
    simp [tracked, spellsFrom]
  | cons x rest ih =>
    intro opening seen s htracking hopening hlt hincreasing
    obtain ⟨hbefore, hincreasing⟩ := List.pairwise_cons.mp hincreasing
    have hltx : opening.timestamp < x.timestamp := hlt x List.mem_cons_self
    have hltrest : ∀ y ∈ rest, opening.timestamp < y.timestamp :=
      fun y hy => hlt y (List.mem_cons_of_mem x hy)
    rw [List.foldl_cons]
    by_cases hx : -62135596800 < x.timestamp ∧ x.timestamp ≤ 253402300799
    · have hstep := updateActivity_tracking htracking hopening hx true seen
      have hsent : true = true ∧ opening.timestamp < x.timestamp := ⟨rfl, hltx⟩
      rw [if_pos hsent, if_pos huser] at hstep
      rw [tracked_cons_of_pos hx, spellsFrom]
      by_cases hwindow : x.activeWindow = opening.activeWindow
      · rw [if_pos hwindow] at hstep ⊢
        rw [ih opening (seen ++ [x]) _ hstep.1 hopening hltrest hincreasing, hstep.2]
      · rw [if_neg hwindow] at hstep ⊢
        rw [ih x [x] _ hstep.1 hx hbefore hincreasing, hstep.2, List.map_cons, List.append_assoc,
          List.singleton_append]
    · rcases time_untracked hx with hnone | ⟨hmin, -⟩
      · rw [updateActivity_none hnone true, tracked_cons_of_neg hx]
        exact ih opening seen s htracking hopening hltrest hincreasing
      · omega

/-- Before the first tracked sample, nothing is known. -/
theorem activities_foldl_start :
    ∀ (samples : List ActivityData) (s : State), s.currentActivityStart = .minValue →
      (∀ x ∈ samples, x.username ≠ "") →
      samples.Pairwise (fun x y => x.timestamp < y.timestamp) →
      (samples.foldl (fun s x => s.updateActivity x true) s).activities =
        s.activities ++ (spells samples).map (Spell.payload (firstUser samples)) := by
  intro samples
  induction samples with
  | nil =>
    intro s _ _ _
    simp [spells, tracked]
  | cons x samples ih =>
    intro s hstart husers hincreasing
    obtain ⟨hbefore, hincreasing⟩ := List.pairwise_cons.mp hincreasing
    have husers' : ∀ y ∈ samples, y.username ≠ "" :=
      fun y hy => husers y (List.mem_cons_of_mem x hy)
    rw [List.foldl_cons]
    by_cases hx : -62135596800 < x.timestamp ∧ x.timestamp ≤ 253402300799
    · have hspells : spells (x :: samples) = spellsFrom x [x] (tracked samples) := by
        unfold spells
        rw [tracked_cons_of_pos hx]
      have hfirst : firstUser (x :: samples) = x.username := by
        unfold firstUser
        rw [tracked_cons_of_pos hx]
        rfl
      obtain ⟨htracking, hactivities⟩ := updateActivity_first hstart hx true
      rw [hspells, hfirst, activities_foldl (husers x List.mem_cons_self) samples x [x] _ htracking
        hx hbefore hincreasing, hactivities]
    · have hspells : spells (x :: samples) = spells samples := by
        unfold spells
        rw [tracked_cons_of_neg hx]
      have hfirst : firstUser (x :: samples) = firstUser samples := by
        unfold firstUser
        rw [tracked_cons_of_neg hx]
      obtain ⟨hstart', hactivities⟩ := updateActivity_untracked hstart hx true
      rw [hspells, hfirst, ih _ hstart' husers' hincreasing, hactivities]

/-- **What is sent**, of samples in the order of their times: one payload for each spell that has
    ended. -/
theorem sent_eq {samples : List ActivityData} (husers : ∀ x ∈ samples, x.username ≠ "")
    (hincreasing : samples.Pairwise fun x y => x.timestamp < y.timestamp) :
    sent samples = (spells samples).map (Spell.payload (firstUser samples)) :=
  activities_foldl_start samples {} rfl husers hincreasing

/-! ## The samples of a spell -/

/-- A spell begins with one of the samples. -/
theorem opening_mem :
    ∀ (rest : List ActivityData) (opening : ActivityData) (seen : List ActivityData),
      ∀ p ∈ spellsFrom opening seen rest, p.opening ∈ opening :: rest := by
  intro rest
  induction rest with
  | nil =>
    intro opening seen p hp
    cases hp
  | cons x rest ih =>
    intro opening seen p hp
    rw [spellsFrom] at hp
    split at hp
    · rcases List.mem_cons.mp (ih opening (seen ++ [x]) p hp) with h | h
      · exact List.mem_cons.mpr (Or.inl h)
      · exact List.mem_cons_of_mem _ (List.mem_cons_of_mem _ h)
    · rcases List.mem_cons.mp hp with rfl | hp
      · exact List.mem_cons_self
      · exact List.mem_cons_of_mem _ (ih x [x] p hp)

theorem closing_mem :
    ∀ (rest : List ActivityData) (opening : ActivityData) (seen : List ActivityData),
      ∀ p ∈ spellsFrom opening seen rest, p.closing ∈ rest := by
  intro rest
  induction rest with
  | nil =>
    intro opening seen p hp
    cases hp
  | cons x rest ih =>
    intro opening seen p hp
    rw [spellsFrom] at hp
    split at hp
    · exact List.mem_cons_of_mem _ (ih opening (seen ++ [x]) p hp)
    · rcases List.mem_cons.mp hp with rfl | hp
      · exact List.mem_cons_self
      · exact List.mem_cons_of_mem _ (ih x [x] p hp)

/-- What spells are, behind samples that are in order: each holds exactly the samples from its first
    to its end. -/
theorem spellsFrom_spec :
    ∀ (rest : List ActivityData) (opening : ActivityData) (seen : List ActivityData),
      (∀ y ∈ seen, opening.timestamp ≤ y.timestamp) →
      (∀ y ∈ seen, ∀ x ∈ rest, y.timestamp < x.timestamp) → opening ∈ seen →
      rest.Pairwise (fun x y => x.timestamp < y.timestamp) →
      ∀ p ∈ spellsFrom opening seen rest, p.opening.timestamp < p.closing.timestamp ∧
        ∀ y, y ∈ p.samples ↔ y ∈ seen ++ rest ∧ p.opening.timestamp ≤ y.timestamp ∧
          y.timestamp < p.closing.timestamp := by
  intro rest
  induction rest with
  | nil =>
    intro opening seen _ _ _ _ p hp
    cases hp
  | cons x rest ih =>
    intro opening seen hseen hlt hmem hincreasing p hp
    obtain ⟨hbefore, hincreasing⟩ := List.pairwise_cons.mp hincreasing
    have hltx : ∀ y ∈ seen, y.timestamp < x.timestamp := fun y hy => hlt y hy x List.mem_cons_self
    rw [spellsFrom] at hp
    split at hp
    · -- the spell goes on
      have hspec := ih opening (seen ++ [x]) ?_ ?_ (List.mem_append_left _ hmem) hincreasing p hp
      · rw [List.append_assoc, List.singleton_append] at hspec
        exact hspec
      · intro y hy
        rcases List.mem_append.mp hy with hy | hy
        · exact hseen y hy
        · rw [List.mem_singleton.mp hy]
          exact le_of_lt (hltx opening hmem)
      · intro y hy z hz
        rcases List.mem_append.mp hy with hy | hy
        · exact hlt y hy z (List.mem_cons_of_mem x hz)
        · rw [List.mem_singleton.mp hy]
          exact hbefore z hz
    · rcases List.mem_cons.mp hp with rfl | hp
      · -- the spell that `x` ends
        refine ⟨hltx opening hmem, fun y => ?_⟩
        constructor
        · intro hy
          exact ⟨List.mem_append_left _ hy, hseen y hy, hltx y hy⟩
        · rintro ⟨hy, -, hend⟩
          rcases List.mem_append.mp hy with hy | hy
          · exact hy
          · rcases List.mem_cons.mp hy with rfl | hy
            · exact absurd hend (lt_irrefl _)
            · exact absurd (lt_trans hend (hbefore y hy)) (lt_irrefl _)
      · -- a later one: nothing that has been seen is in it
        have hlate : x.timestamp ≤ p.opening.timestamp := by
          rcases List.mem_cons.mp (opening_mem rest x [x] p hp) with heq | hrest
          · rw [heq]
          · exact le_of_lt (hbefore _ hrest)
        obtain ⟨horder, hspec⟩ := ih x [x] (by simp) (by simpa using hbefore) (by simp)
          hincreasing p hp
        refine ⟨horder, fun y => (hspec y).trans ?_⟩
        constructor
        · rintro ⟨hy, hstart, hend⟩
          exact ⟨List.mem_append_right _ hy, hstart, hend⟩
        · rintro ⟨hy, hstart, hend⟩
          rcases List.mem_append.mp hy with hy | hy
          · have hearly := hltx y hy
            omega
          · exact ⟨hy, hstart, hend⟩

/-- The spells of samples in order. -/
theorem spells_spec {samples : List ActivityData}
    (hincreasing : samples.Pairwise fun x y => x.timestamp < y.timestamp) {p : Spell}
    (hp : p ∈ spells samples) :
    p.opening ∈ tracked samples ∧ p.closing ∈ tracked samples ∧
      p.opening.timestamp < p.closing.timestamp ∧
      ∀ y, y ∈ p.samples ↔ y ∈ tracked samples ∧ p.opening.timestamp ≤ y.timestamp ∧
        y.timestamp < p.closing.timestamp := by
  have hsorted : (tracked samples).Pairwise fun x y => x.timestamp < y.timestamp :=
    hincreasing.sublist List.filter_sublist
  unfold spells at hp
  cases htracked : tracked samples with
  | nil =>
    rw [htracked] at hp
    cases hp
  | cons x rest =>
    rw [htracked] at hp hsorted
    obtain ⟨hbefore, hrest⟩ := List.pairwise_cons.mp hsorted
    obtain ⟨horder, hsamples⟩ := spellsFrom_spec rest x [x] (by simp) (by simpa using hbefore)
      (by simp) hrest p hp
    exact ⟨opening_mem rest x [x] p hp, List.mem_cons_of_mem x (closing_mem rest x [x] p hp),
      horder, hsamples⟩

end Service.ActivityCoordinator
