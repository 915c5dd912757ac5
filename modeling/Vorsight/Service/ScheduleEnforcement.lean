/-
  SCHEDULE ENFORCEMENT (Scheduling/ScheduleManager.cs): which loops of `EnforceSchedulesAsync` are
  active while calls of the manager overlap.

  A call is known by the `await` it stands at, and each step of the system runs one call from there
  to its next `await`.  What a read of the settings returns is chosen by the step.

  1. **The manager** — `startEnforcement`, `stopEnforcement` and the check of the two updates; a
     loop and its token source are known by the number of the start that has created them.

  2. **The link** (`Linked`): the loop whose token is not cancelled is the one of `_enforcementCts`
     while `_isEnforcementRunning` is set, and there is none otherwise.

  3. `enforced_run`: in every state of every run there is at most one such loop, there is one
     exactly when the flag is set, and when no call is in progress an enabled schedule has it.
-/
import Vorsight.Library.Run
import Vorsight.Service.ScheduleManager

namespace Service.ScheduleEnforcement

open Vorsight

/-! ## The manager -/

/-- A run of `EnforceSchedulesAsync`: its token, and its task. -/
structure Loop where
  isCancellationRequested : Bool := false
  isCompleted : Bool := false
deriving DecidableEq, Repr

/-- Where a call stands. -/
inductive Call
  /-- `InitializeAsync`, at its `GetSettingsAsync` -/
  | initializing
  /-- `UpdateScheduleAsync`, at its `GetSettingsAsync` -/
  | reading (settings : AccessControlSettings)
  /-- `UpdateScheduleAsync`, at its `UpdateSettingsAsync` -/
  | writing (settings : AccessControlSettings)
  /-- `StopEnforcementAsync`, at `await _enforcementTask` -/
  | stopping (enforcementTask : Nat)
  | returned
deriving DecidableEq, Repr

/-- The fields of the manager, the loops that it has started, and the calls of it. -/
structure State extends ScheduleManager.State where
  enforcementCts : Option Nat := none
  enforcementTask : Option Nat := none
  loops : List Loop := []
  calls : List Call := []
deriving DecidableEq, Repr

def startEnforcement (s : State) : State :=
  if s.isEnforcementRunning then s
  else
    { s with
      enforcementCts := some s.loops.length
      isEnforcementRunning := true
      enforcementTask := some s.loops.length
      loops := s.loops ++ [{}] }

/-- `_enforcementCts?.Cancel()`. -/
def cancel (enforcementCts : Option Nat) (loops : List Loop) : List Loop :=
  match enforcementCts with
  | none => loops
  | some n => loops.modify n fun loop => { loop with isCancellationRequested := true }

/-- `StopEnforcementAsync`, and where it stands then. -/
def stopEnforcement (s : State) : State × Call :=
  if ¬ s.isEnforcementRunning then (s, .returned)
  else
    ({ s with loops := cancel s.enforcementCts s.loops, isEnforcementRunning := false },
      match s.enforcementTask with
      | none => .returned
      | some enforcementTask => .stopping enforcementTask)

/-- Ensure enforcement; where no schedule has been set, this throws. -/
def ensureEnforcement (s : State) : State × Call :=
  match s.currentSchedule with
  | none => (s, .returned)
  | some schedule =>
    if schedule.enabled && !s.isEnforcementRunning then (startEnforcement s, .returned)
    else if !schedule.enabled && s.isEnforcementRunning then stopEnforcement s
    else (s, .returned)

/-- `InitializeAsync`, from `settings?.AccessControl` on. -/
def loaded (s : State) : Option AccessControlSettings → State
  | none => s
  | some accessControl =>
    if accessControl.enabled && !s.isEnforcementRunning then
      startEnforcement { s with currentSchedule := some accessControl }
    else { s with currentSchedule := some accessControl }

def updateScheduleFromSettings (s : State) : Option AccessControlSettings → State × Call
  | none => (s, .returned)
  | some settings => ensureEnforcement { s with currentSchedule := some settings }

/-- The end of a loop's `Task.Delay`: it leaves the loop when the token is cancelled, else checks
    the schedule and waits again. -/
def Loop.delayEnds (loop : Loop) : Loop :=
  if loop.isCancellationRequested then { loop with isCompleted := true } else loop

/-! ## The system -/

inductive Label
  | initializeAsync
  | updateSchedule (settings : Option AccessControlSettings)
  | updateScheduleFromSettings (settings : Option AccessControlSettings)
  | startEnforcement
  /-- `GetSettingsAsync` returns to call `i` -/
  | settingsRead (i : Nat) (accessControl : Option AccessControlSettings)
  /-- `UpdateSettingsAsync` returns to call `i` -/
  | settingsUpdated (i : Nat)
  /-- the task that call `i` waits for has completed -/
  | enforcementStopped (i : Nat)
  | delayEnds (n : Nat)

/-- A call that is made stands at its first `await`. -/
def State.call (s : State) (c : Call) : State := { s with calls := s.calls ++ [c] }

def State.resume (s : State) (i : Nat) (c : Call) : State := { s with calls := s.calls.set i c }

def step (s : State) : Label → Option State
  | .initializeAsync => some (s.call .initializing)
  | .updateSchedule none => some (s.call .returned)
  | .updateSchedule (some settings) =>
    some ({ s with currentSchedule := some settings }.call (.reading settings))
  | .updateScheduleFromSettings settings =>
    some ((updateScheduleFromSettings s settings).1.call
      (updateScheduleFromSettings s settings).2)
  | .startEnforcement => some ((startEnforcement s).call .returned)
  | .settingsRead i accessControl => match s.calls[i]? with
    | some .initializing => some ((loaded s accessControl).resume i .returned)
    | some (.reading settings) => some (s.resume i (.writing settings))
    | _ => none
  | .settingsUpdated i => match s.calls[i]? with
    | some (.writing _) => some ((ensureEnforcement s).1.resume i (ensureEnforcement s).2)
    | _ => none
  | .enforcementStopped i => match s.calls[i]? with
    | some (.stopping n) =>
      if (s.loops[n]?.any Loop.isCompleted) = true then some (s.resume i .returned) else none
    | _ => none
  | .delayEnds n =>
    if (s.loops[n]?.any fun loop => !loop.isCompleted) = true then
      some { s with loops := s.loops.modify n Loop.delayEnds }
    else none

/-! ## Enforcement as it should be -/

/-- Loop `n` has a token that is not cancelled. -/
def Uncancelled (loops : List Loop) (n : Nat) : Prop :=
  ∃ loop, loops[n]? = some loop ∧ loop.isCancellationRequested = false

/-- `_currentSchedule` is enabled. -/
def Enabled (s : State) : Prop := ∃ schedule ∈ s.currentSchedule, schedule.enabled = true

/-- Enforcement runs exactly when it should. -/
structure Enforced (s : State) : Prop where
  unique : ∀ m n, Uncancelled s.loops m → Uncancelled s.loops n → m = n
  exists_iff : (∃ n, Uncancelled s.loops n) ↔ s.isEnforcementRunning = true
  /-- such a loop has not been left -/
  active : ∀ loop ∈ s.loops, loop.isCancellationRequested = false → loop.isCompleted = false
  enabled : (∀ c ∈ s.calls, c = .returned) → Enabled s → ∃ n, Uncancelled s.loops n

/-! ## Tokens -/

theorem uncancelled_append (loops : List Loop) (n : Nat) :
    Uncancelled (loops ++ [({} : Loop)]) n ↔ Uncancelled loops n ∨ n = loops.length := by
  unfold Uncancelled
  rcases Nat.lt_trichotomy n loops.length with hlt | rfl | hgt
  · rw [List.getElem?_append_left hlt]
    exact ⟨Or.inl, fun h => h.resolve_right (Nat.ne_of_lt hlt)⟩
  · rw [List.getElem?_concat_length]
    exact iff_of_true ⟨_, rfl, rfl⟩ (Or.inr rfl)
  · have hnone : (loops ++ [({} : Loop)])[n]? = none := by
      rw [List.getElem?_eq_none_iff, List.length_append]
      exact hgt
    rw [hnone, List.getElem?_eq_none_iff.mpr (Nat.le_of_lt hgt)]
    constructor
    · rintro ⟨_, h, -⟩
      cases h
    · rintro (⟨_, h, -⟩ | rfl)
      · cases h
      · exact absurd hgt (Nat.lt_irrefl _)

theorem uncancelled_modify {f : Loop → Loop} {n : Nat} (loops : List Loop) (m : Nat) :
    Uncancelled (loops.modify n f) m ↔
      ∃ loop, loops[m]? = some loop ∧
        (if n = m then f loop else loop).isCancellationRequested = false := by
  unfold Uncancelled
  rw [List.getElem?_modify]
  cases loops[m]? with
  | none => simp
  | some loop => by_cases h : n = m <;> simp [h]

theorem uncancelled_cancel (enforcementCts : Option Nat) (loops : List Loop) (m : Nat) :
    Uncancelled (cancel enforcementCts loops) m ↔
      Uncancelled loops m ∧ enforcementCts ≠ some m := by
  cases enforcementCts with
  | none => exact ⟨fun h => ⟨h, by simp⟩, And.left⟩
  | some n =>
    unfold cancel
    rw [uncancelled_modify]
    unfold Uncancelled
    by_cases h : n = m <;> simp [h]

theorem uncancelled_delayEnds (loops : List Loop) (n m : Nat) :
    Uncancelled (loops.modify n Loop.delayEnds) m ↔ Uncancelled loops m := by
  rw [uncancelled_modify]
  have hsame : ∀ loop : Loop, (if n = m then loop.delayEnds else loop).isCancellationRequested =
      loop.isCancellationRequested := by
    intro loop
    unfold Loop.delayEnds
    split
    · split <;> rfl
    · rfl
  simp only [hsame]
  rfl

/-! ## The link between the flag, the token source and the loops -/

structure Linked (s : State) : Prop where
  uncancelled_iff : ∀ n, Uncancelled s.loops n ↔
    s.isEnforcementRunning = true ∧ s.enforcementCts = some n
  held : s.isEnforcementRunning = true → s.enforcementCts ≠ none
  completed : ∀ loop ∈ s.loops, loop.isCompleted = true → loop.isCancellationRequested = true

variable {s s' : State}

theorem Linked.unique (h : Linked s) {m n : Nat} (hm : Uncancelled s.loops m)
    (hn : Uncancelled s.loops n) : m = n := by
  have hm := ((h.uncancelled_iff m).mp hm).2
  have hn := ((h.uncancelled_iff n).mp hn).2
  exact Option.some.inj (hm.symm.trans hn)

theorem Linked.exists_iff (h : Linked s) :
    (∃ n, Uncancelled s.loops n) ↔ s.isEnforcementRunning = true := by
  constructor
  · rintro ⟨n, hn⟩
    exact ((h.uncancelled_iff n).mp hn).1
  · intro hrunning
    obtain ⟨n, hn⟩ := Option.ne_none_iff_exists'.mp (h.held hrunning)
    exact ⟨n, (h.uncancelled_iff n).mpr ⟨hrunning, hn⟩⟩

/-- The link says nothing of the schedule, nor of where calls stand. -/
theorem Linked.schedule (h : Linked s) (currentSchedule : Option AccessControlSettings) :
    Linked { s with currentSchedule } :=
  ⟨h.uncancelled_iff, h.held, h.completed⟩

theorem Linked.calls (h : Linked s) (calls : List Call) : Linked { s with calls } :=
  ⟨h.uncancelled_iff, h.held, h.completed⟩

theorem Linked.startEnforcement (h : Linked s) : Linked (startEnforcement s) := by
  unfold ScheduleEnforcement.startEnforcement
  split
  · exact h
  · rename_i hrunning
    refine ⟨fun n => ?_, fun _ => by simp, ?_⟩
    · have hnone : ¬ Uncancelled s.loops n := fun hn =>
        hrunning ((h.uncancelled_iff n).mp hn).1
      show Uncancelled (s.loops ++ [({} : Loop)]) n ↔ true = true ∧ some s.loops.length = some n
      rw [uncancelled_append, Option.some_inj]
      constructor
      · exact fun hn => ⟨rfl, (hn.resolve_left hnone).symm⟩
      · exact fun hn => Or.inr hn.2.symm
    · intro loop hmem
      rcases List.mem_append.mp hmem with hmem | hmem
      · exact h.completed loop hmem
      · rw [List.mem_singleton.mp hmem]
        exact fun hcompleted => Bool.noConfusion hcompleted

/-- A loop that is cancelled, or whose delay ends, is completed only when it is cancelled. -/
theorem completed_modify {f : Loop → Loop} {n : Nat} {loops : List Loop}
    (h : ∀ loop ∈ loops, loop.isCompleted = true → loop.isCancellationRequested = true)
    (hf : ∀ loop ∈ loops, (f loop).isCompleted = true → (f loop).isCancellationRequested = true) :
    ∀ loop ∈ loops.modify n f, loop.isCompleted = true → loop.isCancellationRequested = true := by
  intro loop hmem
  obtain ⟨m, hm⟩ := List.getElem?_of_mem hmem
  rw [List.getElem?_modify] at hm
  obtain ⟨loop', hget, rfl⟩ := Option.map_eq_some_iff.mp hm
  split
  · exact hf loop' (List.mem_of_getElem? hget)
  · exact h loop' (List.mem_of_getElem? hget)

theorem Linked.stopEnforcement (h : Linked s) : Linked (stopEnforcement s).1 := by
  unfold ScheduleEnforcement.stopEnforcement
  split
  · exact h
  · refine ⟨fun n => ?_, fun hrunning => Bool.noConfusion hrunning, ?_⟩
    · show Uncancelled (cancel s.enforcementCts s.loops) n ↔ false = true ∧ _
      rw [uncancelled_cancel]
      constructor
      · rintro ⟨hn, hother⟩
        exact absurd ((h.uncancelled_iff n).mp hn).2 hother
      · rintro ⟨hrunning, -⟩
        cases hrunning
    · show ∀ loop ∈ cancel s.enforcementCts s.loops, _
      unfold cancel
      split
      · exact h.completed
      · exact completed_modify h.completed fun _ _ _ => rfl

theorem Linked.delayEnds (h : Linked s) (n : Nat) :
    Linked { s with loops := s.loops.modify n Loop.delayEnds } := by
  refine ⟨fun m => ?_, h.held, ?_⟩
  · exact (uncancelled_delayEnds s.loops n m).trans (h.uncancelled_iff m)
  · refine completed_modify h.completed fun loop hmem hcompleted => ?_
    unfold Loop.delayEnds at hcompleted ⊢
    split
    · assumption
    · rename_i huncancelled
      rw [if_neg huncancelled] at hcompleted
      exact h.completed loop hmem hcompleted

/-! ## The check of the updates -/

theorem startEnforcement_calls (s : State) : (startEnforcement s).calls = s.calls := by
  unfold startEnforcement
  split <;> rfl

theorem startEnforcement_isEnforcementRunning (s : State) :
    (startEnforcement s).isEnforcementRunning = true := by
  unfold startEnforcement
  split
  · assumption
  · rfl

theorem startEnforcement_toState (s : State) :
    (startEnforcement s).toState = ScheduleManager.startEnforcement s.toState := by
  unfold startEnforcement ScheduleManager.startEnforcement
  split <;> rfl

theorem stopEnforcement_toState (s : State) :
    (stopEnforcement s).1.toState = ScheduleManager.stopEnforcement s.toState := by
  unfold stopEnforcement ScheduleManager.stopEnforcement
  split <;> rfl

/-- Run from a state where no other call interferes, the settings' update is the one of the
    settings' run. -/
theorem updateScheduleFromSettings_toState (s : State) (settings : Option AccessControlSettings) :
    (updateScheduleFromSettings s settings).1.toState =
      ScheduleManager.updateScheduleFromSettings s.toState settings := by
  cases settings with
  | none => rfl
  | some settings =>
    simp only [updateScheduleFromSettings, ensureEnforcement,
      ScheduleManager.updateScheduleFromSettings]
    split
    · exact startEnforcement_toState _
    · split
      · exact stopEnforcement_toState _
      · rfl

theorem enabled_iff {schedule : AccessControlSettings} (h : s.currentSchedule = some schedule) :
    Enabled s ↔ schedule.enabled = true := by
  unfold Enabled
  rw [h]
  constructor
  · rintro ⟨_, ⟨⟩, henabled⟩
    exact henabled
  · exact fun henabled => ⟨schedule, rfl, henabled⟩

theorem stopEnforcement_currentSchedule (s : State) :
    (stopEnforcement s).1.currentSchedule = s.currentSchedule := by
  unfold stopEnforcement
  split <;> rfl

theorem stopEnforcement_calls (s : State) : (stopEnforcement s).1.calls = s.calls := by
  unfold stopEnforcement
  split <;> rfl

/-- What the check does: the link and the other calls are as before, and an enabled schedule is
    enforced. -/
theorem ensureEnforcement_spec (h : Linked s) : Linked (ensureEnforcement s).1 ∧
    (ensureEnforcement s).1.calls = s.calls ∧
    (Enabled (ensureEnforcement s).1 → (ensureEnforcement s).1.isEnforcementRunning = true) := by
  unfold ensureEnforcement
  split
  · rename_i hnone
    refine ⟨h, rfl, ?_⟩
    rintro ⟨schedule, hschedule, -⟩
    rw [hnone] at hschedule
    cases hschedule
  · rename_i schedule hschedule
    split
    · exact ⟨h.startEnforcement, startEnforcement_calls s,
        fun _ => startEnforcement_isEnforcementRunning s⟩
    · rename_i hstart
      split
      · rename_i hstop
        refine ⟨h.stopEnforcement, stopEnforcement_calls s, fun henabled => ?_⟩
        rw [enabled_iff ((stopEnforcement_currentSchedule s).trans hschedule)] at henabled
        simp [henabled] at hstop
      · refine ⟨h, rfl, fun henabled => ?_⟩
        rw [enabled_iff hschedule] at henabled
        simpa [henabled] using hstart

theorem loaded_spec (h : Linked s) (accessControl : Option AccessControlSettings) :
    Linked (loaded s accessControl) ∧ (loaded s accessControl).calls = s.calls ∧
      (Enabled (loaded s accessControl) →
        Enabled s ∧ (loaded s accessControl).isEnforcementRunning = s.isEnforcementRunning ∨
          (loaded s accessControl).isEnforcementRunning = true) := by
  cases accessControl with
  | none => exact ⟨h, rfl, fun henabled => Or.inl ⟨henabled, rfl⟩⟩
  | some schedule =>
    have hset := h.schedule (some schedule)
    simp only [loaded]
    split
    · exact ⟨hset.startEnforcement, startEnforcement_calls _,
        fun _ => Or.inr (startEnforcement_isEnforcementRunning _)⟩
    · rename_i hstart
      refine ⟨hset, rfl, fun henabled => Or.inr ?_⟩
      rw [enabled_iff rfl] at henabled
      simpa [henabled] using hstart

/-! ## The invariant -/

/-- A call that has the check of the updates still before it. -/
def Call.Checks : Call → Prop
  | .reading _ | .writing _ => True
  | .initializing | .stopping _ | .returned => False

/-- An enabled schedule is enforced, or a call is on its way to start that. -/
structure Inv (s : State) : Prop where
  linked : Linked s
  enforced : Enabled s → s.isEnforcementRunning = true ∨ ∃ c ∈ s.calls, c.Checks

theorem Inv.enforcement (h : Inv s) : Enforced s where
  unique _ _ := h.linked.unique
  exists_iff := h.linked.exists_iff
  active loop hmem huncancelled := by
    cases hcompleted : loop.isCompleted with
    | false => rfl
    | true => exact absurd (h.linked.completed loop hmem hcompleted) (by simp [huncancelled])
  enabled hreturned henabled := by
    rcases h.enforced henabled with hrunning | ⟨c, hmem, hchecks⟩
    · exact h.linked.exists_iff.mpr hrunning
    · rw [hreturned c hmem] at hchecks
      exact hchecks.elim

/-- A new call does not hinder the others. -/
theorem Inv.call (h : Inv s) (c : Call) : Inv (s.call c) := by
  refine ⟨h.linked.calls _, fun henabled => (h.enforced henabled).imp_right ?_⟩
  rintro ⟨c', hmem, hchecks⟩
  exact ⟨c', List.mem_append_left _ hmem, hchecks⟩

/-- A call that goes on without a check before it was not the one on its way. -/
theorem checks_resume {c c' : Call} {i : Nat} (hget : s.calls[i]? = some c) (hc : ¬ c.Checks)
    (h : ∃ c ∈ s.calls, c.Checks) : ∃ c ∈ (s.resume i c').calls, c.Checks := by
  obtain ⟨d, hmem, hchecks⟩ := h
  obtain ⟨j, hj⟩ := List.getElem?_of_mem hmem
  refine ⟨d, List.mem_of_getElem? (i := j) ?_, hchecks⟩
  show (s.calls.set i c')[j]? = some d
  rw [List.getElem?_set_ne, hj]
  rintro rfl
  cases hget.symm.trans hj
  exact hc hchecks

/-- The read of `InitializeAsync` comes back. -/
theorem Inv.loaded (h : Inv s) (accessControl : Option AccessControlSettings) {i : Nat}
    (hget : s.calls[i]? = some .initializing) :
    Inv ((loaded s accessControl).resume i .returned) := by
  obtain ⟨hlinked, hcalls, henforced⟩ := loaded_spec h.linked accessControl
  refine ⟨hlinked.calls _, fun henabled => ?_⟩
  rcases henforced henabled with ⟨hbefore, hrunning⟩ | hrunning
  · refine (h.enforced hbefore).imp (fun hset => hrunning.trans hset) fun hchecks => ?_
    rw [← hcalls] at hget hchecks
    exact checks_resume hget not_false hchecks
  · exact Or.inl hrunning

/-- After the check, whatever becomes of the call. -/
theorem Inv.ensured (h : Linked s) (calls : List Call) :
    Inv { (ensureEnforcement s).1 with calls } := by
  obtain ⟨hlinked, -, henforced⟩ := ensureEnforcement_spec h
  exact ⟨hlinked.calls _, fun henabled => Or.inl (henforced henabled)⟩

theorem inv_step {l : Label} (h : Inv s) (hs : step s l = some s') : Inv s' := by
  cases l with
  | initializeAsync =>
    cases hs
    exact h.call _
  | updateSchedule settings =>
    cases settings with
    | none =>
      cases hs
      exact h.call _
    | some settings =>
      cases hs
      refine ⟨(h.linked.schedule _).calls _, fun _ => Or.inr ⟨.reading settings, ?_, trivial⟩⟩
      exact List.mem_append_right _ List.mem_cons_self
  | updateScheduleFromSettings settings =>
    cases hs
    cases settings with
    | none => exact h.call _
    | some settings => exact .ensured (h.linked.schedule (some settings)) _
  | startEnforcement =>
    cases hs
    exact ⟨h.linked.startEnforcement.calls _,
      fun _ => Or.inl (startEnforcement_isEnforcementRunning s)⟩
  | settingsRead i accessControl =>
    simp only [step] at hs
    split at hs
    · rename_i hget
      cases hs
      exact h.loaded accessControl hget
    · rename_i settings hget
      cases hs
      refine ⟨h.linked.calls _, fun _ => Or.inr ⟨.writing settings, ?_, trivial⟩⟩
      obtain ⟨hi, -⟩ := List.getElem?_eq_some_iff.mp hget
      exact List.mem_set hi _
    · cases hs
  | settingsUpdated i =>
    simp only [step] at hs
    split at hs
    · cases hs
      exact .ensured h.linked _
    · cases hs
  | enforcementStopped i =>
    simp only [step] at hs
    split at hs
    · rename_i n hget
      split at hs
      · cases hs
        refine ⟨h.linked.calls _, fun henabled => ?_⟩
        exact (h.enforced henabled).imp_right (checks_resume hget not_false)
      · cases hs
    · cases hs
  | delayEnds n =>
    simp only [step] at hs
    split at hs
    · cases hs
      exact ⟨h.linked.delayEnds n, h.enforced⟩
    · cases hs

theorem inv_initial : Inv {} where
  linked :=
    { uncancelled_iff := fun n => by simp [Uncancelled]
      held := fun h => Bool.noConfusion h
      completed := fun loop hmem => absurd hmem List.not_mem_nil }
  enforced := by
    rintro ⟨schedule, hschedule, -⟩
    cases hschedule

/-- **Enforcement runs exactly when it should**, in every state of every run: one loop at most has
    a token that is not cancelled, one exactly when the flag is set, and one when no call is in
    progress and the schedule is enabled. -/
theorem enforced_run (labels : List Label) : Runs.EachState step Enforced {} labels := by
  have hkeep : ∀ (s : State) (l : Label) (s' : State), Inv s → step s l = some s' → Inv s' :=
    fun _ _ _ h hs => inv_step h hs
  refine ⟨inv_initial.enforcement, ?_⟩
  exact Runs.eachStep_of_inv hkeep (fun s l s' h hs => (inv_step h hs).enforcement) inv_initial

end Service.ScheduleEnforcement
