/-
  ONE UPLOAD AT A TIME (Vorsight.Service/Storage/GoogleDriveService.cs).

  Any number of `UploadFileAsync` calls run at once.  A semaphore with one permit lets one of them
  into `InternalUploadFileAsync`; a call can be cancelled while it waits for it.  Every call that
  has begun to wait passes the same `finally` block, which releases the semaphore when its count is
  zero, whoever has the permit.

  1. **The claim of the design** (`Exclusive`): at most one call is in `InternalUploadFileAsync`,
     and the count is one when no call is in progress.

  2. **Where it fails.**  A call that has been cancelled while it waited finds the count at zero,
     since another call is uploading, and releases a permit it never had.

  3. **The condition** (`Harmless`): no call without the permit releases it while the count is zero.
     The permit is then conserved (`exclusive_of_harmless`), and a step that breaks the condition
     while another call uploads lets a third one in beside it (`canReach_of_harm`).
-/
import Mathlib.Tactic.ByContra
import Vorsight.Library.Permits
import Vorsight.Library.Run

namespace Service.GoogleDriveService

open Runs Permits

/-! ## The state -/

/-- How a call of `UploadFileAsync` ends. -/
inductive Outcome
  | returned (driveFileId : String)
  | threw
deriving DecidableEq

/-- Where a call of `UploadFileAsync` is. -/
inductive Phase
  /-- before the first look at `_isShuttingDown` -/
  | entered
  /-- before `uploadCts` is created -/
  | checked
  /-- in the `try`, with `uploadCts` linked to the caller's token or not -/
  | created (linked : Bool)
  /-- in `WaitAsync`, for two seconds at most if `briefly` -/
  | waiting (linked briefly : Bool)
  /-- in `InternalUploadFileAsync` -/
  | uploading
  /-- in the `finally`, before the look at `CurrentCount`; `acquired`: it has got the permit -/
  | settling (acquired : Bool) (outcome : Outcome)
  /-- before `Release` -/
  | releasing (acquired : Bool) (outcome : Outcome)
  | done (outcome : Outcome)
deriving DecidableEq

structure Call where
  phase : Phase := .entered
  /-- the caller's token is cancelled -/
  cancelled : Bool := false
deriving DecidableEq

structure State where
  /-- `_uploadSemaphore.CurrentCount` -/
  currentCount : Nat := 1
  isShuttingDown : Bool := false
  calls : List Call := []
deriving DecidableEq

inductive Step
  /-- `UploadFileAsync` is called -/
  | call
  /-- the token of call `i` is cancelled -/
  | cancel (i : Nat)
  | beginShutdown
  /-- call `i` goes on to its next wait, or through its `finally` -/
  | next (i : Nat)
  /-- `WaitAsync` takes the permit, and `InternalUploadFileAsync` begins -/
  | acquire (i : Nat)
  /-- `WaitAsync` throws, because the token is cancelled -/
  | cancelWait (i : Nat)
  /-- the two seconds are over -/
  | timeout (i : Nat)
  /-- `InternalUploadFileAsync` returns an id, or throws -/
  | uploadEnd (i : Nat) (result : Option String)
deriving DecidableEq

/-! ## The steps -/

namespace State

/-- Call `i`, which was at `c`, is now at `phase`. -/
def move (s : State) (i : Nat) (c : Call) (phase : Phase) : State :=
  { s with calls := s.calls.set i { c with phase } }

/-- Both `catch` blocks: the exception is swallowed during the shutdown. -/
def caught (s : State) : Outcome := if s.isShuttingDown then .returned "" else .threw

/-- What call `i` does next without waiting. -/
def next (s : State) (i : Nat) (c : Call) : Option State :=
  match c.phase with
  | .entered =>
      if s.isShuttingDown then some (s.move i c (.done (.returned "")))
      else some (s.move i c .checked)
  | .checked => some (s.move i c (.created (!s.isShuttingDown)))
  | .created linked =>
      -- `WaitAsync` throws at once when its token is cancelled
      if linked && c.cancelled then some (s.move i c (.settling false s.caught))
      else some (s.move i c (.waiting linked s.isShuttingDown))
  | .settling acquired outcome =>
      if s.currentCount = 0 then some (s.move i c (.releasing acquired outcome))
      else some (s.move i c (.done outcome))
  | .releasing _ outcome =>
      -- `Release` throws when the semaphore is full
      if s.currentCount < 1 then
        some { s.move i c (.done outcome) with currentCount := s.currentCount + 1 }
      else some (s.move i c (.done .threw))
  | _ => none

def acquire (s : State) (i : Nat) (c : Call) : Option State :=
  match c.phase with
  | .waiting _ _ => if 0 < s.currentCount then
      some { s.move i c .uploading with currentCount := s.currentCount - 1 }
    else none
  | _ => none

def cancelWait (s : State) (i : Nat) (c : Call) : Option State :=
  match c.phase with
  | .waiting linked _ =>
      if linked && c.cancelled then some (s.move i c (.settling false s.caught)) else none
  | _ => none

/-- `if (!await _uploadSemaphore.WaitAsync(…)) return string.Empty`. -/
def timeout (s : State) (i : Nat) (c : Call) : Option State :=
  match c.phase with
  | .waiting _ briefly =>
      if briefly then some (s.move i c (.settling false (.returned ""))) else none
  | _ => none

def uploadEnd (s : State) (i : Nat) (c : Call) (result : Option String) : Option State :=
  match c.phase, result with
  | .uploading, some driveFileId => some (s.move i c (.settling true (.returned driveFileId)))
  | .uploading, none => some (s.move i c (.settling true s.caught))
  | _, _ => none

end State

def step (s : State) : Step → Option State
  | .call => some { s with calls := s.calls ++ [{}] }
  | .cancel i => (s.calls[i]?).map fun c =>
      { s with calls := s.calls.set i { c with cancelled := true } }
  | .beginShutdown => some { s with isShuttingDown := true }
  | .next i => (s.calls[i]?).bind (s.next i)
  | .acquire i => (s.calls[i]?).bind (s.acquire i)
  | .cancelWait i => (s.calls[i]?).bind (s.cancelWait i)
  | .timeout i => (s.calls[i]?).bind (s.timeout i)
  | .uploadEnd i result => (s.calls[i]?).bind fun c => s.uploadEnd i c result

/-! ## The design's claim, and the condition -/

/-- In `InternalUploadFileAsync`. -/
def Call.uploading (c : Call) : Bool := c.phase = .uploading

/-- It has got the permit, and has not been through its `finally`. -/
def Call.holds (c : Call) : Bool :=
  match c.phase with
  | .uploading => true
  | .settling acquired _ => acquired
  | .releasing acquired _ => acquired
  | _ => false

def Call.finished (c : Call) : Prop := ∃ outcome, c.phase = .done outcome

structure Exclusive (s : State) : Prop where
  one : s.calls.countP Call.uploading ≤ 1
  idle : (∀ c ∈ s.calls, c.finished) → s.currentCount = 1

/-- Before `Release`, without having got the permit. -/
def Call.unpermitted (c : Call) : Bool :=
  match c.phase with
  | .releasing acquired _ => !acquired
  | _ => false

/-- No call that never got the permit releases it while the count is zero. -/
def Harmless (s : State) : Step → Prop
  | .next i => ∀ c ∈ s.calls[i]?, c.unpermitted = true → s.currentCount ≠ 0
  | _ => True

instance (s : State) : DecidablePred (Harmless s)
  | .next i => inferInstanceAs
      (Decidable (∀ c ∈ s.calls[i]?, c.unpermitted = true → s.currentCount ≠ 0))
  | .call | .cancel _ | .beginShutdown | .acquire _ | .cancelWait _ | .timeout _
  | .uploadEnd _ _ => .isTrue trivial

/-! ## What a step does to the permit -/

variable {s s' : State} {a : Step} {i : Nat} {c : Call}

inductive Effect (s : State) (a : Step) : State → Prop
  | joined : Effect s a { s with calls := s.calls ++ [{}] }
  /-- a call goes on with what it has -/
  | kept {s' : State} {i : Nat} {c c' : Call} (hi : s.calls[i]? = some c)
      (hholds : c'.holds = c.holds) (hcount : s'.currentCount = s.currentCount)
      (hcalls : s'.calls = s.calls.set i c') : Effect s a s'
  | shutdown : Effect s a { s with isShuttingDown := true }
  | acquired {i : Nat} {c : Call} (hi : s.calls[i]? = some c) (hholds : c.holds = false)
      (hfree : 0 < s.currentCount) :
      Effect s a { s.move i c .uploading with currentCount := s.currentCount - 1 }
  | released {i : Nat} {c : Call} {acquired : Bool} {outcome : Outcome} (ha : a = .next i)
      (hi : s.calls[i]? = some c) (hphase : c.phase = .releasing acquired outcome)
      (hzero : s.currentCount = 0) :
      Effect s a { s.move i c (.done outcome) with currentCount := s.currentCount + 1 }
  /-- the count is not zero, and the call is over -/
  | ended {i : Nat} {c : Call} {outcome : Outcome} (hi : s.calls[i]? = some c)
      (hfree : s.currentCount ≠ 0) : Effect s a (s.move i c (.done outcome))

theorem next_cases (hi : s.calls[i]? = some c) (hs : s.next i c = some s') :
    Effect s (.next i) s' := by
  have hkept : ∀ phase : Phase, Call.holds { c with phase } = c.holds →
      Effect s (.next i) (s.move i c phase) :=
    fun phase h => .kept hi h rfl rfl
  unfold State.next at hs
  split at hs
  · rename_i hphase
    split at hs
    · cases hs
      exact hkept _ (by simp [Call.holds, hphase])
    · cases hs
      exact hkept _ (by simp [Call.holds, hphase])
  · rename_i hphase
    cases hs
    exact hkept _ (by simp [Call.holds, hphase])
  · rename_i hphase
    split at hs
    · cases hs
      exact hkept _ (by simp [Call.holds, hphase])
    · cases hs
      exact hkept _ (by simp [Call.holds, hphase])
  · rename_i hphase
    split at hs
    · cases hs
      exact hkept _ (by simp [Call.holds, hphase])
    · rename_i hfree
      cases hs
      exact .ended hi hfree
  · rename_i hphase
    split at hs
    · rename_i hzero
      cases hs
      exact .released rfl hi hphase (by omega)
    · rename_i hfree
      cases hs
      exact .ended hi (by omega)
  · cases hs

/-- **What a step can do.** -/
theorem step_cases (hs : step s a = some s') : Effect s a s' := by
  cases a with
  | call =>
    cases hs
    exact .joined
  | cancel i =>
    obtain ⟨c, hi, rfl⟩ := Option.map_eq_some_iff.mp hs
    have hholds : Call.holds { c with cancelled := true } = c.holds := rfl
    exact .kept hi hholds rfl rfl
  | beginShutdown =>
    cases hs
    exact .shutdown
  | next i =>
    obtain ⟨c, hi, hs⟩ := Option.bind_eq_some_iff.mp hs
    exact next_cases hi hs
  | acquire i =>
    obtain ⟨c, hi, hs⟩ := Option.bind_eq_some_iff.mp hs
    unfold State.acquire at hs
    split at hs
    · rename_i hphase
      obtain ⟨hfree, hs⟩ := Option.ite_none_right_eq_some.mp hs
      cases hs
      exact .acquired hi (by simp [Call.holds, hphase]) hfree
    · cases hs
  | cancelWait i =>
    obtain ⟨c, hi, hs⟩ := Option.bind_eq_some_iff.mp hs
    unfold State.cancelWait at hs
    split at hs
    · rename_i hphase
      obtain ⟨-, hs⟩ := Option.ite_none_right_eq_some.mp hs
      cases hs
      exact .kept hi (by simp [Call.holds, hphase]) rfl rfl
    · cases hs
  | timeout i =>
    obtain ⟨c, hi, hs⟩ := Option.bind_eq_some_iff.mp hs
    unfold State.timeout at hs
    split at hs
    · rename_i hphase
      obtain ⟨-, hs⟩ := Option.ite_none_right_eq_some.mp hs
      cases hs
      exact .kept hi (by simp [Call.holds, hphase]) rfl rfl
    · cases hs
  | uploadEnd i result =>
    obtain ⟨c, hi, hs⟩ := Option.bind_eq_some_iff.mp hs
    unfold State.uploadEnd at hs
    split at hs
    · rename_i hphase _
      cases hs
      exact .kept hi (by simp [Call.holds, hphase]) rfl rfl
    · rename_i hphase _
      cases hs
      exact .kept hi (by simp [Call.holds, hphase]) rfl rfl
    · cases hs

/-! ## The permit is conserved -/

def Inv (s : State) : Prop := Conserved Call.holds 1 s.currentCount s.calls

theorem inv_init : Inv {} := rfl

/-- A call that has the permit finds the count at zero. -/
theorem Inv.zero_of_holds (h : Inv s) (hi : s.calls[i]? = some c) (hholds : c.holds = true) :
    s.currentCount = 0 := by
  have hlt : s.currentCount < 1 := Conserved.lt_of_holds h (List.mem_of_getElem? hi) hholds
  omega

/-- **A harmless step conserves the permit.** -/
theorem inv_step (h : Inv s) (hharm : Harmless s a) (hs : step s a = some s') : Inv s' := by
  cases step_cases hs with
  | joined => exact Conserved.join h rfl
  | kept hi hholds hcount hcalls =>
    have hkept := Conserved.keep h hi hholds
    rwa [Inv, hcount, hcalls]
  | shutdown => exact h
  | acquired hi hholds hfree => exact Conserved.take h hi hholds rfl hfree
  | @released i c acquired outcome ha hi hphase hzero =>
    subst ha
    have hholds : c.holds = true := by
      by_contra hnot
      have hunpermitted : c.unpermitted = true := by
        simpa [Call.holds, Call.unpermitted, hphase] using hnot
      exact hharm c hi hunpermitted hzero
    exact Conserved.give h hi hholds rfl
  | @ended i c outcome hi hfree =>
    have hholds : c.holds = false := by
      by_contra hnot
      exact hfree (h.zero_of_holds hi (by simpa using hnot))
    exact Conserved.keep h hi (by rw [hholds]; rfl)

/-- A conserved permit keeps the uploads apart. -/
theorem Inv.exclusive (h : Inv s) : Exclusive s where
  one := by
    refine Conserved.countP_le h fun c hc => ?_
    simp only [Call.uploading, decide_eq_true_eq] at hc
    simp [Call.holds, hc]
  idle hfinished := by
    refine Conserved.idle h fun c hc => ?_
    obtain ⟨outcome, hdone⟩ := hfinished c hc
    simp [Call.holds, hdone]

/-- **One upload at a time**, in every run whose steps are harmless. -/
theorem exclusive_of_harmless {steps : List Step}
    (hharm : EachStep step (fun s a _ => Harmless s a) {} steps) :
    EachState step Exclusive {} steps :=
  ⟨inv_init.exclusive, eachStep_of_guard (fun _ _ _ h hg hs => inv_step h hg hs)
    (fun _ _ _ h hg hs => (inv_step h hg hs).exclusive) inv_init hharm⟩

/-- The second call waits for the first, and is cancelled when that is over. -/
def inTurn : List Step :=
  [.call, .next 0, .next 0, .next 0, .acquire 0, .call, .next 1, .next 1, .next 1,
    .uploadEnd 0 (some "id"), .next 0, .next 0, .cancel 1, .cancelWait 1, .next 1]

theorem exclusive_inTurn : EachState step Exclusive {} inTurn :=
  exclusive_of_harmless (by decide)

/-! ## What a harmful step leads to -/

/-- Another call has come, and is at `phase`. -/
def State.join (s : State) (phase : Phase) : State := { s with calls := s.calls ++ [{ phase }] }

theorem join_getElem? (s : State) (phase : Phase) :
    (s.join phase).calls[s.calls.length]? = some { phase } := by
  simp [State.join]

theorem move_join (s : State) (phase phase' : Phase) :
    (s.join phase).move s.calls.length { phase } phase' = s.join phase' := by
  simp [State.join, State.move]

/-- With a permit to spare, a call that comes is let in. -/
theorem canReach_join (hrunning : s.isShuttingDown = false) (hfree : 0 < s.currentCount) :
    CanReach step (fun _ => True)
      (fun t => t = { s.join .uploading with currentCount := s.currentCount - 1 }) s := by
  have hnext : ∀ phase phase' : Phase,
      (s.join phase).next s.calls.length { phase } =
        some ((s.join phase).move s.calls.length { phase } phase') →
      step (s.join phase) (.next s.calls.length) = some (s.join phase') := by
    intro phase phase' h
    rw [← move_join s phase phase', ← h]
    simp only [step, join_getElem?, Option.bind_some]
  have hjoin : step s .call = some (s.join .entered) := rfl
  have hchecked := hnext .entered .checked (by simp [State.next, State.join, hrunning])
  have hcreated := hnext .checked (.created true) (by simp [State.next, State.join, hrunning])
  have hwaiting := hnext (.created true) (.waiting true false)
    (by simp [State.next, State.join, hrunning])
  have hacquire : step (s.join (.waiting true false)) (.acquire s.calls.length) =
      some { s.join .uploading with currentCount := s.currentCount - 1 } := by
    have hmove := move_join s (.waiting true false) .uploading
    simp only [step, join_getElem?, Option.bind_some, State.acquire, hmove]
    exact if_pos hfree
  exact .cons (a := .call) trivial hjoin <| .cons (a := .next _) trivial hchecked <|
    .cons (a := .next _) trivial hcreated <| .cons (a := .next _) trivial hwaiting <|
    .cons (a := .acquire _) trivial hacquire (.here rfl)

/-- **The condition is tight**: a permit that is released for another call, while that call uploads,
    can let a third one in beside it. -/
theorem canReach_of_harm (hharm : ¬ Harmless s a) (hs : step s a = some s')
    (hrunning : s.isShuttingDown = false) (hbusy : ∃ c ∈ s.calls, c.uploading = true) :
    CanReach step (fun _ => True) (fun s => ¬ Exclusive s) s' := by
  cases a with
  | next i =>
    simp only [Harmless, Classical.not_forall, Option.mem_def] at hharm
    obtain ⟨c, hi, hunpermitted, hzero⟩ := hharm
    have hzero : s.currentCount = 0 := by simpa using hzero
    obtain ⟨acquired, outcome, hphase⟩ : ∃ acquired outcome,
        c.phase = .releasing acquired outcome := by
      unfold Call.unpermitted at hunpermitted
      split at hunpermitted
      · exact ⟨_, _, ‹_›⟩
      · cases hunpermitted
    have hs' : s' = { s.move i c (.done outcome) with currentCount := 1 } := by
      have hnext : s.next i c = some s' := by simpa only [step, hi, Option.bind_some] using hs
      rw [State.next, hphase] at hnext
      simp only [hzero, Nat.zero_lt_one, if_true, Option.some.injEq] at hnext
      exact hnext.symm
    have hfree : 0 < s'.currentCount := by
      rw [hs']
      exact Nat.one_pos
    have hbusy' : ∃ d ∈ s'.calls, d.uploading = true := by
      obtain ⟨d, hd, huploading⟩ := hbusy
      obtain ⟨j, hj, hget⟩ := List.getElem_of_mem hd
      have hne : i ≠ j := by
        rintro rfl
        rw [List.getElem?_eq_getElem hj, Option.some.injEq] at hi
        rw [← hget, hi] at huploading
        simp [Call.uploading, hphase] at huploading
      refine ⟨d, ?_, huploading⟩
      have hset : (s.calls.set i { c with phase := .done outcome })[j]? = some d := by
        rw [List.getElem?_set_ne hne, List.getElem?_eq_getElem hj, hget]
      rw [hs']
      exact List.mem_of_getElem? hset
    refine (canReach_join (by rw [hs']; exact hrunning) hfree).trans fun t ht => .here ?_
    intro hexclusive
    have hone := hexclusive.one
    have hpos : 0 < s'.calls.countP Call.uploading := List.countP_pos_iff.mpr hbusy'
    have hcount : t.calls.countP Call.uploading = s'.calls.countP Call.uploading + 1 := by
      rw [ht]
      exact List.countP_append
    omega
  | _ => exact absurd trivial hharm

/-! ## A call that is cancelled while it waits -/

/-- The first call uploads, the second is cancelled while it waits, the third comes. -/
def cancelledWaiter : List Step :=
  [.call, .next 0, .next 0, .next 0, .acquire 0,
    .call, .next 1, .next 1, .next 1, .cancel 1, .cancelWait 1, .next 1, .next 1,
    .call, .next 2, .next 2, .next 2, .acquire 2]

theorem not_exclusive_cancelledWaiter : ¬ EachState step Exclusive {} cancelledWaiter := by
  intro h
  have hone := (h.last (rfl : run step {} cancelledWaiter = some _)).one
  exact absurd hone (by decide)

end Service.GoogleDriveService
