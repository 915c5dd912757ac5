/-
  THE SHUTDOWN SEQUENCE (Vorsight.Service/Worker.cs, SystemOperations/ShutdownCoordinator.cs).

  `StopServiceAsync` stops the components one after another, completes the upload queue, waits until
  it is empty, and then completes the session.  The upload loop and callers that enqueue files go on
  meanwhile.  A cancelled token ends the loop at its condition, and cancels its receives.

  1. **The claim of the design** (`Unstuck`): from every state of the sequence the call of
     `CompleteSessionAsync` can be reached, and `ShutdownGracefullyAsync` returns by its own steps
     and timers.

  2. **Where it fails.**  `WaitForQueueEmptyAsync` waits for the queue's completion before it starts
     its timeout.  With a file in the queue and no loop to take it out, that never comes.

  3. **The exact condition** (`unstuck_iff`): no file is left in the queue once the loop is dead, or
     when the queue is completed without one (`Harmless`).  The crux is `Stuck`, which nothing ends,
     and `unstuck_of_inv`, which finds the way out of every state a harmless run reaches.
-/
import Mathlib.Tactic.ByContra
import Vorsight.Service.UploadQueueProcessor

namespace Service.ShutdownCoordinator

open Runs
open UploadQueueProcessor (Loop)

/-! ## The state -/

/-- Where `StopServiceAsync` is. -/
inductive Worker
  | running
  /-- in `StopMonitoringAsync`, after `BeginShutdown` -/
  | stoppingAudit
  | stoppingEnforcement
  | stoppingIpc
  /-- before `_uploadQueue.Complete()` -/
  | completing
  /-- waits for the loop or three seconds -/
  | waitingForProcessor
  /-- in `ShutdownGracefullyAsync`, before the lock -/
  | coordinating
  /-- in `WaitForQueueEmptyAsync` -/
  | counting
  /-- in `await queue.Completion.ContinueWith(…)` -/
  | awaitingCompletion
  /-- waits for `completionSource` or the timeout -/
  | awaitingTimeout
  /-- `CompleteSessionAsync` is called -/
  | completingSession
deriving DecidableEq

structure State where
  queue : UploadQueueProcessor.State := {}
  /-- the token of the upload loop -/
  cancelled : Bool := false
  worker : Worker := .running
  /-- `completionSource` has its result -/
  signalled : Bool := false
deriving DecidableEq

inductive Step
  /-- the upload loop, its block and its callers -/
  | queue (a : UploadQueueProcessor.Step)
  /-- the token is cancelled from outside -/
  | cancel
  /-- `StopServiceAsync` is called -/
  | stop
  /-- the next step of `StopServiceAsync`, or of what it calls -/
  | worker
  /-- a timer that `StopServiceAsync` has started fires -/
  | timer
deriving DecidableEq

/-! ## The steps -/

namespace State

/-- The token is cancelled: the receives that wait fail, and a loop that waits ends. -/
def cancel (s : State) : State :=
  { s with
    cancelled := true
    queue := { s.queue with
      abandoned := 0
      loop := if s.queue.loop = .receiving then .stopped else s.queue.loop } }

/-- The loop's condition looks at the token too. -/
def queueStep (s : State) (a : UploadQueueProcessor.Step) : Option State :=
  match a with
  | .top => if s.cancelled ∧ s.queue.loop = .atTop then
      some { s with queue := { s.queue with loop := .stopped } }
    else (UploadQueueProcessor.step s.queue .top).map fun queue => { s with queue }
  | .complete => none
  | a => (UploadQueueProcessor.step s.queue a).map fun queue => { s with queue }

/-- What `StopServiceAsync` does next; the stops of the other components return. -/
def workerStep (s : State) : Option State :=
  match s.worker with
  | .running => none
  | .stoppingAudit => some { s with worker := .stoppingEnforcement }
  | .stoppingEnforcement => some { s with worker := .stoppingIpc }
  | .stoppingIpc => some { s with worker := .completing }
  | .completing => some { s with
      queue := { s.queue with declining := true }
      -- `if (_processorTask != null)`
      worker := if s.queue.loop = .notStarted then .coordinating else .waitingForProcessor }
  | .waitingForProcessor =>
      if s.queue.loop = .stopped then some { s with worker := .coordinating } else none
  | .coordinating => some { s with worker := .counting }
  | .counting =>
      if s.queue.buffer = [] then some { s with worker := .completingSession }
      else some { s with worker := .awaitingCompletion }
  | .awaitingCompletion =>
      if s.queue.completed then some { s with worker := .awaitingTimeout, signalled := true }
      else none
  | .awaitingTimeout =>
      if s.signalled then some { s with worker := .completingSession } else none
  | .completingSession => none

/-- The three seconds of `CompleteAsync`, the poll of `WaitForQueueEmptyAsync` every half second,
    and its timeout, which is started behind the completion. -/
def timerStep (s : State) : Option State :=
  match s.worker with
  | .waitingForProcessor =>
      if s.queue.loop = .stopped then some { s with worker := .coordinating }
      else some { s.cancel with worker := .coordinating }
  | .awaitingCompletion => some { s with
      signalled := s.signalled || decide (s.queue.buffer = []) || s.queue.completed }
  | .awaitingTimeout => some { s with worker := .completingSession }
  | _ => none

end State

def step (s : State) : Step → Option State
  | .queue a => s.queueStep a
  | .cancel => some s.cancel
  | .stop => if s.worker = .running then some { s with worker := .stoppingAudit } else none
  | .worker => s.workerStep
  | .timer => s.timerStep

/-! ## The design's claim, and the condition -/

namespace State

/-- Within `ShutdownGracefullyAsync`. -/
def InShutdown (s : State) : Prop :=
  s.worker = .coordinating ∨ s.worker = .counting ∨ s.worker = .awaitingCompletion ∨
    s.worker = .awaitingTimeout

/-- Between the call of `StopServiceAsync` and that of `CompleteSessionAsync`. -/
def Stopping (s : State) : Prop := s.worker ≠ .running ∧ s.worker ≠ .completingSession

/-- No loop takes another file out of the queue, now or later. -/
def Dead (s : State) : Prop := s.queue.loop = .stopped ∨ s.cancelled = true

end State

/-- A step of `StopServiceAsync` itself. -/
def Step.Own : Step → Prop
  | .worker | .timer => True
  | _ => False

structure Unstuck (s : State) : Prop where
  /-- `CompleteSessionAsync` can still be called -/
  reaches : s.worker ≠ .running →
    CanReach step (fun _ => True) (fun s => s.worker = .completingSession) s
  /-- `ShutdownGracefullyAsync` needs nobody else to return -/
  returns : s.InShutdown → CanReach step Step.Own (fun s => s.worker = .completingSession) s

/-- No file is left in the queue when the loop dies, is dead when the shutdown begins, or has not
    been started when the queue is completed, and none is sent to a dead loop before that. -/
def Harmless (s : State) : Step → Prop
  | .stop => s.Dead → s.queue.buffer = []
  | .queue (.send _) => s.Stopping → s.Dead → s.queue.declining = true
  | .cancel => s.Stopping → s.queue.buffer = []
  | .worker => s.worker = .completing → s.queue.loop = .notStarted → s.queue.buffer = []
  | .timer => s.worker = .waitingForProcessor → s.queue.loop ≠ .stopped → s.queue.buffer = []
  | _ => True

/-! ## What a step of the queue does -/

variable {s s' : State} {a : UploadQueueProcessor.Step}

/-- The loop and its block, after a step of the queue. -/
inductive Effect (s : State) (a : UploadQueueProcessor.Step) : UploadQueueProcessor.State → Prop
  /-- callers add paths, or the loop goes on with what it holds -/
  | moved {q : UploadQueueProcessor.State} (hbuffer : q.buffer = s.queue.buffer)
      (habandoned : q.abandoned = s.queue.abandoned) (hcompleted : q.completed = s.queue.completed)
      (hdeclining : q.declining = s.queue.declining) (hloop : q.loop = s.queue.loop ∨
        (s.queue.loop ≠ .notStarted ∧ s.queue.loop ≠ .stopped ∧ q.loop ≠ .notStarted ∧
          q.loop ≠ .stopped ∧ q.loop ≠ .receiving)) : Effect s a q
  | started (hloop : s.queue.loop = .notStarted) : Effect s a { s.queue with loop := .atTop }
  | sent {p : String} {sending : List String} (ha : a = .send p)
      (hopen : s.queue.declining = false) :
      Effect s a { s.queue with sending, buffer := s.queue.buffer ++ [p] }
  | waiting (hloop : s.queue.loop = .atTop) (hlive : s.cancelled = false)
      (hempty : s.queue.buffer = []) (hopen : s.queue.completed = false) :
      Effect s a { s.queue with loop := .receiving }
  | taken {p : String} {rest : List String} (hloop : s.queue.loop = .atTop ∨
        s.queue.loop = .receiving) (hlive : s.queue.loop = .atTop → s.cancelled = false)
      (hbuffer : s.queue.buffer = p :: rest) :
      Effect s a { s.queue with buffer := rest, loop := .received p }
  | lost {p : String} {rest : List String} (habandoned : 0 < s.queue.abandoned)
      (hbuffer : s.queue.buffer = p :: rest) :
      Effect s a { s.queue with buffer := rest, abandoned := s.queue.abandoned - 1 }
  | timedOut (hloop : s.queue.loop = .receiving) :
      Effect s a { s.queue with loop := .atTop, abandoned := s.queue.abandoned + 1 }
  | ended (hloop : s.queue.loop = .atTop)
      (hend : s.cancelled = true ∨ s.queue.completed = true) :
      Effect s a { s.queue with loop := .stopped }
  | completed (hdeclining : s.queue.declining = true) (hempty : s.queue.buffer = []) :
      Effect s a { s.queue with
        completed := true
        abandoned := 0
        loop := if s.queue.loop = .receiving then .stopped else s.queue.loop }

/-- The loop ends at its condition once the token is cancelled; nothing else differs. -/
theorem queueStep_spec (hs : s.queueStep a = some s') :
    (s.cancelled = true ∧ s.queue.loop = .atTop ∧
      s' = { s with queue := { s.queue with loop := .stopped } }) ∨
    ∃ q, s' = { s with queue := q } ∧ UploadQueueProcessor.step s.queue a = some q ∧
      (a = .top → s.queue.loop = .atTop → s.cancelled = false) := by
  cases a with
  | top =>
    simp only [State.queueStep] at hs
    split at hs
    · rename_i hcancelled
      cases hs
      exact Or.inl ⟨hcancelled.1, hcancelled.2, rfl⟩
    · rename_i hcancelled
      obtain ⟨q, hq, rfl⟩ := Option.map_eq_some_iff.mp hs
      refine Or.inr ⟨q, rfl, hq, fun _ hloop => ?_⟩
      by_contra h
      exact hcancelled ⟨by simpa using h, hloop⟩
  | complete => cases hs
  | _ =>
    simp only [State.queueStep] at hs
    obtain ⟨q, hq, rfl⟩ := Option.map_eq_some_iff.mp hs
    exact Or.inr ⟨q, rfl, hq, fun h => by cases h⟩

/-- **What a step of the queue can do.** -/
theorem queueStep_cases (hs : s.queueStep a = some s') :
    ∃ q, s' = { s with queue := q } ∧ Effect s a q := by
  rcases queueStep_spec hs with ⟨hcancelled, hloop, rfl⟩ | ⟨q, rfl, hq, hlive⟩
  · exact ⟨_, rfl, .ended hloop (Or.inl hcancelled)⟩
  refine ⟨q, rfl, ?_⟩
  cases UploadQueueProcessor.step_cases hq with
  | started hl => exact .started hl
  | refused _ | checked _ | known _ _ | tracked _ _ | dropped _ _ =>
    exact .moved rfl rfl rfl rfl (Or.inl rfl)
  | sent _ hd => exact .sent rfl hd
  | ended hl hc => exact .ended hl (Or.inr hc)
  | took hl _ hbuf => exact .taken (Or.inl hl) (hlive rfl) hbuf
  | waits hl hc hbuf => exact .waiting hl (hlive rfl hl) hbuf hc
  | lost ha hbuf => exact .lost ha hbuf
  | handed _ hl hbuf =>
    refine .taken (Or.inr hl) (fun h => ?_) hbuf
    rw [hl] at h
    cases h
  | timedOut hl => exact .timedOut hl
  | uploads hl | uploaded hl | settled hl =>
    exact .moved rfl rfl rfl rfl (Or.inr (by simp [hl]))
  | declines => cases hs
  | completes hd hbuf _ => exact .completed hd hbuf

/-! ## Stuck -/

variable {b : Step}

/-- A file is in the queue, and nobody takes it out. -/
structure Stuck (s : State) : Prop where
  stopping : s.Stopping
  dead : s.Dead
  left : s.queue.buffer ≠ []
  still : s.queue.abandoned = 0 ∧ s.queue.loop ≠ .receiving
  incomplete : s.queue.completed = false
  waits : s.worker ≠ .awaitingTimeout

/-- A dead loop that has not ended has been cancelled. -/
theorem cancelled_of_dead (h : s.Dead) (hstopped : s.queue.loop ≠ .stopped) :
    s.cancelled = true := by
  rcases h with h | h
  · exact absurd h hstopped
  · exact h

theorem Stuck.effect (h : Stuck s) {q : UploadQueueProcessor.State} (he : Effect s a q) :
    Stuck { s with queue := q } := by
  have hlive : s.queue.loop = .atTop → s.cancelled = true := by
    intro hloop
    exact cancelled_of_dead h.dead (by simp [hloop])
  cases he with
  | moved hbuffer habandoned hcompleted hdeclining hloop =>
    refine ⟨h.stopping, ?_, hbuffer ▸ h.left, ⟨habandoned.trans h.still.1, ?_⟩,
      hcompleted.trans h.incomplete, h.waits⟩
    · rcases hloop with hloop | ⟨-, hstopped, -⟩
      · rcases h.dead with hd | hd
        · exact Or.inl (hloop.trans hd)
        · exact Or.inr hd
      · have hcancelled : s.cancelled = true := cancelled_of_dead h.dead hstopped
        exact Or.inr hcancelled
    · rcases hloop with hloop | ⟨-, -, -, -, hreceiving⟩
      · rw [hloop]
        exact h.still.2
      · exact hreceiving
  | started hloop =>
    -- a loop that is started late ends at its condition
    have hcancelled : s.cancelled = true := cancelled_of_dead h.dead (by simp [hloop])
    exact ⟨h.stopping, Or.inr hcancelled, h.left, ⟨h.still.1, by simp⟩, h.incomplete, h.waits⟩
  | sent _ hopen => exact ⟨h.stopping, h.dead, by simp, h.still, h.incomplete, h.waits⟩
  | waiting hloop hnot _ _ => exact absurd (hlive hloop) (by simp [hnot])
  | taken hloop hnot _ =>
    rcases hloop with hloop | hloop
    · exact absurd (hlive hloop) (by simp [hnot hloop])
    · exact absurd hloop h.still.2
  | lost habandoned _ =>
    have hzero := h.still.1
    omega
  | timedOut hloop => exact absurd hloop h.still.2
  | ended hloop _ =>
    exact ⟨h.stopping, Or.inl rfl, h.left, ⟨h.still.1, by simp⟩, h.incomplete, h.waits⟩
  | completed _ hempty => exact absurd hempty h.left

/-- Cancelling the token leaves what the queue stores. -/
theorem still_cancel (s : State) :
    s.cancel.queue.abandoned = 0 ∧ s.cancel.queue.loop ≠ .receiving := by
  refine ⟨rfl, ?_⟩
  show (if s.queue.loop = .receiving then Loop.stopped else s.queue.loop) ≠ .receiving
  split
  · simp
  · assumption

/-- **Once stuck, always stuck.** -/
theorem stuck_step (h : Stuck s) (hs : step s b = some s') : Stuck s' := by
  cases b with
  | queue a =>
    obtain ⟨q, rfl, he⟩ := queueStep_cases hs
    exact h.effect he
  | cancel =>
    cases hs
    exact ⟨h.stopping, Or.inr rfl, h.left, still_cancel s, h.incomplete, h.waits⟩
  | stop =>
    obtain ⟨hrunning, -⟩ := Option.ite_none_right_eq_some.mp hs
    exact absurd hrunning h.stopping.1
  | worker =>
    have hmove : ∀ w : Worker, w ≠ .running → w ≠ .completingSession → w ≠ .awaitingTimeout →
        Stuck { s with worker := w } :=
      fun w hw hw' hw'' => ⟨⟨hw, hw'⟩, h.dead, h.left, h.still, h.incomplete, hw''⟩
    simp only [step, State.workerStep] at hs
    split at hs
    · cases hs
    · cases hs
      exact hmove _ (by simp) (by simp) (by simp)
    · cases hs
      exact hmove _ (by simp) (by simp) (by simp)
    · cases hs
      exact hmove _ (by simp) (by simp) (by simp)
    · cases hs
      refine ⟨?_, h.dead, h.left, h.still, h.incomplete, ?_⟩
      · unfold State.Stopping
        split <;> simp
      · split <;> simp
    · obtain ⟨-, hs⟩ := Option.ite_none_right_eq_some.mp hs
      cases hs
      exact hmove _ (by simp) (by simp) (by simp)
    · cases hs
      exact hmove _ (by simp) (by simp) (by simp)
    · -- a file is counted
      rw [if_neg h.left] at hs
      cases hs
      exact hmove _ (by simp) (by simp) (by simp)
    · rw [h.incomplete] at hs
      cases hs
    · rename_i hworker
      exact absurd hworker h.waits
    · cases hs
  | timer =>
    simp only [step, State.timerStep] at hs
    split at hs
    · split at hs
      · cases hs
        exact ⟨by simp [State.Stopping], h.dead, h.left, h.still, h.incomplete, by simp⟩
      · cases hs
        exact ⟨by simp [State.Stopping], Or.inr rfl, h.left, still_cancel s, h.incomplete,
          by simp⟩
    · cases hs
      exact ⟨h.stopping, h.dead, h.left, h.still, h.incomplete, h.waits⟩
    · rename_i hworker
      exact absurd hworker h.waits
    · cases hs

theorem not_unstuck_of_stuck (h : Stuck s) : ¬ Unstuck s := by
  intro hunstuck
  refine not_canReach (I := Stuck) (fun _ _ _ h _ hs => stuck_step h hs) ?_ h
    (hunstuck.reaches h.stopping.1)
  intro t ht hreached
  exact ht.stopping.2 hreached

/-! ## The invariant -/

structure Inv (s : State) : Prop where
  /-- a dead loop waits for nothing -/
  still : s.Dead → s.queue.abandoned = 0 ∧ s.queue.loop ≠ .receiving
  completed : s.queue.completed = true → s.queue.declining = true ∧ s.queue.buffer = [] ∧
    s.queue.abandoned = 0 ∧ s.queue.loop ≠ .receiving
  /-- during the shutdown a dead loop leaves no file -/
  drained : s.Stopping → s.Dead → s.queue.buffer = []
  declining : s.worker = .waitingForProcessor ∨ s.InShutdown → s.queue.declining = true
  /-- `ShutdownGracefullyAsync` finds the queue empty -/
  empty : s.InShutdown → s.queue.buffer = []
  waits : s.worker ≠ .awaitingCompletion ∧ s.worker ≠ .awaitingTimeout

theorem inv_init : Inv {} := by
  refine ⟨by simp, by simp, ?_, ?_, by simp, by simp⟩
  · intro h
    exact absurd rfl h.1
  · rintro (h | h)
    · cases h
    · simp [State.InShutdown] at h

theorem not_dead (hlive : s.cancelled = false) (hloop : s.queue.loop ≠ .stopped) : ¬ s.Dead := by
  rintro (hd | hd)
  · exact hloop hd
  · exact absurd hd (by simp [hlive])

/-- A loop that waits is not dead. -/
theorem Inv.not_cancelled (h : Inv s) (hloop : s.queue.loop = .receiving) :
    s.cancelled = false := by
  by_contra hcancelled
  exact (h.still (Or.inr (by simpa using hcancelled))).2 hloop

/-- While the loop lives and the block is open, only the shutdown asks for an empty queue. -/
theorem Inv.alive (h : Inv s) {q : UploadQueueProcessor.State}
    (halive : ¬ State.Dead { s with queue := q }) (hopen : q.completed = false)
    (hdeclining : q.declining = s.queue.declining) (hempty : s.InShutdown → q.buffer = []) :
    Inv { s with queue := q } where
  still hd := absurd hd halive
  completed hc := absurd hc (by simp [hopen])
  drained _ hd := absurd hd halive
  declining hs := hdeclining.trans (h.declining hs)
  empty := hempty
  waits := h.waits

/-- A file in the queue: the block is open, and the shutdown has not come that far. -/
theorem Inv.open_of_left (h : Inv s) (hleft : s.queue.buffer ≠ []) :
    s.queue.completed = false ∧ ¬ s.InShutdown := by
  refine ⟨?_, fun hs => hleft (h.empty hs)⟩
  by_contra hc
  exact hleft (h.completed (by simpa using hc)).2.1

/-- A step of the queue, other than a send to a dead loop. -/
theorem Inv.effect (h : Inv s) {q : UploadQueueProcessor.State} (he : Effect s a q)
    (hharm : Harmless s (.queue a)) : Inv { s with queue := q } := by
  cases he with
  | moved hbuffer habandoned hcompleted hdeclining hloop =>
    -- the loop was dead before, and is as still as it was
    have hdead : State.Dead { s with queue := q } → s.Dead := by
      rintro (hd | hd)
      · rcases hloop with hloop | ⟨-, -, -, hstopped, -⟩
        · exact Or.inl (hloop.symm.trans hd)
        · exact absurd hd hstopped
      · exact Or.inr hd
    have hstill : s.queue.loop ≠ .receiving → q.loop ≠ .receiving := by
      rcases hloop with hloop | ⟨-, -, -, -, hreceiving⟩
      · rw [hloop]
        exact id
      · exact fun _ => hreceiving
    refine ⟨fun hd => ?_, fun hc => ?_, fun hs hd => hbuffer.trans (h.drained hs (hdead hd)),
      fun hs => hdeclining.trans (h.declining hs), fun hs => hbuffer.trans (h.empty hs), h.waits⟩
    · obtain ⟨hzero, hloop'⟩ := h.still (hdead hd)
      exact ⟨habandoned.trans hzero, hstill hloop'⟩
    · obtain ⟨hd, hempty, hzero, hloop'⟩ := h.completed (hcompleted.symm.trans hc)
      exact ⟨hdeclining.trans hd, hbuffer.trans hempty, habandoned.trans hzero, hstill hloop'⟩
  | started hloop =>
    have hdead : State.Dead { s with queue := { s.queue with loop := .atTop } } → s.Dead := by
      rintro (hd | hd)
      · cases hd
      · exact Or.inr hd
    refine ⟨fun hd => ⟨(h.still (hdead hd)).1, by simp⟩, fun hc => ?_,
      fun hs hd => h.drained hs (hdead hd), h.declining, h.empty, h.waits⟩
    obtain ⟨hd, hempty, hzero, -⟩ := h.completed hc
    exact ⟨hd, hempty, hzero, by simp⟩
  | sent ha hopen =>
    subst ha
    refine ⟨h.still, fun hc => ?_, fun hs hd => ?_, h.declining, fun hs => ?_, h.waits⟩
    · exact absurd (h.completed hc).1 (by simp [hopen])
    · exact absurd (hharm hs hd) (by simp [hopen])
    · exact absurd (h.declining (Or.inr hs)) (by simp [hopen])
  | waiting _ hlive _ hopen => exact h.alive (not_dead hlive (by simp)) hopen rfl h.empty
  | taken hloop hlive hbuffer =>
    obtain ⟨hopen, hnot⟩ := h.open_of_left (by simp [hbuffer])
    have hlive : s.cancelled = false := hloop.elim hlive h.not_cancelled
    exact h.alive (not_dead hlive (by simp)) hopen rfl (fun hs => absurd hs hnot)
  | lost habandoned hbuffer =>
    obtain ⟨hopen, hnot⟩ := h.open_of_left (by simp [hbuffer])
    have halive : ¬ s.Dead := by
      intro hd
      have hzero := (h.still hd).1
      omega
    exact h.alive halive hopen rfl (fun hs => absurd hs hnot)
  | timedOut hloop =>
    have hopen : s.queue.completed = false := by
      by_contra hc
      exact (h.completed (by simpa using hc)).2.2.2 hloop
    exact h.alive (not_dead (h.not_cancelled hloop) (by simp)) hopen rfl h.empty
  | ended hloop hend =>
    have hquiet : s.queue.abandoned = 0 ∧ (s.Stopping → s.queue.buffer = []) := by
      rcases hend with hend | hend
      · exact ⟨(h.still (Or.inr hend)).1, fun hs => h.drained hs (Or.inr hend)⟩
      · obtain ⟨-, hempty, hzero, -⟩ := h.completed hend
        exact ⟨hzero, fun _ => hempty⟩
    refine ⟨fun _ => ⟨hquiet.1, by simp⟩, fun hc => ?_, fun hs _ => hquiet.2 hs, h.declining,
      h.empty, h.waits⟩
    obtain ⟨hd, hempty, hzero, -⟩ := h.completed hc
    exact ⟨hd, hempty, hzero, by simp⟩
  | completed hdeclining hempty =>
    have hloop : (if s.queue.loop = .receiving then Loop.stopped else s.queue.loop) ≠
        .receiving := by
      split
      · simp
      · assumption
    exact ⟨fun _ => ⟨rfl, hloop⟩, fun _ => ⟨hdeclining, hempty, rfl, hloop⟩, fun _ _ => hempty,
      h.declining, h.empty, h.waits⟩

/-- Cancelling the token where no file is left. -/
theorem inv_cancel (h : Inv s) (hempty : s.Stopping → s.queue.buffer = []) : Inv s.cancel where
  still _ := still_cancel s
  completed hc := by
    obtain ⟨hd, hempty, -, -⟩ := h.completed hc
    exact ⟨hd, hempty, still_cancel s⟩
  drained hs _ := hempty hs
  declining := h.declining
  empty := h.empty
  waits := h.waits

/-- `StopServiceAsync` goes on; past `Complete()` only when the queue declines, and into
    `ShutdownGracefullyAsync` only when it is empty. -/
theorem inv_move (h : Inv s) (hs : s.Stopping) {w : Worker} (hcompletion : w ≠ .awaitingCompletion)
    (htimeout : w ≠ .awaitingTimeout)
    (hdeclining : w = .waitingForProcessor ∨ w = .coordinating ∨ w = .counting →
      s.queue.declining = true)
    (hempty : w = .coordinating ∨ w = .counting → s.queue.buffer = []) :
    Inv { s with worker := w } where
  still := h.still
  completed := h.completed
  drained _ hd := h.drained hs hd
  declining hw := by
    rcases hw with hw | hw | hw | hw | hw
    · exact hdeclining (Or.inl hw)
    · exact hdeclining (Or.inr (Or.inl hw))
    · exact hdeclining (Or.inr (Or.inr hw))
    · exact absurd hw hcompletion
    · exact absurd hw htimeout
  empty hw := by
    rcases hw with hw | hw | hw | hw
    · exact hempty (Or.inl hw)
    · exact hempty (Or.inr hw)
    · exact absurd hw hcompletion
    · exact absurd hw htimeout
  waits := ⟨hcompletion, htimeout⟩

/-- The queue declines from now on. -/
theorem inv_decline (h : Inv s) :
    Inv { s with queue := { s.queue with declining := true } } :=
  ⟨h.still, fun hc => ⟨rfl, (h.completed hc).2⟩, h.drained, fun _ => rfl, h.empty, h.waits⟩

theorem inv_workerStep (h : Inv s) (hharm : Harmless s .worker) (hs : s.workerStep = some s') :
    Inv s' := by
  unfold State.workerStep at hs
  split at hs
  · cases hs
  · rename_i hw
    cases hs
    exact inv_move h ⟨by simp [hw], by simp [hw]⟩ (by simp) (by simp) (by simp) (by simp)
  · rename_i hw
    cases hs
    exact inv_move h ⟨by simp [hw], by simp [hw]⟩ (by simp) (by simp) (by simp) (by simp)
  · rename_i hw
    cases hs
    exact inv_move h ⟨by simp [hw], by simp [hw]⟩ (by simp) (by simp) (by simp) (by simp)
  · rename_i hw
    cases hs
    refine inv_move (inv_decline h) ⟨by simp [hw], by simp [hw]⟩ ?_ ?_ (fun _ => rfl) ?_
    · split <;> simp
    · split <;> simp
    · intro hw'
      split at hw'
      · exact hharm hw ‹_›
      · simp at hw'
  · rename_i hw
    obtain ⟨hstopped, hs⟩ := Option.ite_none_right_eq_some.mp hs
    cases hs
    have hstopping : s.Stopping := ⟨by simp [hw], by simp [hw]⟩
    exact inv_move h hstopping (by simp) (by simp) (fun _ => h.declining (Or.inl hw))
      fun _ => h.drained hstopping (Or.inl hstopped)
  · rename_i hw
    cases hs
    have hin : s.InShutdown := Or.inl hw
    exact inv_move h ⟨by simp [hw], by simp [hw]⟩ (by simp) (by simp)
      (fun _ => h.declining (Or.inr hin)) fun _ => h.empty hin
  · rename_i hw
    rw [if_pos (h.empty (Or.inr (Or.inl hw)))] at hs
    cases hs
    exact inv_move h ⟨by simp [hw], by simp [hw]⟩ (by simp) (by simp) (by simp) (by simp)
  · rename_i hw
    exact absurd hw h.waits.1
  · rename_i hw
    exact absurd hw h.waits.2
  · cases hs

theorem inv_timerStep (h : Inv s) (hharm : Harmless s .timer) (hs : s.timerStep = some s') :
    Inv s' := by
  unfold State.timerStep at hs
  split at hs
  · rename_i hw
    have hstopping : s.Stopping := ⟨by simp [hw], by simp [hw]⟩
    have hdeclining : s.queue.declining = true := h.declining (Or.inl hw)
    split at hs
    · rename_i hstopped
      cases hs
      exact inv_move h hstopping (by simp) (by simp) (fun _ => hdeclining)
        fun _ => h.drained hstopping (Or.inl hstopped)
    · rename_i hstopped
      cases hs
      have hcancel : Inv s.cancel := inv_cancel h fun _ => hharm hw hstopped
      exact inv_move hcancel hstopping (by simp) (by simp) (fun _ => hdeclining)
        fun _ => hharm hw hstopped
  · rename_i hw
    exact absurd hw h.waits.1
  · rename_i hw
    exact absurd hw h.waits.2
  · cases hs

/-- **A harmless step keeps the invariant.** -/
theorem inv_step (h : Inv s) (hharm : Harmless s b) (hs : step s b = some s') : Inv s' := by
  cases b with
  | queue a =>
    obtain ⟨q, rfl, he⟩ := queueStep_cases hs
    exact h.effect he hharm
  | cancel =>
    cases hs
    exact inv_cancel h hharm
  | stop =>
    obtain ⟨hrunning, hs⟩ := Option.ite_none_right_eq_some.mp hs
    cases hs
    refine ⟨h.still, h.completed, fun _ hd => hharm hd, ?_, ?_, by simp⟩
    · rintro (hs | hs | hs | hs | hs) <;> cases hs
    · rintro (hs | hs | hs | hs) <;> cases hs
  | worker => exact inv_workerStep h hharm hs
  | timer => exact inv_timerStep h hharm hs

/-! ## The way out -/

/-- By its own steps, where the queue is empty. -/
theorem reaches_of_coordinating (hw : s.worker = .coordinating ∨ s.worker = .counting)
    (hempty : s.queue.buffer = []) :
    CanReach step Step.Own (fun s => s.worker = .completingSession) s := by
  have hcount : ∀ t : State, t.worker = .counting → t.queue.buffer = [] →
      CanReach step Step.Own (fun s => s.worker = .completingSession) t := by
    intro t ht hempty
    have hstep : step t .worker = some { t with worker := .completingSession } := by
      simp [step, State.workerStep, ht, hempty]
    exact .cons (a := .worker) trivial hstep (.here rfl)
  rcases hw with hw | hw
  · have hstep : step s .worker = some { s with worker := .counting } := by
      simp [step, State.workerStep, hw]
    exact .cons (a := .worker) trivial hstep (hcount _ rfl hempty)
  · exact hcount s hw hempty

/-- From the wait for the loop, where the queue is empty. -/
theorem reaches_of_waiting (hw : s.worker = .waitingForProcessor) (hempty : s.queue.buffer = []) :
    CanReach step Step.Own (fun s => s.worker = .completingSession) s := by
  by_cases hstopped : s.queue.loop = .stopped
  · have hstep : step s .timer = some { s with worker := .coordinating } := by
      simp [step, State.timerStep, hw, hstopped]
    exact .cons (a := .timer) trivial hstep (reaches_of_coordinating (Or.inl rfl) hempty)
  · have hstep : step s .timer = some { s.cancel with worker := .coordinating } := by
      simp [step, State.timerStep, hw, hstopped]
    exact .cons (a := .timer) trivial hstep (reaches_of_coordinating (Or.inl rfl) hempty)

/-- The loop at its condition, and all else as in `s`. -/
def AtTop (s t : State) : Prop :=
  t.queue.loop = .atTop ∧ t.queue.buffer = s.queue.buffer ∧
    t.queue.completed = s.queue.completed ∧ t.cancelled = s.cancelled ∧ t.worker = s.worker

/-- A loop that has uploaded comes to its condition. -/
theorem top_of_settling {p : String} {uploaded : Bool}
    (hloop : s.queue.loop = .settling p uploaded) :
    CanReach step (fun _ => True) (AtTop s) s := by
  have hstep : step s (.queue .settle) = some { s with queue := { s.queue with
      loop := .atTop, queuedFiles := s.queue.queuedFiles.erase p } } := by
    simp [step, State.queueStep, UploadQueueProcessor.step, hloop]
  exact .cons (a := .queue .settle) trivial hstep (.here ⟨rfl, rfl, rfl, rfl, rfl⟩)

/-- The upload ends. -/
theorem top_of_uploading {p : String} (hloop : s.queue.loop = .uploading p) :
    CanReach step (fun _ => True) (AtTop s) s := by
  have hstep : step s (.queue (.uploadEnd true)) = some { s with queue := { s.queue with
      loop := .settling p true } } := by
    simp [step, State.queueStep, UploadQueueProcessor.step, hloop]
  exact .cons (a := .queue (.uploadEnd true)) trivial hstep (top_of_settling rfl)

/-- A live loop comes to its condition. -/
theorem reaches_top (hlive : ¬ s.Dead) : CanReach step (fun _ => True) (AtTop s) s := by
  cases hloop : s.queue.loop with
  | notStarted =>
    have hstep : step s (.queue .start) = some { s with queue := { s.queue with
        loop := .atTop } } := by
      simp [step, State.queueStep, UploadQueueProcessor.step, hloop]
    exact .cons (a := .queue .start) trivial hstep (.here ⟨rfl, rfl, rfl, rfl, rfl⟩)
  | stopped => exact absurd (Or.inl hloop) hlive
  | atTop => exact .here ⟨hloop, rfl, rfl, rfl, rfl⟩
  | receiving =>
    have hstep : step s (.queue .timeout) = some { s with queue := { s.queue with
        loop := .atTop, abandoned := s.queue.abandoned + 1 } } := by
      simp [step, State.queueStep, UploadQueueProcessor.step, hloop]
    exact .cons (a := .queue .timeout) trivial hstep (.here ⟨rfl, rfl, rfl, rfl, rfl⟩)
  | received p =>
    have hstep : step s (.queue .upload) = some { s with queue := { s.queue with
        loop := .uploading p, uploads := p :: s.queue.uploads } } := by
      simp [step, State.queueStep, UploadQueueProcessor.step, hloop]
    exact .cons (a := .queue .upload) trivial hstep (top_of_uploading rfl)
  | uploading p => exact top_of_uploading hloop
  | settling p uploaded => exact top_of_settling hloop

/-- **A live loop drains the queue**, by induction on what it stores. -/
theorem drain : ∀ (n : Nat) {s : State}, s.queue.buffer.length = n → ¬ s.Dead →
    (s.queue.buffer ≠ [] → s.queue.completed = false) →
    CanReach step (fun _ => True) (fun t => t.queue.buffer = [] ∧ t.worker = s.worker) s
  | 0, s, hlength, _, _ => .here ⟨List.length_eq_zero_iff.mp hlength, rfl⟩
  | n + 1, s, hlength, hlive, hopen => by
    obtain ⟨p, rest, hbuffer⟩ : ∃ p rest, s.queue.buffer = p :: rest :=
      List.exists_cons_of_length_eq_add_one hlength
    have hlive' : s.cancelled = false := by
      by_contra hcancelled
      exact hlive (Or.inr (by simpa using hcancelled))
    have hincomplete : s.queue.completed = false := hopen (by simp [hbuffer])
    refine (reaches_top hlive).trans fun t ht => ?_
    obtain ⟨hloop, hbuffer', hcompleted', hcancelled', hworker'⟩ := ht
    -- the loop takes the head of the queue
    have hstep : step t (.queue .top) = some { t with queue := { t.queue with
        buffer := rest, loop := .received p } } := by
      simp [step, State.queueStep, UploadQueueProcessor.step, UploadQueueProcessor.State.top,
        hloop, hcancelled', hlive', hcompleted', hincomplete, hbuffer', hbuffer]
    refine .cons (a := .queue .top) trivial hstep ?_
    refine (drain n (s := { t with queue := { t.queue with
      buffer := rest, loop := .received p } }) ?_ ?_ fun _ => hcompleted'.trans hincomplete).trans
        fun u hu => ?_
    · rw [hbuffer, List.length_cons] at hlength
      show rest.length = n
      omega
    · rintro (hd | hd)
      · cases hd
      · exact absurd hd (by simp [hcancelled', hlive'])
    · exact .here ⟨hu.1, hu.2.trans hworker'⟩

/-- From the wait for the loop, whatever the queue stores. -/
theorem Inv.reaches_of_waiting (h : Inv s) (hw : s.worker = .waitingForProcessor) :
    CanReach step (fun _ => True) (fun s => s.worker = .completingSession) s := by
  by_cases hd : s.Dead
  · have hempty : s.queue.buffer = [] := h.drained ⟨by simp [hw], by simp [hw]⟩ hd
    exact (ShutdownCoordinator.reaches_of_waiting hw hempty).mono fun _ _ => trivial
  · have hopen : s.queue.buffer ≠ [] → s.queue.completed = false := by
      intro hfull
      by_contra hc
      exact hfull (h.completed (by simpa using hc)).2.1
    refine (drain _ rfl hd hopen).trans fun t ht => ?_
    exact (ShutdownCoordinator.reaches_of_waiting (ht.2.trans hw) ht.1).mono fun _ _ => trivial

/-- Within `ShutdownGracefullyAsync` nothing is waited for. -/
theorem Inv.reaches_of_inShutdown (h : Inv s) (hs : s.InShutdown) :
    CanReach step Step.Own (fun s => s.worker = .completingSession) s := by
  have hempty : s.queue.buffer = [] := h.empty hs
  rcases hs with hw | hw | hw | hw
  · exact reaches_of_coordinating (Or.inl hw) hempty
  · exact reaches_of_coordinating (Or.inr hw) hempty
  · exact absurd hw h.waits.1
  · exact absurd hw h.waits.2

/-- A step of `StopServiceAsync` that only goes on. -/
theorem Inv.reaches_of_next (h : Inv s) (hharm : Harmless s .worker) {t : State}
    (hstep : step s .worker = some t)
    (hnext : Inv t → CanReach step (fun _ => True) (fun s => s.worker = .completingSession) t) :
    CanReach step (fun _ => True) (fun s => s.worker = .completingSession) s :=
  .cons (a := .worker) trivial hstep (hnext (inv_workerStep h hharm hstep))

/-- The queue is completed, and a loop that has been started is waited for. -/
theorem Inv.reaches_of_started (h : Inv s) (hw : s.worker = .completing)
    (hstarted : s.queue.loop ≠ .notStarted) :
    CanReach step (fun _ => True) (fun s => s.worker = .completingSession) s := by
  have hstep : step s .worker = some { s with
      queue := { s.queue with declining := true }, worker := .waitingForProcessor } := by
    simp [step, State.workerStep, hw, hstarted]
  exact h.reaches_of_next (fun _ hloop => absurd hloop hstarted) hstep
    fun h => h.reaches_of_waiting rfl

/-- A loop that has not been started can be started before the queue is completed. -/
theorem Inv.reaches_of_completing (h : Inv s) (hw : s.worker = .completing) :
    CanReach step (fun _ => True) (fun s => s.worker = .completingSession) s := by
  by_cases hloop : s.queue.loop = .notStarted
  · have hstep : step s (.queue .start) = some { s with queue := { s.queue with
        loop := .atTop } } := by
      simp [step, State.queueStep, UploadQueueProcessor.step, hloop]
    have hinv := inv_step (b := .queue .start) h trivial hstep
    exact .cons (a := .queue .start) trivial hstep (hinv.reaches_of_started hw (by simp))
  · exact h.reaches_of_started hw hloop

theorem Inv.reaches_of_stoppingIpc (h : Inv s) (hw : s.worker = .stoppingIpc) :
    CanReach step (fun _ => True) (fun s => s.worker = .completingSession) s := by
  have hstep : step s .worker = some { s with worker := .completing } := by
    simp [step, State.workerStep, hw]
  exact h.reaches_of_next (fun hc => by simp [hw] at hc) hstep fun h => h.reaches_of_completing rfl

theorem Inv.reaches_of_stoppingEnforcement (h : Inv s) (hw : s.worker = .stoppingEnforcement) :
    CanReach step (fun _ => True) (fun s => s.worker = .completingSession) s := by
  have hstep : step s .worker = some { s with worker := .stoppingIpc } := by
    simp [step, State.workerStep, hw]
  exact h.reaches_of_next (fun hc => by simp [hw] at hc) hstep fun h => h.reaches_of_stoppingIpc rfl

theorem Inv.reaches_of_stoppingAudit (h : Inv s) (hw : s.worker = .stoppingAudit) :
    CanReach step (fun _ => True) (fun s => s.worker = .completingSession) s := by
  have hstep : step s .worker = some { s with worker := .stoppingEnforcement } := by
    simp [step, State.workerStep, hw]
  exact h.reaches_of_next (fun hc => by simp [hw] at hc) hstep
    fun h => h.reaches_of_stoppingEnforcement rfl

/-- **Every state of the invariant has a way out.** -/
theorem unstuck_of_inv (h : Inv s) : Unstuck s where
  returns := h.reaches_of_inShutdown
  reaches hstopping := by
    have hown : s.InShutdown →
        CanReach step (fun _ => True) (fun s => s.worker = .completingSession) s :=
      fun hs => (h.reaches_of_inShutdown hs).mono fun _ _ => trivial
    cases hw : s.worker with
    | running => exact absurd hw hstopping
    | stoppingAudit => exact h.reaches_of_stoppingAudit hw
    | stoppingEnforcement => exact h.reaches_of_stoppingEnforcement hw
    | stoppingIpc => exact h.reaches_of_stoppingIpc hw
    | completing => exact h.reaches_of_completing hw
    | waitingForProcessor => exact h.reaches_of_waiting hw
    | coordinating => exact hown (Or.inl hw)
    | counting => exact hown (Or.inr (Or.inl hw))
    | awaitingCompletion => exact hown (Or.inr (Or.inr (Or.inl hw)))
    | awaitingTimeout => exact hown (Or.inr (Or.inr (Or.inr hw)))
    | completingSession => exact .here hw

/-- A file is left in the queue for `ShutdownGracefullyAsync` to wait for. -/
structure Waits (s : State) : Prop where
  waits : s.worker = .coordinating ∨ s.worker = .counting ∨ s.worker = .awaitingCompletion
  left : s.queue.buffer ≠ []
  incomplete : s.queue.completed = false

/-- **Its timers do not help**: the timeout is started behind the completion. -/
theorem waits_step (h : Waits s) (hown : b.Own) (hs : step s b = some s') : Waits s' := by
  cases b with
  | worker =>
    rcases h.waits with hw | hw | hw
    · simp only [step, State.workerStep, hw, Option.some.injEq] at hs
      subst hs
      exact ⟨Or.inr (Or.inl rfl), h.left, h.incomplete⟩
    · simp only [step, State.workerStep, hw, if_neg h.left, Option.some.injEq] at hs
      subst hs
      exact ⟨Or.inr (Or.inr rfl), h.left, h.incomplete⟩
    · simp [step, State.workerStep, hw, h.incomplete] at hs
  | timer =>
    rcases h.waits with hw | hw | hw
    · simp [step, State.timerStep, hw] at hs
    · simp [step, State.timerStep, hw] at hs
    · simp only [step, State.timerStep, hw, Option.some.injEq] at hs
      subst hs
      exact ⟨Or.inr (Or.inr rfl), h.left, h.incomplete⟩
  | _ => exact hown.elim

theorem not_unstuck_of_waits (h : Waits s) : ¬ Unstuck s := by
  intro hunstuck
  have hin : s.InShutdown := by
    rcases h.waits with hw | hw | hw
    · exact Or.inl hw
    · exact Or.inr (Or.inl hw)
    · exact Or.inr (Or.inr (Or.inl hw))
  refine not_canReach (I := Waits) (fun _ _ _ h hown hs => waits_step h hown hs) ?_ h
    (hunstuck.returns hin)
  intro t ht hreached
  rcases ht.waits with hw | hw | hw <;> simp [hw] at hreached

/-- **A harmful step gets stuck.** -/
theorem not_unstuck_of_harm (h : Inv s) (hharm : ¬ Harmless s b) (hs : step s b = some s') :
    ¬ Unstuck s' := by
  have hincomplete : s.queue.buffer ≠ [] → s.queue.completed = false := by
    intro hleft
    by_contra hc
    exact hleft (h.completed (by simpa using hc)).2.1
  cases b with
  | queue a =>
    cases a with
    | send p =>
      simp only [Harmless, Classical.not_imp, Bool.not_eq_true] at hharm
      obtain ⟨hstopping, hdead, hopen⟩ := hharm
      obtain ⟨-, rfl⟩ : p ∈ s.queue.sending ∧ { s with queue := s.queue.send p } = s' := by
        simpa [step, State.queueStep, UploadQueueProcessor.step] using hs
      refine not_unstuck_of_stuck ⟨hstopping, hdead, ?_, h.still hdead, ?_, h.waits.2⟩
      · simp [UploadQueueProcessor.State.send, hopen]
      · -- an open queue is not completed
        show s.queue.completed = false
        by_contra hc
        exact absurd (h.completed (by simpa using hc)).1 (by simp [hopen])
    | _ => exact absurd trivial hharm
  | cancel =>
    simp only [Harmless, Classical.not_imp] at hharm
    obtain ⟨hstopping, hleft⟩ := hharm
    cases hs
    exact not_unstuck_of_stuck
      ⟨hstopping, Or.inr rfl, hleft, still_cancel s, hincomplete hleft, h.waits.2⟩
  | stop =>
    simp only [Harmless, Classical.not_imp] at hharm
    obtain ⟨hdead, hleft⟩ := hharm
    obtain ⟨-, hs⟩ := Option.ite_none_right_eq_some.mp hs
    cases hs
    exact not_unstuck_of_stuck
      ⟨by simp [State.Stopping], hdead, hleft, h.still hdead, hincomplete hleft, by simp⟩
  | worker =>
    simp only [Harmless, Classical.not_imp] at hharm
    obtain ⟨hw, hloop, hleft⟩ := hharm
    have hskip : step s .worker = some { s with
        queue := { s.queue with declining := true }, worker := .coordinating } := by
      simp [step, State.workerStep, hw, hloop]
    cases hskip.symm.trans hs
    exact not_unstuck_of_waits ⟨Or.inl rfl, hleft, hincomplete hleft⟩
  | timer =>
    simp only [Harmless, Classical.not_imp] at hharm
    obtain ⟨hw, hstopped, hleft⟩ := hharm
    have hcancel : step s .timer = some { s.cancel with worker := .coordinating } := by
      simp [step, State.timerStep, hw, hstopped]
    cases hcancel.symm.trans hs
    exact not_unstuck_of_stuck
      ⟨by simp [State.Stopping], Or.inr rfl, hleft, still_cancel s, hincomplete hleft, by simp⟩

/-- **The exact condition.**  The shutdown cannot get stuck in a run iff every step of it is
    harmless. -/
theorem unstuck_iff (steps : List Step) :
    EachState step Unstuck {} steps ↔ EachStep step (fun s a _ => Harmless s a) {} steps :=
  eachState_iff (fun _ _ _ h hharm hs => inv_step h hharm hs) (fun _ => unstuck_of_inv)
    (fun _ _ _ => not_unstuck_of_harm) inv_init

/-! ## An upload that outlasts the three seconds -/

/-- Two files are sent, and the first is being uploaded until the token is cancelled. -/
def slowUpload : List Step :=
  [.queue .start,
    .queue (.enqueue "first.png"), .queue (.track "first.png"), .queue (.send "first.png"),
    .queue (.enqueue "second.png"), .queue (.track "second.png"), .queue (.send "second.png"),
    .queue .top, .queue .upload, .stop, .worker, .worker, .worker, .worker, .timer]

/-- The second file stays in the queue, and no loop is left. -/
def leftBehind : State where
  queue :=
    { queuedFiles := ["second.png", "first.png"]
      buffer := ["second.png"]
      declining := true
      loop := .uploading "first.png"
      accepted := ["second.png", "first.png"]
      uploads := ["first.png"] }
  cancelled := true
  worker := .coordinating

theorem not_unstuck_slowUpload : ¬ EachState step Unstuck {} slowUpload := by
  intro h
  have hrun : run step {} slowUpload = some leftBehind := by decide
  have hstuck : Stuck leftBehind := by
    constructor
    · simp [State.Stopping, leftBehind]
    · exact Or.inr rfl
    · simp [leftBehind]
    · simp [leftBehind]
    · rfl
    · simp [leftBehind]
  exact not_unstuck_of_stuck hstuck (h.last hrun)

end Service.ShutdownCoordinator
