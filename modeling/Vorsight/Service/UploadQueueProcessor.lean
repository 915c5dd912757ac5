/-
  THE UPLOAD QUEUE (Vorsight.Service/Storage/UploadQueueProcessor.cs).

  Callers enqueue paths, one loop takes them out and uploads them, and `_queuedFiles` keeps a path
  from being enqueued twice.  The buffer between them is a `BufferBlock`: first in, first out; an
  item handed out goes to the oldest `ReceiveAsync` that waits; after `Complete()` a send is
  refused, and once the buffer is empty the block is completed.  Nothing is cancelled here.

  1. **The claim of the design** (`Safe`): a tracked path is in the buffer, in the hands of the
     loop or being sent, every accepted path is uploaded once, and the loop never gets stuck.

  2. **Where it fails.**  A receive that has timed out still waits, and swallows the next item; a
     send refused after `Complete()` leaves its path tracked.  `Harmless` excludes these two steps.

  3. **The crux (`Inv`)** — the tracked paths are, each once, those being sent, buffered and held.
     `safe_iff`: the design's claim holds throughout a run exactly when every step is harmless.
-/
import Mathlib.Data.List.Perm.Basic
import Vorsight.Library.Run

namespace Service.UploadQueueProcessor

open Runs

/-! ## The state -/

/-- Where `ProcessUploadsAsync` is. -/
inductive Loop
  | notStarted
  /-- before the loop's condition -/
  | atTop
  /-- waits for its receive or the timeout -/
  | receiving
  | received (filePath : String)
  /-- in `UploadFileAsync` -/
  | uploading (filePath : String)
  /-- after `UploadFileAsync`, before the path is removed from tracking -/
  | settling (filePath : String) (uploaded : Bool)
  | stopped
deriving DecidableEq

/-- The path the loop processes. -/
def Loop.held : Loop → List String
  | .received p | .uploading p | .settling p _ => [p]
  | _ => []

/-- The path the loop has taken out and not yet uploaded. -/
def Loop.unsent : Loop → List String
  | .received p => [p]
  | _ => []

structure State where
  /-- `_queuedFiles` -/
  queuedFiles : List String := []
  /-- what `_uploadQueue` stores -/
  buffer : List String := []
  /-- receives that have timed out and still wait, all older than the loop's own -/
  abandoned : Nat := 0
  /-- `Complete()` was called -/
  declining : Bool := false
  /-- `_uploadQueue.Completion.IsCompleted` -/
  completed : Bool := false
  loop : Loop := .notStarted
  /-- `EnqueueFileAsync` calls past the check for completion -/
  checked : List String := []
  /-- `EnqueueFileAsync` calls that have added their path and not sent it yet -/
  sending : List String := []
  /-- paths added to `_queuedFiles` so far -/
  accepted : List String := []
  /-- calls of `UploadFileAsync` so far -/
  uploads : List String := []
deriving DecidableEq

/-! ## The steps -/

inductive Step
  /-- `StartAsync` -/
  | start
  /-- `EnqueueFileAsync` up to the lock -/
  | enqueue (filePath : String)
  /-- the lock -/
  | track (filePath : String)
  /-- `SendAsync` -/
  | send (filePath : String)
  /-- the loop's condition and `ReceiveAsync` -/
  | top
  /-- the block hands an item to the oldest receive -/
  | offer
  /-- `Task.Delay` ends first -/
  | timeout
  /-- `UploadFileAsync` is called -/
  | upload
  /-- `UploadFileAsync` and what follows it end, by returning or by throwing -/
  | uploadEnd (uploaded : Bool)
  /-- the path is removed from tracking -/
  | settle
  /-- `CompleteAsync` -/
  | complete
  /-- the block completes, and the receives that wait fail -/
  | completion
deriving DecidableEq

namespace State

/-- `EnqueueFileAsync` throws once the queue is completed. -/
def enqueue (s : State) (p : String) : State :=
  if s.completed then s else { s with checked := p :: s.checked }

/-- `if (!_queuedFiles.Add(filePath)) return`. -/
def track (s : State) (p : String) : State :=
  if p ∈ s.queuedFiles then { s with checked := s.checked.erase p }
  else { s with
    checked := s.checked.erase p
    queuedFiles := p :: s.queuedFiles
    sending := p :: s.sending
    accepted := p :: s.accepted }

/-- `_uploadQueue.SendAsync(filePath)`; the result is not looked at. -/
def send (s : State) (p : String) : State :=
  { s with
    sending := s.sending.erase p
    buffer := if s.declining then s.buffer else s.buffer ++ [p] }

/-- `while (!_uploadQueue.Completion.IsCompleted)` and the receive: an item that is there is taken
    at once. -/
def top (s : State) : State :=
  if s.completed then { s with loop := .stopped }
  else match s.buffer with
    | p :: rest => { s with buffer := rest, loop := .received p }
    | [] => { s with loop := .receiving }

/-- The head of the buffer goes to the oldest receive that waits, if any waits. -/
def offer (s : State) : Option State :=
  match s.buffer with
  | p :: rest =>
    if 0 < s.abandoned then some { s with buffer := rest, abandoned := s.abandoned - 1 }
    else if s.loop = .receiving then some { s with buffer := rest, loop := .received p }
    else none
  | [] => none

/-- A completed block fails the loop's receive, and the loop ends; the abandoned ones fail
    unseen. -/
def completion (s : State) : Option State :=
  if s.declining ∧ s.buffer = [] ∧ ¬ s.completed then
    some { s with
      completed := true
      abandoned := 0
      loop := if s.loop = .receiving then .stopped else s.loop }
  else none

end State

def step (s : State) : Step → Option State
  | .start => if s.loop = .notStarted then some { s with loop := .atTop } else none
  | .enqueue p => some (s.enqueue p)
  | .track p => if p ∈ s.checked then some (s.track p) else none
  | .send p => if p ∈ s.sending then some (s.send p) else none
  | .top => if s.loop = .atTop then some s.top else none
  | .offer => s.offer
  | .timeout =>
      if s.loop = .receiving then some { s with loop := .atTop, abandoned := s.abandoned + 1 }
      else none
  | .upload => match s.loop with
      | .received p => some { s with loop := .uploading p, uploads := p :: s.uploads }
      | _ => none
  | .uploadEnd uploaded => match s.loop with
      | .uploading p => some { s with loop := .settling p uploaded }
      | _ => none
  | .settle => match s.loop with
      -- all three ends of the `try` remove the path
      | .settling p _ => some { s with loop := .atTop, queuedFiles := s.queuedFiles.erase p }
      | _ => none
  | .complete => some { s with declining := true }
  | .completion => s.completion

/-! ## What a step does -/

/-- The kinds of steps, with what each finds. -/
inductive Effect (s : State) : Step → State → Prop
  | started (hl : s.loop = .notStarted) : Effect s .start { s with loop := .atTop }
  | refused {p : String} (hc : s.completed = true) : Effect s (.enqueue p) s
  | checked {p : String} (hc : s.completed = false) :
      Effect s (.enqueue p) { s with checked := p :: s.checked }
  | known {p : String} (hp : p ∈ s.checked) (hqueued : p ∈ s.queuedFiles) :
      Effect s (.track p) { s with checked := s.checked.erase p }
  | tracked {p : String} (hp : p ∈ s.checked) (hqueued : p ∉ s.queuedFiles) :
      Effect s (.track p) { s with
        checked := s.checked.erase p
        queuedFiles := p :: s.queuedFiles
        sending := p :: s.sending
        accepted := p :: s.accepted }
  | dropped {p : String} (hp : p ∈ s.sending) (hd : s.declining = true) :
      Effect s (.send p) { s with sending := s.sending.erase p }
  | sent {p : String} (hp : p ∈ s.sending) (hd : s.declining = false) :
      Effect s (.send p) { s with sending := s.sending.erase p, buffer := s.buffer ++ [p] }
  | ended (hl : s.loop = .atTop) (hc : s.completed = true) :
      Effect s .top { s with loop := .stopped }
  | took {p : String} {rest : List String} (hl : s.loop = .atTop) (hc : s.completed = false)
      (hbuf : s.buffer = p :: rest) :
      Effect s .top { s with buffer := rest, loop := .received p }
  | waits (hl : s.loop = .atTop) (hc : s.completed = false) (hbuf : s.buffer = []) :
      Effect s .top { s with loop := .receiving }
  /-- to a receive that is not waited for any more -/
  | lost {p : String} {rest : List String} (ha : 0 < s.abandoned) (hbuf : s.buffer = p :: rest) :
      Effect s .offer { s with buffer := rest, abandoned := s.abandoned - 1 }
  | handed {p : String} {rest : List String} (ha : s.abandoned = 0) (hl : s.loop = .receiving)
      (hbuf : s.buffer = p :: rest) :
      Effect s .offer { s with buffer := rest, loop := .received p }
  | timedOut (hl : s.loop = .receiving) :
      Effect s .timeout { s with loop := .atTop, abandoned := s.abandoned + 1 }
  | uploads {p : String} (hl : s.loop = .received p) :
      Effect s .upload { s with loop := .uploading p, uploads := p :: s.uploads }
  | uploaded {p : String} {uploaded : Bool} (hl : s.loop = .uploading p) :
      Effect s (.uploadEnd uploaded) { s with loop := .settling p uploaded }
  | settled {p : String} {uploaded : Bool} (hl : s.loop = .settling p uploaded) :
      Effect s .settle { s with loop := .atTop, queuedFiles := s.queuedFiles.erase p }
  | declines : Effect s .complete { s with declining := true }
  | completes (hd : s.declining = true) (hbuf : s.buffer = []) (hc : s.completed = false) :
      Effect s .completion { s with
        completed := true
        abandoned := 0
        loop := if s.loop = .receiving then .stopped else s.loop }

/-- **What a step can do.** -/
theorem step_cases {s s' : State} {a : Step} (hs : step s a = some s') : Effect s a s' := by
  cases a with
  | start =>
    obtain ⟨hl, hs⟩ := Option.ite_none_right_eq_some.mp hs
    cases hs
    exact .started hl
  | enqueue p =>
    cases hs
    unfold State.enqueue
    split
    · rename_i hc
      exact .refused hc
    · rename_i hc
      exact .checked (by simpa using hc)
  | track p =>
    obtain ⟨hp, hs⟩ := Option.ite_none_right_eq_some.mp hs
    cases hs
    unfold State.track
    split
    · rename_i hqueued
      exact .known hp hqueued
    · rename_i hqueued
      exact .tracked hp hqueued
  | send p =>
    obtain ⟨hp, hs⟩ := Option.ite_none_right_eq_some.mp hs
    cases hs
    unfold State.send
    split
    · rename_i hd
      exact .dropped hp hd
    · rename_i hd
      exact .sent hp (by simpa using hd)
  | top =>
    obtain ⟨hl, hs⟩ := Option.ite_none_right_eq_some.mp hs
    cases hs
    unfold State.top
    split
    · rename_i hc
      exact .ended hl hc
    · rename_i hc
      have hc : s.completed = false := by simpa using hc
      split
      · rename_i p rest hbuf
        exact .took hl hc hbuf
      · rename_i hbuf
        exact .waits hl hc hbuf
  | offer =>
    simp only [step, State.offer] at hs
    split at hs
    · rename_i p rest hbuf
      split at hs
      · rename_i ha
        cases hs
        exact .lost ha hbuf
      · rename_i ha
        obtain ⟨hl, hs⟩ := Option.ite_none_right_eq_some.mp hs
        cases hs
        exact .handed (by omega) hl hbuf
    · cases hs
  | timeout =>
    obtain ⟨hl, hs⟩ := Option.ite_none_right_eq_some.mp hs
    cases hs
    exact .timedOut hl
  | upload =>
    simp only [step] at hs
    split at hs
    · rename_i p hl
      cases hs
      exact .uploads hl
    · cases hs
  | uploadEnd uploaded =>
    simp only [step] at hs
    split at hs
    · rename_i p hl
      cases hs
      exact .uploaded hl
    · cases hs
  | settle =>
    simp only [step] at hs
    split at hs
    · rename_i p uploaded hl
      cases hs
      exact .settled hl
    · cases hs
  | complete =>
    cases hs
    exact .declines
  | completion =>
    obtain ⟨⟨hd, hbuf, hc⟩, hs⟩ := Option.ite_none_right_eq_some.mp hs
    cases hs
    exact .completes hd hbuf (by simpa using hc)

/-! ## The design's claim -/

/-- Sent and not yet uploaded. -/
def State.sent (s : State) : List String := s.buffer ++ s.loop.unsent

/-- The steps of the loop, with those the block makes for it. -/
def Step.ofLoop : Step → Bool
  | .start | .top | .offer | .timeout | .upload | .uploadEnd _ | .settle => true
  | _ => false

/-- A bound on the loop's steps until nothing sent is left. -/
def State.remaining (s : State) : Nat :=
  7 * s.sent.length + match s.loop with
    | .notStarted => 5
    | .uploading _ => 4
    | .settling _ _ => 3
    | .receiving => 3
    | .atTop => 2
    | .received _ | .stopped => 0

structure Safe (s : State) : Prop where
  /-- a tracked path is in the buffer, in the loop's hands, or being sent -/
  tracked : ∀ p ∈ s.queuedFiles, p ∈ s.buffer ∨ p ∈ s.loop.held ∨ p ∈ s.sending
  /-- an accepted path has reached `UploadFileAsync` once, or is on its way there -/
  reaches : s.accepted.Perm (s.uploads ++ s.sending ++ s.sent)
  /-- the loop is not stuck before a path that was sent -/
  enabled : s.sent ≠ [] → ∃ a, a.ofLoop ∧ (step s a).isSome
  /-- and each of its steps takes it nearer -/
  nearer : s.sent ≠ [] → ∀ a s', a.ofLoop → step s a = some s' → s'.remaining < s.remaining

/-- No item is handed to an abandoned receive, and none is sent to a block that declines. -/
def Harmless (s : State) : Step → Prop
  | .offer => s.abandoned = 0
  | .send _ => s.declining = false
  | _ => True

/-! ## The invariant -/

structure Inv (s : State) : Prop where
  nodup : s.queuedFiles.Nodup
  tracked : s.queuedFiles.Perm (s.sending ++ s.buffer ++ s.loop.held)
  reaches : s.accepted.Perm (s.uploads ++ s.sending ++ s.sent)
  completed : s.completed → s.declining ∧ s.buffer = []
  stopped : s.loop = .stopped → s.completed

theorem inv_init : Inv {} := by
  constructor <;> simp [Loop.held, State.sent, Loop.unsent]

theorem inv_track {s : State} (h : Inv s) {p : String} (hp : p ∉ s.queuedFiles) :
    Inv { s with
      checked := s.checked.erase p
      queuedFiles := p :: s.queuedFiles
      sending := p :: s.sending
      accepted := p :: s.accepted } := by
  refine ⟨List.nodup_cons.mpr ⟨hp, h.nodup⟩, h.tracked.cons p, ?_, h.completed, h.stopped⟩
  refine (h.reaches.cons p).trans ?_
  simpa [State.sent] using List.perm_middle.symm

/-- A send that is not refused moves the path into the buffer. -/
theorem inv_send {s : State} (h : Inv s) {p : String} (hp : p ∈ s.sending)
    (hd : s.declining = false) :
    Inv { s with sending := s.sending.erase p, buffer := s.buffer ++ [p] } := by
  have hmove : (s.sending ++ s.buffer).Perm (s.sending.erase p ++ (s.buffer ++ [p])) :=
    ((List.perm_cons_erase hp).append_right _).trans
      (List.perm_middle.symm.trans ((List.perm_append_singleton p _).symm.append_left _))
  refine ⟨h.nodup, h.tracked.trans (hmove.append_right _), ?_, fun hc => ?_, h.stopped⟩
  · refine h.reaches.trans ?_
    simp only [State.sent, List.append_assoc]
    exact .append_left _ (by simpa [List.append_assoc] using hmove.append_right s.loop.unsent)
  · exact absurd (h.completed hc).1 (by simp [hd])

/-- The loop takes the head of the buffer. -/
theorem inv_take {s : State} (h : Inv s) {p : String} {rest : List String}
    (hbuf : s.buffer = p :: rest) (hfree : s.loop.held = []) :
    Inv { s with buffer := rest, loop := .received p } := by
  have hunsent : s.loop.unsent = [] := by
    cases hl : s.loop <;> simp_all [Loop.held, Loop.unsent]
  have hmove : (p :: rest).Perm (rest ++ [p]) := (List.perm_append_singleton p rest).symm
  refine ⟨h.nodup, h.tracked.trans ?_, h.reaches.trans ?_, fun hc => ?_, by simp⟩
  · rw [hbuf, hfree, List.append_nil, List.append_assoc]
    exact hmove.append_left _
  · rw [State.sent, hbuf, hunsent, List.append_nil]
    exact hmove.append_left _
  · exact absurd (h.completed hc).2 (by simp [hbuf])

/-- The loop goes on with what it holds. -/
theorem Inv.moved {s : State} (h : Inv s) {loop : Loop} {abandoned : Nat}
    (hheld : loop.held = s.loop.held) (hunsent : loop.unsent = s.loop.unsent)
    (hstopped : loop = .stopped → s.completed) : Inv { s with loop, abandoned } where
  nodup := h.nodup
  tracked := by simpa only [hheld] using h.tracked
  reaches := by simpa only [State.sent, hunsent] using h.reaches
  completed := h.completed
  stopped := hstopped

/-- The block completes, and a loop that waits for it ends. -/
theorem inv_completion {s : State} (h : Inv s) (hd : s.declining = true) (hbuf : s.buffer = []) :
    Inv { s with
      completed := true
      abandoned := 0
      loop := if s.loop = .receiving then .stopped else s.loop } := by
  have hheld : (if s.loop = .receiving then .stopped else s.loop).held = s.loop.held := by
    split
    · rename_i hl
      rw [hl]; rfl
    · rfl
  have hunsent : (if s.loop = .receiving then .stopped else s.loop).unsent = s.loop.unsent := by
    split
    · rename_i hl
      rw [hl]; rfl
    · rfl
  exact ⟨h.nodup, by simpa only [hheld] using h.tracked,
    by simpa only [State.sent, hunsent] using h.reaches, fun _ => ⟨hd, hbuf⟩, fun _ => rfl⟩

theorem inv_upload {s : State} (h : Inv s) {p : String} (hl : s.loop = .received p) :
    Inv { s with loop := .uploading p, uploads := p :: s.uploads } := by
  refine ⟨h.nodup, ?_, ?_, h.completed, by simp⟩
  · simpa [hl, Loop.held] using h.tracked
  · refine h.reaches.trans ?_
    rw [State.sent, hl, ← List.append_assoc]
    simpa [State.sent, Loop.unsent] using
      List.perm_append_singleton p (s.uploads ++ s.sending ++ s.buffer)

/-- An uploaded path that is no longer tracked can be enqueued again. -/
theorem inv_settle {s : State} (h : Inv s) {p : String} {uploaded : Bool}
    (hl : s.loop = .settling p uploaded) :
    Inv { s with loop := .atTop, queuedFiles := s.queuedFiles.erase p } := by
  have htracked := h.tracked
  rw [hl] at htracked
  refine ⟨h.nodup.erase p, ?_, ?_, h.completed, by simp⟩
  · have herase := (htracked.trans (List.perm_append_singleton p _)).erase p
    simpa [Loop.held] using herase
  · simpa [State.sent, hl, Loop.unsent] using h.reaches

/-- **The crux.**  Every harmless step keeps the invariant. -/
theorem inv_step {s s' : State} {a : Step} (h : Inv s) (hg : Harmless s a)
    (hs : step s a = some s') : Inv s' := by
  cases step_cases hs with
  | started hl => exact h.moved (by simp [hl, Loop.held]) (by simp [hl, Loop.unsent]) (by simp)
  | refused _ => exact h
  | checked _ => exact ⟨h.nodup, h.tracked, h.reaches, h.completed, h.stopped⟩
  | known _ _ => exact ⟨h.nodup, h.tracked, h.reaches, h.completed, h.stopped⟩
  | tracked _ hqueued => exact inv_track h hqueued
  | dropped _ hd => exact absurd hd (by simpa [Harmless] using hg)
  | sent hp hd => exact inv_send h hp hd
  | ended hl hc =>
    exact h.moved (by simp [hl, Loop.held]) (by simp [hl, Loop.unsent]) fun _ => hc
  | took hl _ hbuf => exact inv_take h hbuf (by rw [hl]; rfl)
  | waits hl _ _ => exact h.moved (by simp [hl, Loop.held]) (by simp [hl, Loop.unsent]) (by simp)
  | lost ha _ =>
    have hzero : s.abandoned = 0 := hg
    omega
  | handed _ hl hbuf => exact inv_take h hbuf (by rw [hl]; rfl)
  | timedOut hl => exact h.moved (by simp [hl, Loop.held]) (by simp [hl, Loop.unsent]) (by simp)
  | uploads hl => exact inv_upload h hl
  | uploaded hl => exact h.moved (by simp [hl, Loop.held]) (by simp [hl, Loop.unsent]) (by simp)
  | settled hl => exact inv_settle h hl
  | declines =>
    exact ⟨h.nodup, h.tracked, h.reaches, fun hc => ⟨rfl, (h.completed hc).2⟩, h.stopped⟩
  | completes hd hbuf _ => exact inv_completion h hd hbuf

/-! ## What the invariant gives -/

theorem enabled_of_inv {s : State} (h : Inv s) (hsent : s.sent ≠ []) :
    ∃ a, Step.ofLoop a ∧ (step s a).isSome := by
  cases hl : s.loop with
  | notStarted => exact ⟨.start, rfl, by simp [step, hl]⟩
  | atTop => exact ⟨.top, rfl, by simp [step, hl]⟩
  | receiving => exact ⟨.timeout, rfl, by simp [step, hl]⟩
  | received p => exact ⟨.upload, rfl, by simp [step, hl]⟩
  | uploading p => exact ⟨.uploadEnd true, rfl, by simp [step, hl]⟩
  | settling p uploaded => exact ⟨.settle, rfl, by simp [step, hl]⟩
  | stopped =>
    -- a stopped loop has left nothing behind
    have hbuf := (h.completed (h.stopped hl)).2
    exact absurd (by simp [State.sent, hbuf, hl, Loop.unsent]) hsent

/-- Each step of the loop, also one that loses an item, brings the next upload nearer. -/
theorem remaining_lt {s s' : State} {a : Step} (hc : s.completed → s.buffer = [])
    (hsent : s.sent ≠ []) (ha : a.ofLoop) (hs : step s a = some s') :
    s'.remaining < s.remaining := by
  cases step_cases hs with
  | started hl => simp [State.remaining, State.sent, hl, Loop.unsent]
  | ended hl hcompleted =>
    -- what was sent and not uploaded would be in the buffer
    exact absurd (hc hcompleted) (by simpa [State.sent, hl, Loop.unsent] using hsent)
  | took hl _ hbuf => simp [State.remaining, State.sent, hl, hbuf, Loop.unsent]
  | waits hl _ hbuf => exact absurd hbuf (by simpa [State.sent, hl, Loop.unsent] using hsent)
  | lost _ hbuf => simp [State.remaining, State.sent, hbuf]
  | handed _ hl hbuf => simp [State.remaining, State.sent, hbuf, hl, Loop.unsent]
  | timedOut hl => simp [State.remaining, State.sent, hl, Loop.unsent]
  | uploads hl =>
    simp [State.remaining, State.sent, hl, Loop.unsent]
    omega
  | uploaded hl => simp [State.remaining, State.sent, hl, Loop.unsent]
  | settled hl => simp [State.remaining, State.sent, hl, Loop.unsent]
  | _ => cases ha

theorem safe_of_inv {s : State} (h : Inv s) : Safe s where
  tracked p hp := by
    have hmem := h.tracked.subset hp
    simp only [List.mem_append] at hmem
    rcases hmem with (hmem | hmem) | hmem
    · exact .inr (.inr hmem)
    · exact .inl hmem
    · exact .inr (.inl hmem)
  reaches := h.reaches
  enabled := enabled_of_inv h
  nearer hsent _ _ := remaining_lt (fun hc => (h.completed hc).2) hsent

/-- The item an abandoned receive swallows stays tracked, and is nowhere. -/
theorem not_safe_lost {s : State} (h : Inv s) {p : String} {rest : List String}
    (hbuf : s.buffer = p :: rest) :
    ¬ Safe { s with buffer := rest, abandoned := s.abandoned - 1 } := by
  intro hsafe
  have hnodup : (s.sending ++ p :: rest ++ s.loop.held).Nodup :=
    hbuf ▸ h.tracked.nodup_iff.mp h.nodup
  have hp : p ∈ s.queuedFiles := h.tracked.mem_iff.mpr (by simp [hbuf])
  -- the path was tracked once, in the buffer, so it is nowhere else
  have hout : p ∉ s.sending ++ rest ++ s.loop.held := by
    have hmid : (p :: (s.sending ++ rest ++ s.loop.held)).Nodup := by
      refine List.Perm.nodup ?_ hnodup
      simp [List.perm_middle]
    exact (List.nodup_cons.mp hmid).1
  simp only [List.mem_append, not_or] at hout
  rcases hsafe.tracked p hp with hmem | hmem | hmem
  · exact hout.1.2 hmem
  · exact hout.2 hmem
  · exact hout.1.1 hmem

/-- The path of a refused send stays tracked, and is nowhere. -/
theorem not_safe_dropped {s : State} (h : Inv s) {p : String} (hp : p ∈ s.sending) :
    ¬ Safe { s with sending := s.sending.erase p } := by
  intro hsafe
  have hnodup : (s.sending ++ (s.buffer ++ s.loop.held)).Nodup :=
    List.append_assoc .. ▸ h.tracked.nodup_iff.mp h.nodup
  have hqueued : p ∈ s.queuedFiles := h.tracked.mem_iff.mpr (by simp [hp])
  obtain ⟨hsending, -, hdisj⟩ := List.nodup_append.mp hnodup
  -- it was tracked once, in the send, so it is neither in the buffer nor in the loop
  rcases hsafe.tracked p hqueued with hmem | hmem | hmem
  · exact hdisj p hp p (List.mem_append_left _ hmem) rfl
  · exact hdisj p hp p (List.mem_append_right _ hmem) rfl
  · exact hsending.not_mem_erase hmem

theorem not_safe_of_not_harmless {s s' : State} {a : Step} (h : Inv s) (hg : ¬ Harmless s a)
    (hs : step s a = some s') : ¬ Safe s' := by
  cases step_cases hs with
  | lost _ hbuf => exact not_safe_lost h hbuf
  | handed ha _ _ => exact absurd ha hg
  | dropped hp _ => exact not_safe_dropped h hp
  | sent _ hd => exact absurd hd hg
  | _ => exact absurd trivial hg

/-- **No file is lost, exactly while steps are harmless.** -/
theorem safe_iff (steps : List Step) :
    EachState step Safe {} steps ↔ EachStep step (fun s a _ => Harmless s a) {} steps :=
  eachState_iff (fun _ _ _ => inv_step) (fun _ => safe_of_inv)
    (fun _ _ _ => not_safe_of_not_harmless) inv_init

/-! ## Files that were sent are uploaded -/

/-- What the loop's steps cannot do: send, or complete the block. -/
structure Shrinks (s s' : State) : Prop where
  completed : s'.completed = s.completed
  sending : s'.sending = s.sending
  buffer : s.buffer = [] → s'.buffer = []
  sent : s.sent = [] → s'.sent = []

theorem shrinks_of_loop {s s' : State} {a : Step} (ha : a.ofLoop) (hs : step s a = some s') :
    Shrinks s s' := by
  cases step_cases hs with
  | started hl => constructor <;> simp [State.sent, hl, Loop.unsent]
  | ended hl _ => constructor <;> simp [State.sent, hl, Loop.unsent]
  | took hl _ hbuf => constructor <;> simp [hbuf, State.sent]
  | waits hl _ _ => constructor <;> simp [State.sent, hl, Loop.unsent]
  | lost _ hbuf => constructor <;> simp [hbuf, State.sent]
  | handed _ _ hbuf => constructor <;> simp [hbuf, State.sent]
  | timedOut hl => constructor <;> simp [State.sent, hl, Loop.unsent]
  | uploads hl => constructor <;> simp [State.sent, hl, Loop.unsent]
  | uploaded hl => constructor <;> simp [State.sent, hl, Loop.unsent]
  | settled hl => constructor <;> simp [State.sent, hl, Loop.unsent]
  | _ => cases ha

theorem shrinks_of_loops :
    ∀ {steps : List Step} {s s' : State}, (∀ a ∈ steps, a.ofLoop) → run step s steps = some s' →
      Shrinks s s'
  | [], _, _, _, hrun => Option.some.inj hrun ▸ ⟨rfl, rfl, id, id⟩
  | a :: steps, s, s', ha, hrun => by
    obtain ⟨m, hm, hrun⟩ := run_cons_eq_some.mp hrun
    have hfirst := shrinks_of_loop (ha a List.mem_cons_self) hm
    have hrest := shrinks_of_loops (fun b hb => ha b (List.mem_cons_of_mem a hb)) hrun
    exact ⟨hrest.completed.trans hfirst.completed, hrest.sending.trans hfirst.sending,
      fun h => hrest.buffer (hfirst.buffer h), fun h => hrest.sent (hfirst.sent h)⟩

/-- However the loop's steps fall out, after `remaining` of them nothing that was sent is left. -/
theorem sent_eq_nil_of_loops :
    ∀ {steps : List Step} {s s' : State}, (s.completed → s.buffer = []) →
      (∀ a ∈ steps, a.ofLoop) → run step s steps = some s' → s.remaining ≤ steps.length →
      s'.sent = []
  | [], s, _, _, _, hrun, hle => by
    obtain rfl := Option.some.inj hrun
    refine List.eq_nil_of_length_eq_zero ?_
    simp only [State.remaining, List.length_nil] at hle
    omega
  | a :: steps, s, s', hc, ha, hrun, hle => by
    obtain ⟨m, hm, hrun⟩ := run_cons_eq_some.mp hrun
    have hloop : a.ofLoop := ha a List.mem_cons_self
    have hloops : ∀ b ∈ steps, b.ofLoop := fun b hb => ha b (List.mem_cons_of_mem a hb)
    have hm' := shrinks_of_loop hloop hm
    by_cases hnil : s.sent = []
    · exact (shrinks_of_loops hloops hrun).sent (hm'.sent hnil)
    · have hlt := remaining_lt hc hnil hloop hm
      refine sent_eq_nil_of_loops (fun h => hm'.buffer (hc (hm'.completed ▸ h))) hloops hrun ?_
      simp only [List.length_cons] at hle
      omega

/-- **Every accepted file is uploaded once.**  When no send is in progress and the loop goes on
    with harmless steps for as long as `remaining` says, the accepted files are those uploaded. -/
theorem accepted_perm_uploads {s s' : State} (h : Inv s) (hsending : s.sending = [])
    {loops : List Step} (hloops : ∀ a ∈ loops, a.ofLoop)
    (hg : EachStep step (fun s a _ => Harmless s a) s loops) (hrun : run step s loops = some s')
    (hle : s.remaining ≤ loops.length) : s'.accepted.Perm s'.uploads := by
  have h' : Inv s' := inv_of_guard (fun _ _ _ => inv_step) h hg hrun
  have hsent := sent_eq_nil_of_loops (fun hc => (h.completed hc).2) hloops hrun hle
  have hreaches := h'.reaches
  rwa [(shrinks_of_loops hloops hrun).sending, hsending, hsent, List.append_nil,
    List.append_nil] at hreaches

/-! ## A file that arrives after an idle timeout -/

/-- The loop waits once in vain, then `capture.png` is enqueued and handed out. -/
def idleTimeout : List Step :=
  [.start, .top, .timeout, .top, .enqueue "capture.png", .track "capture.png",
    .send "capture.png", .offer]

theorem not_safe_idleTimeout : ¬ EachState step Safe {} idleTimeout := by
  intro h
  have hlost := (h.last (rfl : run step {} idleTimeout = some _)).tracked "capture.png"
  exact absurd (hlost (by decide)) (by decide)

end Service.UploadQueueProcessor
