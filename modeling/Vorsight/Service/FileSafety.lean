/-
  LOCAL FILES AND THEIR UPLOADS (Vorsight.Service/Storage/GoogleDriveService.cs, and its callers
  ScreenshotHandler, UploadQueueProcessor and SessionSummaryManager).

  Any number of screenshot messages, the queue loop and session summaries write, upload and delete
  files, one step at a time; `BeginShutdown` and the cancellation of the queue's token come at any
  moment.  Windows keeps a file from being written or deleted while an upload has it open.

  1. **The claim of the design** (`Kept`): a file that is deleted or overwritten has been uploaded
     with the bytes it had.

  2. **Where it fails.**  During the shutdown `UploadFileAsync` answers the empty id instead of
     throwing, and the queue and the session summary take that for success; a capture of the same
     second and title overwrites the file that is there; the session's lock file is never uploaded.
     `Harmless p` excludes these, for steps that touch `p`.

  3. **The crux (`Sound`)** — a file that is being sent has the bytes that are sent, and a file
     whose upload was answered has been uploaded as it is.
-/
import Vorsight.Library.Run
import Vorsight.Service.ScreenshotHandler

namespace Service.FileSafety

open Codec Ipc Runs ScreenshotHandler Time

/-! ## The state -/

/-- What the session summary does with its lock file after an upload. -/
inductive LockStep
  /-- `SaveLockFileAsync`, at the start of a session -/
  | save (json : Bytes)
  /-- `File.Delete(_lockFilePath)`, at its end -/
  | remove
deriving DecidableEq

/-- Who has called `UploadFileAsync`. -/
inductive Caller
  | screenshotHandler
  | uploadQueue
  | sessionSummary (next : LockStep)
deriving DecidableEq

/-- Where a caller is; `linked` is whether the queue's token cancels the upload. -/
inductive Phase
  /-- before its `File.WriteAll…Async` -/
  | writing (bytes : Bytes)
  /-- before the first look at `_isShuttingDown` -/
  | entering
  /-- before the second -/
  | linking
  /-- before the third -/
  | choosing (linked : Bool)
  /-- for the semaphore; `short` is with the timeout of two seconds -/
  | waiting (linked short : Bool)
  /-- in `InternalUploadFileAsync`, before the file is opened -/
  | uploading (linked retried : Bool)
  /-- with the file open -/
  | sending (linked retried : Bool) (bytes : Bytes)
  /-- `UploadFileAsync` has returned -/
  | answered (driveFileId : String)
  /-- before its `File.Delete` -/
  | deleting (driveFileId : String)
  /-- before the session summary's `LockStep` -/
  | locking
  | finished
deriving DecidableEq

structure Job where
  caller : Caller
  filePath : String
  phase : Phase
deriving DecidableEq

/-- The directories of screenshots and session logs, and `_lockFilePath`. -/
structure Paths where
  screenshotTemp : String
  sessionLog : String
  lockFile : String

structure State where
  /-- the bytes of each file -/
  disk : String → Option Bytes
  isShuttingDown : Bool := false
  /-- the queue's token -/
  cancelled : Bool := false
  /-- `_uploadSemaphore.CurrentCount` -/
  currentCount : Nat := 1
  lastHashPerMachine : Hashes := fun _ => none
  jobs : List Job := []
  /-- the calls of `UploadFileAsync` that have returned an id: the file, and the bytes uploaded -/
  uploaded : List (String × Bytes) := []

/-! ## The steps -/

/-- What a caller does next; `fail` is an exception, wherever it is. -/
inductive Move
  | write
  | enter
  | link
  | choose
  | acquire
  | giveUp
  | read
  | retry
  | complete (driveFileId : String)
  | settle
  | delete
  | lock
  | fail
deriving DecidableEq

/-- Where a caller goes when it is done with the file, or gives up. -/
def Caller.after : Caller → Phase
  | .sessionSummary _ => .locking
  | _ => .finished

/-- An upload has the file open, and shares it for reading only. -/
def State.locked (s : State) (filePath : String) : Bool :=
  s.jobs.any fun j => j.filePath = filePath && j.phase matches .sending ..

/-- The `finally` of `UploadFileAsync`: also a call that has not got the semaphore releases it. -/
def State.released (s : State) : State :=
  if s.currentCount = 0 then { s with currentCount := 1 } else s

/-- Write a file, or delete it. -/
def State.put (s : State) (filePath : String) (content : Option Bytes) : State :=
  { s with disk := Function.update s.disk filePath content }

/-- Whether the caller deletes the file, once it gets there. -/
def Caller.deletes (s : State) (filePath : String) : Caller → Bool
  | .screenshotHandler => true
  | .uploadQueue => !s.cancelled && (s.disk filePath).isSome
  | .sessionSummary _ => (s.disk filePath).isSome

/-- The `catch` of `UploadFileAsync`: during the shutdown an exception is an empty answer. -/
def State.caught (s : State) (j : Job) : State × Phase :=
  (s.released, if s.isShuttingDown then .answered "" else j.caller.after)

/-- One step of a caller: the state after it, and where the caller is then. -/
def State.move (paths : Paths) (s : State) (j : Job) : Move → Option (State × Phase)
  | .write => match j.phase with
      | .writing bytes =>
          if s.locked j.filePath then none else some (s.put j.filePath (some bytes), .entering)
      | _ => none
  | .enter => match j.phase with
      | .entering => some (s, if s.isShuttingDown then .answered "" else .linking)
      | _ => none
  | .link => match j.phase with
      | .linking => some (s, .choosing (!s.isShuttingDown))
      | _ => none
  | .choose => match j.phase with
      | .choosing linked => some (s, .waiting linked s.isShuttingDown)
      | _ => none
  | .acquire => match j.phase with
      | .waiting linked _ =>
          if s.currentCount = 0 then none
          else some ({ s with currentCount := s.currentCount - 1 }, .uploading linked false)
      | _ => none
  | .giveUp => match j.phase with
      | .waiting _ true => some (s.released, .answered "")
      | _ => none
  | .read => match j.phase with
      | .uploading linked retried =>
          (s.disk j.filePath).map fun bytes => (s, .sending linked retried bytes)
      | _ => none
  -- after a refused access token
  | .retry => match j.phase with
      | .uploading linked false | .sending linked false _ => some (s, .uploading linked true)
      | _ => none
  | .complete driveFileId => match j.phase with
      | .sending _ _ bytes => some ({ s.released with
          uploaded := if driveFileId = "" then s.uploaded
            else (j.filePath, bytes) :: s.uploaded }, .answered driveFileId)
      | _ => none
  -- the handler keeps the file of an empty answer, the others do not look
  | .settle => match j.phase, j.caller with
      | .answered driveFileId, .screenshotHandler =>
          some (s, if driveFileId = "" then .finished else .deleting driveFileId)
      | .answered driveFileId, _ => some (s, .deleting driveFileId)
      | _, _ => none
  | .delete => match j.phase with
      | .deleting _ =>
          if j.caller.deletes s j.filePath then
            if s.locked j.filePath then none else some (s.put j.filePath none, j.caller.after)
          else some (s, j.caller.after)
      | _ => none
  | .lock => match j.phase, j.caller with
      | .locking, .sessionSummary (.save json) =>
          if s.locked paths.lockFile then none
          else some (s.put paths.lockFile (some json), .finished)
      | .locking, .sessionSummary .remove =>
          if s.locked paths.lockFile then none else some (s.put paths.lockFile none, .finished)
      | _, _ => none
  | .fail => match j.phase with
      | .writing _ => some (s, j.caller.after)
      | .waiting linked _ =>
          if linked && s.cancelled && j.caller = .uploadQueue then some (s.caught j) else none
      | .uploading .. | .sending .. => some (s.caught j)
      | .answered _ | .deleting _ => some (s, j.caller.after)
      | .locking => some (s, .finished)
      | _ => none

inductive Step
  /-- `HandleScreenshotMessageAsync`, up to the write -/
  | screenshot (message : PipeMessage) (filterDuplicates : Bool) (machineId : String)
      (date time : Civil)
  /-- the queue's loop takes a file out -/
  | dequeue (filePath : String)
  /-- `UploadSummaryAsync`, up to the write -/
  | summary (sessionId : String) (startTime : Civil) (json : Bytes) (next : LockStep)
  /-- `SaveLockFileAsync` without an upload -/
  | saveLock (json : Bytes)
  | beginShutdown
  | cancel
  | job (i : Nat) (move : Move)

/-- `session-{SessionId}-{StartTime:yyyyMMddHHmmss}.json`. -/
def summaryPath (paths : Paths) (sessionId : String) (startTime : Civil) : String :=
  paths.sessionLog ++ "\\session-" ++ sessionId ++ "-" ++ startTime.secondText ++ ".json"

def step [PerceptualHashService] (paths : Paths) (s : State) : Step → Option State
  | .screenshot message filterDuplicates machineId date time =>
      let (file, lastHashPerMachine) := accept paths.screenshotTemp filterDuplicates machineId date
        time message s.lastHashPerMachine
      some { s with
        lastHashPerMachine
        jobs := s.jobs ++ (file.map fun (filePath, bytes) =>
          { caller := .screenshotHandler, filePath, phase := .writing bytes }).toList }
  | .dequeue filePath =>
      -- the loop is done with the file before
      if s.jobs.any fun j => j.caller = .uploadQueue && j.phase ≠ .finished then none
      else some { s with
        jobs := s.jobs ++ [{ caller := .uploadQueue, filePath, phase := .entering }] }
  | .summary sessionId startTime json next =>
      let filePath := summaryPath paths sessionId startTime
      some { s with
        jobs := s.jobs ++ [{ caller := .sessionSummary next, filePath, phase := .writing json }] }
  | .saveLock json =>
      if s.locked paths.lockFile then none else some (s.put paths.lockFile (some json))
  | .beginShutdown => some { s with isShuttingDown := true }
  | .cancel => some { s with cancelled := true }
  | .job i move => do
      let j ← s.jobs[i]?
      let (s', phase) ← s.move paths j move
      some { s' with jobs := s.jobs.set i { j with phase } }

/-! ## The design's claim -/

/-- A file that is no longer there with its bytes has been uploaded with them. -/
def Kept (p : String) (s s' : State) : Prop :=
  ∀ bytes, s.disk p = some bytes → s'.disk p ≠ some bytes → (p, bytes) ∈ s.uploaded

/-! ## The condition -/

def Phase.afterUpload : Phase → Bool
  | .answered _ | .deleting _ => true
  | _ => false

/-- The bytes are there already; or no file is, and nobody is about to delete one. -/
def MayWrite (s : State) (p : String) (bytes : Bytes) : Prop :=
  s.disk p = some bytes ∨
    s.disk p = none ∧ ∀ j ∈ s.jobs, j.filePath = p → j.phase.afterUpload = false

/-- A caller's step that writes `p` writes to a free name, and one that deletes `p` has the id of an
    upload; the lock file is only written where none is. -/
def HarmlessMove (paths : Paths) (p : String) (s : State) (j : Job) : Move → Prop
  | .write => j.filePath = p → ∀ bytes, j.phase = .writing bytes → MayWrite s p bytes
  | .delete => j.filePath = p → j.phase = .deleting "" → j.caller.deletes s p = false
  | .lock => paths.lockFile = p → ∀ next, j.caller = .sessionSummary next →
      match next with
      | .save json => MayWrite s p json
      | .remove => s.disk p = none
  | _ => True

def Harmless (paths : Paths) (p : String) (s : State) : Step → Prop
  | .job i move => ∀ j ∈ s.jobs[i]?, HarmlessMove paths p s j move
  | .saveLock json => paths.lockFile = p → MayWrite s p json
  | _ => True

/-! ## What a caller's step does -/

/-- The id `UploadFileAsync` has answered, while the caller works with it. -/
def Phase.driveFileId : Phase → String
  | .answered driveFileId | .deleting driveFileId => driveFileId
  | _ => ""

/-- The caller neither writes nor sends the file, and is not about to delete it. -/
def Phase.plain : Phase → Bool
  | .writing _ | .sending .. | .deleting _ => false
  | .answered driveFileId => driveFileId = ""
  | _ => true

theorem plain_after (c : Caller) : c.after.plain = true := by
  cases c <;> rfl

theorem released_disk (s : State) : s.released.disk = s.disk := by
  unfold State.released
  split <;> rfl

theorem released_uploaded (s : State) : s.released.uploaded = s.uploaded := by
  unfold State.released
  split <;> rfl

theorem released_cancelled (s : State) : s.released.cancelled = s.cancelled := by
  unfold State.released
  split <;> rfl

/-- The kinds of steps: those after which the caller has nothing of the file, and one for each that
    touches a file or an id. -/
inductive Effect (paths : Paths) (s : State) (j : Job) : Move → State → Phase → Prop
  | goes {m : Move} {t : State} {phase : Phase} (hlive : j.phase ≠ .finished)
      (hid : j.phase.driveFileId = "") (hplain : phase.plain = true) (hdisk : t.disk = s.disk)
      (huploaded : t.uploaded = s.uploaded) (hcancelled : t.cancelled = s.cancelled) :
      Effect paths s j m t phase
  | wrote {bytes : Bytes} (hphase : j.phase = .writing bytes)
      (hlocked : s.locked j.filePath = false) :
      Effect paths s j .write (s.put j.filePath (some bytes)) .entering
  | opened {linked retried : Bool} {bytes : Bytes} (hphase : j.phase = .uploading linked retried)
      (hbytes : s.disk j.filePath = some bytes) :
      Effect paths s j .read s (.sending linked retried bytes)
  /-- what has been sent is recorded as uploaded when the id is not empty -/
  | answered {linked retried : Bool} {bytes : Bytes} {driveFileId : String}
      (hphase : j.phase = .sending linked retried bytes) :
      Effect paths s j (.complete driveFileId)
        { s.released with
          uploaded := if driveFileId = "" then s.uploaded
            else (j.filePath, bytes) :: s.uploaded } (.answered driveFileId)
  | settled {driveFileId : String} (hphase : j.phase = .answered driveFileId) :
      Effect paths s j .settle s (.deleting driveFileId)
  | deleted {driveFileId : String} (hphase : j.phase = .deleting driveFileId)
      (hdeletes : j.caller.deletes s j.filePath = true) (hlocked : s.locked j.filePath = false) :
      Effect paths s j .delete (s.put j.filePath none) j.caller.after
  /-- the file is left where it is -/
  | passed {driveFileId : String} (hphase : j.phase = .deleting driveFileId)
      (hdeletes : j.caller.deletes s j.filePath = false) :
      Effect paths s j .delete s j.caller.after
  /-- an exception after the answer -/
  | failed (hphase : j.phase.afterUpload = true) : Effect paths s j .fail s j.caller.after
  | saved {json : Bytes} (hphase : j.phase = .locking)
      (hcaller : j.caller = .sessionSummary (.save json))
      (hlocked : s.locked paths.lockFile = false) :
      Effect paths s j .lock (s.put paths.lockFile (some json)) .finished
  | removed (hphase : j.phase = .locking) (hcaller : j.caller = .sessionSummary .remove)
      (hlocked : s.locked paths.lockFile = false) :
      Effect paths s j .lock (s.put paths.lockFile none) .finished

variable {p : String} {s s' : State} {j : Job}

/-- A step that only goes on. -/
theorem effect_idle {paths : Paths} {m : Move} {start phase : Phase} (hphase : j.phase = start)
    (hlive : start ≠ .finished) (hid : start.driveFileId = "") (hplain : phase.plain = true) :
    Effect paths s j m s phase :=
  .goes (hphase ▸ hlive) (hphase ▸ hid) hplain rfl rfl rfl

/-- An exception in `UploadFileAsync`. -/
theorem effect_caught {paths : Paths} {m : Move} (hlive : j.phase ≠ .finished)
    (hid : j.phase.driveFileId = "") : Effect paths s j m (s.caught j).1 (s.caught j).2 := by
  refine .goes hlive hid ?_ (released_disk s) (released_uploaded s) (released_cancelled s)
  show (if s.isShuttingDown then Phase.answered "" else j.caller.after).plain = true
  split
  · rfl
  · exact plain_after j.caller

/-- **What a caller's step can do.** -/
theorem move_cases {paths : Paths} {m : Move} {phase : Phase}
    (hm : s.move paths j m = some (s', phase)) : Effect paths s j m s' phase := by
  cases m with
  | write =>
    simp only [State.move] at hm
    split at hm
    · rename_i bytes hphase
      split at hm
      · cases hm
      · rename_i hlocked
        cases hm
        exact .wrote hphase (by simpa using hlocked)
    · cases hm
  | enter =>
    simp only [State.move] at hm
    split at hm
    · rename_i hphase
      cases hm
      refine effect_idle hphase (by simp) rfl ?_
      split <;> rfl
    · cases hm
  | link =>
    simp only [State.move] at hm
    split at hm
    · rename_i hphase
      cases hm
      exact effect_idle hphase (by simp) rfl rfl
    · cases hm
  | choose =>
    simp only [State.move] at hm
    split at hm
    · rename_i hphase
      cases hm
      exact effect_idle hphase (by simp) rfl rfl
    · cases hm
  | acquire =>
    simp only [State.move] at hm
    split at hm
    · rename_i hphase
      split at hm
      · cases hm
      · cases hm
        exact .goes (by simp [hphase]) (by rw [hphase]; rfl) rfl rfl rfl rfl
    · cases hm
  | giveUp =>
    simp only [State.move] at hm
    split at hm
    · rename_i hphase
      cases hm
      exact .goes (by simp [hphase]) (by rw [hphase]; rfl) rfl (released_disk s)
        (released_uploaded s) (released_cancelled s)
    · cases hm
  | read =>
    simp only [State.move] at hm
    split at hm
    · rename_i hphase
      obtain ⟨bytes, hbytes, heq⟩ := Option.map_eq_some_iff.mp hm
      cases heq
      exact .opened hphase hbytes
    · cases hm
  | retry =>
    simp only [State.move] at hm
    split at hm
    · rename_i hphase
      cases hm
      exact effect_idle hphase (by simp) rfl rfl
    · rename_i hphase
      cases hm
      exact effect_idle hphase (by simp) rfl rfl
    · cases hm
  | complete driveFileId =>
    simp only [State.move] at hm
    split at hm
    · rename_i hphase
      cases hm
      exact .answered hphase
    · cases hm
  | settle =>
    simp only [State.move] at hm
    split at hm
    · -- the handler looks at the id
      rename_i driveFileId hphase _
      by_cases hid : driveFileId = ""
      · rw [if_pos hid] at hm
        cases hm
        exact .goes (by simp [hphase]) (by rw [hphase]; exact hid) rfl rfl rfl rfl
      · rw [if_neg hid] at hm
        cases hm
        exact .settled hphase
    · rename_i hphase _
      cases hm
      exact .settled hphase
    · cases hm
  | delete =>
    simp only [State.move] at hm
    split at hm
    · rename_i hphase
      split at hm
      · rename_i hdeletes
        split at hm
        · cases hm
        · rename_i hlocked
          cases hm
          exact .deleted hphase hdeletes (by simpa using hlocked)
      · rename_i hdeletes
        cases hm
        exact .passed hphase (by simpa using hdeletes)
    · cases hm
  | lock =>
    simp only [State.move] at hm
    split at hm
    · rename_i hphase hcaller
      split at hm
      · cases hm
      · rename_i hlocked
        cases hm
        exact .saved hphase hcaller (by simpa using hlocked)
    · rename_i hphase hcaller
      split at hm
      · cases hm
      · rename_i hlocked
        cases hm
        exact .removed hphase hcaller (by simpa using hlocked)
    · cases hm
  | fail =>
    simp only [State.move] at hm
    split at hm
    · rename_i hphase
      cases hm
      exact effect_idle hphase (by simp) rfl (plain_after j.caller)
    · rename_i hphase
      split at hm
      · cases hm
        exact effect_caught (by simp [hphase]) (by rw [hphase]; rfl)
      · cases hm
    · rename_i hphase
      cases hm
      exact effect_caught (by simp [hphase]) (by rw [hphase]; rfl)
    · rename_i hphase
      cases hm
      exact effect_caught (by simp [hphase]) (by rw [hphase]; rfl)
    · rename_i hphase
      cases hm
      exact .failed (by rw [hphase]; rfl)
    · rename_i hphase
      cases hm
      exact .failed (by rw [hphase]; rfl)
    · rename_i hphase
      cases hm
      exact effect_idle hphase (by simp) rfl rfl
    · cases hm

/-! ## Files and their uploads -/

/-- A file being sent has the bytes that are sent; a file whose upload was answered with an id has
    been uploaded as it is. -/
def Sound (p : String) (s : State) (j : Job) : Prop :=
  j.filePath = p → match j.phase with
    | .sending _ _ bytes => s.disk p = some bytes
    | .answered driveFileId | .deleting driveFileId =>
        driveFileId ≠ "" → ∀ bytes, s.disk p = some bytes → (p, bytes) ∈ s.uploaded
    | _ => True

def Inv (p : String) (s : State) : Prop := ∀ j ∈ s.jobs, Sound p s j

theorem Sound.mono (hdisk : s'.disk p = s.disk p) (hup : ∀ x ∈ s.uploaded, x ∈ s'.uploaded)
    (h : Sound p s j) : Sound p s' j := by
  intro hp
  have hj := h hp
  split
  · rename_i hphase
    simp only [hphase] at hj
    rw [hdisk, hj]
  · rename_i hphase
    simp only [hphase] at hj
    exact fun hid bytes hb => hup _ (hj hid bytes (hdisk ▸ hb))
  · rename_i hphase
    simp only [hphase] at hj
    exact fun hid bytes hb => hup _ (hj hid bytes (hdisk ▸ hb))
  · trivial

theorem Kept.of_disk (hdisk : s'.disk p = s.disk p) : Kept p s s' :=
  fun _ hb hnot => absurd (hdisk.trans hb) hnot

/-- While a file is not open, nobody is sending it. -/
theorem not_sending (hlocked : s.locked p = false) (hj : j ∈ s.jobs) (hp : j.filePath = p)
    {linked retried : Bool} {bytes : Bytes} : j.phase ≠ .sending linked retried bytes := by
  intro hphase
  have hany := List.any_eq_false.mp hlocked j hj
  simp [hp, hphase] at hany

/-- A write to a free name harms no file, and no upload in progress. -/
theorem inv_put_some {q : String} {bytes : Bytes} (h : Inv p s) (hlocked : s.locked q = false)
    (hwrite : q = p → MayWrite s p bytes) :
    Kept p s (s.put q (some bytes)) ∧ Inv p (s.put q (some bytes)) := by
  by_cases hq : q = p
  · subst hq
    rcases hwrite rfl with hsame | ⟨hnone, hfree⟩
    · -- the bytes are there already
      have hdisk : (s.put q (some bytes)).disk q = s.disk q := by simp [State.put, hsame]
      exact ⟨.of_disk hdisk, fun j hj => (h j hj).mono hdisk fun _ hx => hx⟩
    · refine ⟨fun b hb _ => absurd (hnone.symm.trans hb) (by simp), fun j hj hp => ?_⟩
      have hafter := hfree j hj hp
      split
      · rename_i hphase
        exact absurd hphase (not_sending hlocked hj hp)
      · rename_i hphase
        simp [hphase, Phase.afterUpload] at hafter
      · rename_i hphase
        simp [hphase, Phase.afterUpload] at hafter
      · trivial
  · have hdisk : (s.put q (some bytes)).disk p = s.disk p :=
      Function.update_of_ne (fun he => hq he.symm) ..
    exact ⟨.of_disk hdisk, fun j hj => (h j hj).mono hdisk fun _ hx => hx⟩

/-- A deletion is safe for the file if that has been uploaded as it is. -/
theorem inv_put_none {q : String} (h : Inv p s) (hlocked : s.locked q = false)
    (huploaded : q = p → ∀ bytes, s.disk p = some bytes → (p, bytes) ∈ s.uploaded) :
    Kept p s (s.put q none) ∧ Inv p (s.put q none) := by
  by_cases hq : q = p
  · subst hq
    have hnone : (s.put q none).disk q = none := by simp [State.put]
    refine ⟨fun b hb _ => huploaded rfl b hb, fun j hj hp => ?_⟩
    split
    · rename_i hphase
      exact absurd hphase (not_sending hlocked hj hp)
    · exact fun _ b hb => absurd (hnone.symm.trans hb) (by simp)
    · exact fun _ b hb => absurd (hnone.symm.trans hb) (by simp)
    · trivial
  · have hdisk : (s.put q none).disk p = s.disk p :=
      Function.update_of_ne (fun he => hq he.symm) ..
    exact ⟨.of_disk hdisk, fun j hj => (h j hj).mono hdisk fun _ hx => hx⟩

/-! ## One step of a caller -/

/-- What a caller's step has to keep. -/
structure Keeps (p : String) (s s' : State) (j : Job) : Prop where
  kept : Kept p s s'
  others : Inv p { s' with jobs := s.jobs }
  own : Sound p s' j

/-- A step that changes neither the file nor what was uploaded. -/
theorem Keeps.of_disk (h : Inv p s) (hdisk : s'.disk = s.disk) (hup : s'.uploaded = s.uploaded)
    (hown : Sound p s j) : Keeps p s s' j where
  kept := .of_disk (by rw [hdisk])
  others i hi := (h i hi).mono (by rw [hdisk]) (by simp [hup])
  own := hown.mono (by rw [hdisk]) (by simp [hup])

/-- A caller that has nothing of the file. -/
theorem sound_of_plain {phase : Phase} (hplain : phase.plain = true) :
    Sound p s { j with phase } := by
  intro _
  cases phase with
  | sending linked retried bytes => cases hplain
  | answered driveFileId =>
    intro hid
    exact absurd (by simpa [Phase.plain] using hplain) hid
  | deleting driveFileId => cases hplain
  | _ => trivial

/-- **The crux.**  A caller's harmless step destroys no file that was not uploaded, and leaves every
    file that is being sent, or whose upload was answered, as it was uploaded. -/
theorem keeps_move {paths : Paths} {m : Move} {phase : Phase} (h : Inv p s) (hj : j ∈ s.jobs)
    (hg : HarmlessMove paths p s j m) (hm : s.move paths j m = some (s', phase)) :
    Keeps p s s' { j with phase } := by
  have hsound := h j hj
  cases move_cases hm with
  | goes _ _ hplain hdisk huploaded _ =>
    exact .of_disk h hdisk huploaded (sound_of_plain hplain)
  | wrote hphase hlocked =>
    have hput := inv_put_some h hlocked fun hp => hg hp _ hphase
    exact ⟨hput.1, hput.2, fun _ => trivial⟩
  | opened _ hbytes => exact .of_disk h rfl rfl fun hp => hp ▸ hbytes
  | @answered linked retried bytes driveFileId hphase =>
    have hdisk : s.released.disk p = s.disk p := by rw [released_disk]
    refine ⟨.of_disk hdisk, fun i hi => (h i hi).mono hdisk fun x hx => ?_, fun hp hid b hb => ?_⟩
    · show x ∈ if driveFileId = "" then s.uploaded else (j.filePath, bytes) :: s.uploaded
      split
      · exact hx
      · exact List.mem_cons_of_mem _ hx
    · have hsent := hsound hp
      simp only [hphase] at hsent
      obtain rfl : bytes = b := Option.some.inj (hsent.symm.trans (hdisk ▸ hb))
      show (p, bytes) ∈ if driveFileId = "" then s.uploaded else (j.filePath, bytes) :: s.uploaded
      rw [if_neg hid, ← hp]
      exact List.mem_cons_self
  | settled hphase =>
    refine .of_disk h rfl rfl fun hp => ?_
    have hup := hsound hp
    simpa only [hphase] using hup
  | @deleted driveFileId hphase hdeletes hlocked =>
    -- a delete after an empty id is the one the condition excludes
    have hput := inv_put_none h hlocked fun hp => by
      have hup := hsound hp
      simp only [hphase] at hup
      refine hup fun hid => ?_
      have hno := hg hp (hid ▸ hphase)
      exact absurd (hp ▸ hdeletes) (by simp [hno])
    exact ⟨hput.1, hput.2, sound_of_plain (plain_after j.caller)⟩
  | passed _ _ => exact .of_disk h rfl rfl (sound_of_plain (plain_after j.caller))
  | failed _ => exact .of_disk h rfl rfl (sound_of_plain (plain_after j.caller))
  -- the lock file is written for the new session, or removed
  | saved _ hcaller hlocked =>
    have hput := inv_put_some h hlocked fun hp => hg hp _ hcaller
    exact ⟨hput.1, hput.2, fun _ => trivial⟩
  | removed _ hcaller hlocked =>
    have hput := inv_put_none h hlocked fun hp bytes hb =>
      absurd ((hg hp _ hcaller).symm.trans hb) (by simp)
    exact ⟨hput.1, hput.2, fun _ => trivial⟩

/-! ## Every run -/

section Run

variable [PerceptualHashService] {paths : Paths}

omit [PerceptualHashService] in
/-- New callers have nothing open and nothing uploaded. -/
theorem inv_append {jobs : List Job} (h : Inv p s)
    (hnew : ∀ j ∈ jobs, j.phase.afterUpload = false ∧ ¬ j.phase matches .sending ..) :
    Inv p { s with jobs := s.jobs ++ jobs } := by
  intro j hj
  rcases List.mem_append.mp hj with hj | hj
  · exact (h j hj).mono rfl fun _ hx => hx
  · obtain ⟨hafter, hsending⟩ := hnew j hj
    intro _
    split
    · rename_i hphase
      simp [hphase] at hsending
    · rename_i hphase
      simp [hphase, Phase.afterUpload] at hafter
    · rename_i hphase
      simp [hphase, Phase.afterUpload] at hafter
    · trivial

theorem keeps_step {a : Step} (h : Inv p s) (hg : Harmless paths p s a)
    (hs : step paths s a = some s') : Kept p s s' ∧ Inv p s' := by
  cases a with
  | screenshot message filterDuplicates machineId date time =>
    cases hs
    refine ⟨.of_disk rfl, inv_append (fun j hj => (h j hj).mono rfl fun _ hx => hx) ?_⟩
    intro j hj
    obtain ⟨file, -, rfl⟩ := Option.map_eq_some_iff.mp (Option.mem_toList.mp hj)
    exact ⟨rfl, by simp⟩
  | dequeue filePath =>
    simp only [step] at hs
    split at hs
    · cases hs
    · cases hs
      exact ⟨.of_disk rfl, inv_append h (by simp [Phase.afterUpload])⟩
  | summary sessionId startTime json next =>
    cases hs
    exact ⟨.of_disk rfl, inv_append h (by simp [Phase.afterUpload])⟩
  | saveLock json =>
    simp only [step] at hs
    split at hs
    · cases hs
    · rename_i hlocked
      cases hs
      exact inv_put_some h (by simpa using hlocked) hg
  | beginShutdown =>
    cases hs
    exact ⟨.of_disk rfl, fun j hj => (h j hj).mono rfl fun _ hx => hx⟩
  | cancel =>
    cases hs
    exact ⟨.of_disk rfl, fun j hj => (h j hj).mono rfl fun _ hx => hx⟩
  | job i m =>
    obtain ⟨j, hget, hs⟩ := Option.bind_eq_some_iff.mp hs
    obtain ⟨⟨t, phase⟩, hm, hs⟩ := Option.bind_eq_some_iff.mp hs
    cases hs
    have hkeeps := keeps_move h (List.mem_of_getElem? hget) (hg j hget) hm
    refine ⟨hkeeps.kept, fun k hk => ?_⟩
    rcases List.mem_or_eq_of_mem_set hk with hk | rfl
    · exact (hkeeps.others k hk).mono rfl fun _ hx => hx
    · exact hkeeps.own.mono rfl fun _ hx => hx

end Run

/-! ## A file left in the queue when the service shuts down -/

/-- Images without a hash. -/
@[reducible] def noHash : PerceptualHashService where
  computeHash _ := none
  isSimilar _ _ := false

def folders : Paths where
  screenshotTemp := "Temp\\Screenshots"
  sessionLog := "Logs\\Sessions"
  lockFile := "session.lock"

/-- One screenshot of an earlier run is on the disk. -/
def disk : String → Option Bytes := Function.update (fun _ => none) "capture.png" (some [137, 80])

def uploadAndDelete : List Step :=
  [.dequeue "capture.png", .job 0 .enter, .job 0 .link, .job 0 .choose, .job 0 .acquire,
    .job 0 .read, .job 0 (.complete "1x9"), .job 0 .settle, .job 0 .delete]

/-- The queue goes on after `BeginShutdown`. -/
def deleteDuringShutdown : List Step :=
  [.beginShutdown, .dequeue "capture.png", .job 0 .enter, .job 0 .settle, .job 0 .delete]

end Service.FileSafety
