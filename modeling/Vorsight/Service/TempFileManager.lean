/-
  ONE DRIVE COPY OF EACH SCREENSHOT (Vorsight.Service/Storage/TempFileManager.cs, with the callers
  of `UploadFileAsync`: ScreenshotHandler and UploadQueueProcessor).

  A screenshot is saved, uploaded and deleted by the handler of its message.  A file that is still
  there after five minutes is taken for a failed upload: `RetryFailedUploadsAsync` enqueues it, and
  the queue's loop uploads it.  Files and calls are those of `FileSafety`, and the queue is that of
  `UploadQueueProcessor`.  Captures have paths of their own; the shutdown is left out.

  1. **The claim of the design** (`Once`): `UploadFileAsync` answers an id for a file at most once.

  2. **Where it fails.**  The file on the disk is the only record that it is still to be uploaded.
     When the notification or the deletion fails after the upload, the next scan finds it again; and
     a scan can find the file of a handler that is still uploading it.

  3. **The condition** (`Harmless`) excludes both.  The crux is `Single`: a file with an id is gone,
     or in the hands of the one caller that is about to delete it.
-/
import Mathlib.Tactic.ByContra
import Vorsight.Service.FileSafety
import Vorsight.Service.UploadQueueProcessor

namespace Service.TempFileManager

open Codec Ipc Runs ScreenshotHandler Time
open FileSafety (Job Move Paths Phase)

/-! ## The state -/

/-- Where `RetryFailedUploadsAsync` is. -/
inductive Scan
  | idle
  /-- in `GetFilesInAgeRange`, which has read the clock once -/
  | listing (now : Int) (rest found : List String)
  /-- in `EnqueueFiles` -/
  | enqueuing (rest : List String)
deriving DecidableEq

structure State where
  /-- the disk, and the calls of `UploadFileAsync` -/
  files : FileSafety.State
  queue : UploadQueueProcessor.State := {}
  /-- the `.png` paths below `_tempPath` so far -/
  known : List String := []
  /-- in ticks -/
  creationTime : String → Int := fun _ => 0
  /-- `DateTime.Now`, in ticks -/
  now : Int := 0
  scan : Scan := .idle

inductive Step
  /-- `HandleScreenshotMessageAsync`, up to the write -/
  | screenshot (message : PipeMessage) (filterDuplicates : Bool) (machineId : String)
      (date time : Civil)
  /-- a caller of `UploadFileAsync` goes on -/
  | job (i : Nat) (move : Move)
  | clock (now : Int)
  /-- `RetryFailedUploadsAsync`, up to the first file -/
  | scan
  /-- the age of the next file -/
  | look
  /-- `EnqueueFileAsync` is called for the next file -/
  | enqueue
  /-- the queue, its loop, and the call of `EnqueueFileAsync` -/
  | queue (a : UploadQueueProcessor.Step)

/-! ## The steps -/

/-- `MinAgeForRetry`. -/
def minAgeForRetry : Int := 5 * 60 * 10000000

/-- `FileInfo.CreationTime` of a file that is not there: the year 1601. -/
def noFileTime : Int := 504911232000000000

namespace State

/-- `age > minAge && age < maxAge`. -/
def inAgeRange (s : State) (maxFileAge now : Int) (p : String) : Bool :=
  let age := now - if (s.files.disk p).isSome then s.creationTime p else noFileTime
  minAgeForRetry < age && age < maxFileAge

/-- The creation times after a caller's step: a file that was not there is created now. -/
def created (s : State) (i : Nat) (move : Move) : String → Int :=
  match s.files.jobs[i]?, move with
  | some j, .write =>
      if (s.files.disk j.filePath).isSome then s.creationTime
      else Function.update s.creationTime j.filePath s.now
  | _, _ => s.creationTime

/-- The loop's call of `UploadFileAsync`, or what follows it, is not over. -/
def loopBusy (s : State) : Bool :=
  s.files.jobs.any fun j => j.caller = .uploadQueue && j.phase ≠ .finished

/-- The last call of `EnqueueFileAsync` has returned. -/
def enqueued (s : State) : Bool := s.queue.checked = [] && s.queue.sending = []

def look (maxFileAge : Int) (s : State) : Option State :=
  match s.scan with
  | .listing now (p :: rest) found => some { s with
      scan := .listing now rest (if s.inAgeRange maxFileAge now p then found ++ [p] else found) }
  | .listing _ [] found => some { s with scan := .enqueuing found }
  | _ => none

def enqueue (s : State) : Option State :=
  match s.scan with
  | .enqueuing (p :: rest) =>
      if s.enqueued then some { s with scan := .enqueuing rest, queue := s.queue.enqueue p }
      else none
  | .enqueuing [] => if s.enqueued then some { s with scan := .idle } else none
  | _ => none

end State

section Steps

variable [PerceptualHashService] (folders : Paths)

/-- What the loop uploads, it uploads as a caller of `FileSafety`. -/
def State.queueStep (s : State) (a : UploadQueueProcessor.Step) : Option State :=
  match a with
  | .enqueue _ | .complete => none
  | .upload => match s.queue.loop with
      | .received p => (FileSafety.step folders s.files (.dequeue p)).bind fun files =>
          (UploadQueueProcessor.step s.queue .upload).map fun queue => { s with files, queue }
      | _ => none
  | .uploadEnd uploaded =>
      if s.loopBusy then none
      else (UploadQueueProcessor.step s.queue (.uploadEnd uploaded)).map fun queue =>
        { s with queue }
  | a => (UploadQueueProcessor.step s.queue a).map fun queue => { s with queue }

def step (maxFileAge : Int) (s : State) : Step → Option State
  | .screenshot message filterDuplicates machineId date time =>
      let file := (accept folders.screenshotTemp filterDuplicates machineId date time message
        s.files.lastHashPerMachine).1.map Prod.fst
      -- captures have paths of their own
      if file.any (· ∈ s.known) then none
      else (FileSafety.step folders s.files
        (.screenshot message filterDuplicates machineId date time)).map fun files =>
          { s with files, known := file.toList ++ s.known }
  | .job i move => (FileSafety.step folders s.files (.job i move)).map fun files =>
      { s with files, creationTime := s.created i move }
  | .clock now => some { s with now }
  | .scan =>
      if s.scan = .idle then some { s with
        scan := .listing s.now (s.known.filter fun p => (s.files.disk p).isSome) [] }
      else none
  | .look => s.look maxFileAge
  | .enqueue => s.enqueue
  | .queue a => s.queueStep folders a

end Steps

/-! ## The design's claim, and the condition -/

/-- How many calls of `UploadFileAsync` have answered an id for `p`. -/
def ids (s : FileSafety.State) (p : String) : Nat := (s.uploaded.map Prod.fst).count p

def Once (s : State) : Prop := ∀ p, ids s.files p ≤ 1

/-- `UploadFileAsync` has answered an id, and the file is still to be deleted. -/
def hasId (phase : Phase) : Bool := phase.driveFileId ≠ ""

/-- The notification and the deletion do not fail after an upload, and the loop uploads no file of a
    handler that is not done with it. -/
def Harmless (s : State) : Step → Prop
  | .job i move => move = .fail → ∀ j ∈ s.files.jobs[i]?, hasId j.phase = false
  | .queue a => a = .upload → ∀ j ∈ s.files.jobs, j.filePath ∈ s.queue.loop.held →
      j.caller = .screenshotHandler → j.phase = .finished
  | _ => True

instance (s : State) : DecidablePred (Harmless s)
  | .job i move => inferInstanceAs
      (Decidable (move = .fail → ∀ j ∈ s.files.jobs[i]?, hasId j.phase = false))
  | .queue a => inferInstanceAs
      (Decidable (a = .upload → ∀ j ∈ s.files.jobs, j.filePath ∈ s.queue.loop.held →
        j.caller = .screenshotHandler → j.phase = .finished))
  | .screenshot _ _ _ _ _ | .clock _ | .scan | .look | .enqueue => .isTrue trivial

/-! ## A file and its callers -/

/-- The caller writes the file, or sends it. -/
def unsent : Phase → Bool
  | .writing _ | .sending .. => true
  | _ => false

structure Single (s : FileSafety.State) : Prop where
  callers : ∀ j ∈ s.jobs, j.caller = .screenshotHandler ∨ j.caller = .uploadQueue
  /-- one caller at a time works on a file -/
  alone : ∀ {i k : Nat} {j j' : Job}, s.jobs[i]? = some j → s.jobs[k]? = some j' →
    j.filePath = j'.filePath → j.phase ≠ .finished → j'.phase ≠ .finished → i = k
  once : ∀ p, ids s p ≤ 1
  /-- what is written or sent has no id yet -/
  unsent : ∀ j ∈ s.jobs, unsent j.phase = true → ids s j.filePath = 0
  /-- what has an id is gone, or about to be deleted -/
  gone : ∀ p, ids s p = 0 ∨ s.disk p = none ∨ ∃ j ∈ s.jobs, j.filePath = p ∧ hasId j.phase = true
  running : s.cancelled = false

theorem single_init (disk : String → Option Bytes) : Single { disk } := by
  constructor <;> simp [ids]

section Files

variable {s t : FileSafety.State} {i : Nat} {j : Job} {phase : Phase}

theorem ne_finished_of_hasId (h : hasId phase = true) : phase ≠ .finished := by
  rintro rfl
  cases h

/-- A file that a caller works on has an id only in its hands. -/
theorem Single.gone_of (h : Single s) (hi : s.jobs[i]? = some j) (hlive : j.phase ≠ .finished) :
    ids s j.filePath = 0 ∨ s.disk j.filePath = none ∨ hasId j.phase = true := by
  rcases h.gone j.filePath with hnone | hgone | ⟨j', hj', hpath, hid⟩
  · exact Or.inl hnone
  · exact Or.inr (Or.inl hgone)
  · obtain ⟨k, hk⟩ := List.mem_iff_getElem?.mp hj'
    have hik : i = k := h.alone hi hk hpath.symm hlive (ne_finished_of_hasId hid)
    subst hik
    cases hi.symm.trans hk
    exact Or.inr (Or.inr hid)

/-- **A caller goes on**, and changes its own file only. -/
theorem Single.move (h : Single s) (hi : s.jobs[i]? = some j) (hlive : j.phase ≠ .finished)
    (hframe : ∀ q, q ≠ j.filePath → t.disk q = s.disk q ∧ ids t q = ids s q)
    (hrunning : t.cancelled = false) (honce : ids t j.filePath ≤ 1)
    (hunsent : TempFileManager.unsent phase = true → ids t j.filePath = 0)
    (hgone : ids t j.filePath = 0 ∨ t.disk j.filePath = none ∨ hasId phase = true) :
    Single { t with jobs := s.jobs.set i { j with phase } } := by
  obtain ⟨hlt, -⟩ := List.getElem?_eq_some_iff.mp hi
  -- who is not done yet was not done before
  have hback : ∀ {k : Nat} {j' : Job}, (s.jobs.set i { j with phase })[k]? = some j' →
      j'.phase ≠ .finished → ∃ j'', s.jobs[k]? = some j'' ∧ j''.filePath = j'.filePath ∧
        j''.phase ≠ .finished := by
    intro k j' hk hlive'
    by_cases hik : i = k
    · subst hik
      rw [List.getElem?_set_self hlt, Option.some.injEq] at hk
      subst hk
      exact ⟨j, hi, rfl, hlive⟩
    · rw [List.getElem?_set_ne hik] at hk
      exact ⟨j', hk, rfl, hlive'⟩
  constructor
  · intro j' hj'
    rcases List.mem_or_eq_of_mem_set hj' with hj' | rfl
    · exact h.callers j' hj'
    · exact h.callers j (List.mem_of_getElem? hi)
  · intro k l j₁ j₂ hk hl hpath hlive₁ hlive₂
    obtain ⟨j₁', hk', hpath₁, hlive₁'⟩ := hback hk hlive₁
    obtain ⟨j₂', hl', hpath₂, hlive₂'⟩ := hback hl hlive₂
    exact h.alone hk' hl' (hpath₁.trans (hpath.trans hpath₂.symm)) hlive₁' hlive₂'
  · intro q
    by_cases hq : q = j.filePath
    · rw [hq]
      exact honce
    · exact ((hframe q hq).2).trans_le (h.once q)
  · intro j' hj' hphase
    obtain ⟨k, hk⟩ := List.mem_iff_getElem?.mp hj'
    by_cases hik : i = k
    · subst hik
      rw [List.getElem?_set_self hlt, Option.some.injEq] at hk
      subst hk
      exact hunsent hphase
    · rw [List.getElem?_set_ne hik] at hk
      have hne : j'.filePath ≠ j.filePath := by
        intro hpath
        refine hik (h.alone hi hk hpath.symm hlive ?_)
        intro hfinished
        rw [hfinished] at hphase
        cases hphase
      exact ((hframe _ hne).2).trans (h.unsent j' (List.mem_of_getElem? hk) hphase)
  · intro q
    by_cases hq : q = j.filePath
    · subst hq
      rcases hgone with hnone | hgone | hid
      · exact Or.inl hnone
      · exact Or.inr (Or.inl hgone)
      · exact Or.inr (Or.inr ⟨_, List.mem_set hlt _, rfl, hid⟩)
    · rcases h.gone q with hnone | hgone | ⟨j', hj', hpath, hid⟩
      · exact Or.inl ((hframe q hq).2.trans hnone)
      · exact Or.inr (Or.inl ((hframe q hq).1.trans hgone))
      · obtain ⟨k, hk⟩ := List.mem_iff_getElem?.mp hj'
        have hik : i ≠ k := by
          rintro rfl
          cases hi.symm.trans hk
          exact hq hpath.symm
        refine Or.inr (Or.inr ⟨j', ?_, hpath, hid⟩)
        exact List.mem_of_getElem? ((List.getElem?_set_ne hik).trans hk)
  · exact hrunning

/-- A caller goes on, and touches neither files nor ids. -/
theorem Single.keep (h : Single s) (hi : s.jobs[i]? = some j) (hlive : j.phase ≠ .finished)
    (hdisk : t.disk = s.disk) (huploaded : t.uploaded = s.uploaded)
    (hcancelled : t.cancelled = s.cancelled) (hid : hasId j.phase = true → hasId phase = true)
    (hunsent : TempFileManager.unsent phase = false) :
    Single { t with jobs := s.jobs.set i { j with phase } } := by
  have hids : ∀ q, ids t q = ids s q := fun q => by rw [ids, huploaded]; rfl
  refine h.move hi hlive (fun q _ => ⟨by rw [hdisk], hids q⟩) (hcancelled.trans h.running) ?_ ?_ ?_
  · exact (hids _).trans_le (h.once _)
  · intro hphase
    rw [hunsent] at hphase
    cases hphase
  · rcases h.gone_of hi hlive with hnone | hgone | hhas
    · exact Or.inl ((hids _).trans hnone)
    · exact Or.inr (Or.inl (by rw [hdisk]; exact hgone))
    · exact Or.inr (Or.inr (hid hhas))

/-- A caller changes its file on the disk, before it has an id or when it deletes it. -/
theorem Single.put (h : Single s) (hi : s.jobs[i]? = some j) (hlive : j.phase ≠ .finished)
    {content : Option Bytes} (hcontent : content = none ∨ ids s j.filePath = 0)
    (hunsent : TempFileManager.unsent phase = false) :
    Single { s.put j.filePath content with jobs := s.jobs.set i { j with phase } } := by
  refine h.move hi hlive (fun q hq => ⟨Function.update_of_ne hq .., rfl⟩) h.running
    (h.once _) ?_ ?_
  · intro hphase
    rw [hunsent] at hphase
    cases hphase
  · rcases hcontent with rfl | hnone
    · exact Or.inr (Or.inl (Function.update_self ..))
    · exact Or.inl hnone

/-- A caller opens its file: one that is there has no id yet. -/
theorem Single.read (h : Single s) (hi : s.jobs[i]? = some j) (hlive : j.phase ≠ .finished)
    (hid : hasId j.phase = false) (hthere : s.disk j.filePath ≠ none) :
    Single { s with jobs := s.jobs.set i { j with phase } } := by
  have hnone : ids s j.filePath = 0 := by
    rcases h.gone_of hi hlive with hnone | hgone | hhas
    · exact hnone
    · exact absurd hgone hthere
    · rw [hid] at hhas
      cases hhas
  exact h.move hi hlive (fun q _ => ⟨rfl, rfl⟩) h.running (h.once _) (fun _ => hnone)
    (Or.inl hnone)

/-- `UploadFileAsync` answers. -/
theorem Single.answer (h : Single s) (hi : s.jobs[i]? = some j)
    (hsent : TempFileManager.unsent j.phase = true) {driveFileId : String} {bytes : Bytes}
    (hdisk : t.disk = s.disk) (hcancelled : t.cancelled = s.cancelled)
    (huploaded : t.uploaded =
      if driveFileId = "" then s.uploaded else (j.filePath, bytes) :: s.uploaded) :
    Single { t with jobs := s.jobs.set i { j with phase := .answered driveFileId } } := by
  have hlive : j.phase ≠ .finished := by
    intro hfinished
    rw [hfinished] at hsent
    cases hsent
  have hnone : ids s j.filePath = 0 := h.unsent j (List.mem_of_getElem? hi) hsent
  have hrunning : t.cancelled = false := hcancelled.trans h.running
  by_cases hempty : driveFileId = ""
  · rw [if_pos hempty] at huploaded
    have hids : ∀ q, ids t q = ids s q := fun q => by rw [ids, huploaded]; rfl
    refine h.move hi hlive (fun q _ => ⟨by rw [hdisk], hids q⟩) hrunning
      ((hids _).trans_le (h.once _)) (fun hphase => by cases hphase) (Or.inl ((hids _).trans hnone))
  · rw [if_neg hempty] at huploaded
    have hother : ∀ q, q ≠ j.filePath → ids t q = ids s q := by
      intro q hq
      rw [ids, huploaded, List.map_cons, List.count_cons_of_ne (Ne.symm hq)]
      rfl
    have hown : ids t j.filePath = 1 := by
      rw [ids, huploaded, List.map_cons, List.count_cons_self]
      show ids s j.filePath + 1 = 1
      rw [hnone]
    refine h.move hi hlive (fun q hq => ⟨by rw [hdisk], hother q hq⟩) hrunning hown.le
      (fun hphase => by cases hphase) (Or.inr (Or.inr ?_))
    exact decide_eq_true hempty

/-- A caller that neither writes nor sends its file. -/
theorem unsent_of_plain (hplain : phase.plain = true) : TempFileManager.unsent phase = false := by
  cases phase <;> first | rfl | cases hplain

/-- **A caller's step**, other than a failure after the upload. -/
theorem single_move {folders : Paths} {m : Move} (h : Single s) (hi : s.jobs[i]? = some j)
    (hharm : m = .fail → hasId j.phase = false) (hm : s.move folders j m = some (t, phase)) :
    Single { t with jobs := s.jobs.set i { j with phase } } := by
  have hcaller := h.callers j (List.mem_of_getElem? hi)
  have hafter := unsent_of_plain (FileSafety.plain_after j.caller)
  cases FileSafety.move_cases hm with
  | goes hlive hid hplain hdisk huploaded hcancelled =>
    refine h.keep hi hlive hdisk huploaded hcancelled (fun hhas => ?_) (unsent_of_plain hplain)
    simp [hasId, hid] at hhas
  | wrote hphase _ =>
    refine h.put hi (by simp [hphase]) (Or.inr ?_) rfl
    exact h.unsent j (List.mem_of_getElem? hi) (by rw [hphase]; rfl)
  | opened hphase hbytes =>
    exact h.read hi (by simp [hphase]) (by rw [hphase]; rfl) (by simp [hbytes])
  | answered hphase =>
    exact h.answer hi (by rw [hphase]; rfl) (FileSafety.released_disk s)
      (FileSafety.released_cancelled s) rfl
  | settled hphase =>
    exact h.keep hi (by simp [hphase]) rfl rfl rfl (by rw [hphase]; exact id) rfl
  | deleted hphase _ _ => exact h.put hi (by simp [hphase]) (Or.inl rfl) hafter
  | passed hphase hdeletes =>
    -- the handler always deletes, and the queue unless the file is gone
    have hgone : s.disk j.filePath = none := by
      rcases hcaller with hcaller | hcaller
      · simp [hcaller, FileSafety.Caller.deletes] at hdeletes
      · simpa [hcaller, FileSafety.Caller.deletes, h.running] using hdeletes
    refine h.move hi (by simp [hphase]) (fun q _ => ⟨rfl, rfl⟩) h.running (h.once _) ?_
      (Or.inr (Or.inl hgone))
    intro hunsent
    rw [hafter] at hunsent
    cases hunsent
  | failed hphase =>
    have hlive : j.phase ≠ .finished := by
      intro hfinished
      rw [hfinished] at hphase
      cases hphase
    have hid : hasId j.phase = false := hharm rfl
    exact h.keep hi hlive rfl rfl rfl (fun hhas => absurd hhas (by simp [hid])) hafter
  | saved _ hsummary _ => rcases hcaller with hcaller | hcaller <;> simp [hcaller] at hsummary
  | removed _ hsummary _ => rcases hcaller with hcaller | hcaller <;> simp [hcaller] at hsummary

/-- A caller begins, on a file that no other one works on. -/
theorem Single.add (h : Single s)
    (hcaller : j.caller = .screenshotHandler ∨ j.caller = .uploadQueue)
    (hfree : ∀ j' ∈ s.jobs, j'.filePath = j.filePath → j'.phase = .finished)
    (hunsent : TempFileManager.unsent j.phase = true → ids s j.filePath = 0) :
    Single { s with jobs := s.jobs ++ [j] } := by
  -- two that are not done are both old, or both the new one
  have hcases : ∀ {k : Nat} {j' : Job}, (s.jobs ++ [j])[k]? = some j' →
      s.jobs[k]? = some j' ∨ (k = s.jobs.length ∧ j' = j) := by
    intro k j' hk
    by_cases hlt : k < s.jobs.length
    · rw [List.getElem?_append_left hlt] at hk
      exact Or.inl hk
    · rw [List.getElem?_append_right (by omega), List.getElem?_singleton] at hk
      split at hk
      · cases hk
        exact Or.inr ⟨by omega, rfl⟩
      · cases hk
  constructor
  · intro j' hj'
    rcases List.mem_append.mp hj' with hj' | hj'
    · exact h.callers j' hj'
    · cases List.mem_singleton.mp hj'
      exact hcaller
  · intro k l j₁ j₂ hk hl hpath hlive₁ hlive₂
    rcases hcases hk with hk' | ⟨hk', rfl⟩
    · rcases hcases hl with hl' | ⟨-, rfl⟩
      · exact h.alone hk' hl' hpath hlive₁ hlive₂
      · exact absurd (hfree j₁ (List.mem_of_getElem? hk') hpath) hlive₁
    · rcases hcases hl with hl' | ⟨hl', -⟩
      · exact absurd (hfree j₂ (List.mem_of_getElem? hl') hpath.symm) hlive₂
      · omega
  · exact h.once
  · intro j' hj' hphase
    rcases List.mem_append.mp hj' with hj' | hj'
    · exact h.unsent j' hj' hphase
    · cases List.mem_singleton.mp hj'
      exact hunsent hphase
  · intro p
    rcases h.gone p with hnone | hgone | ⟨j', hj', hpath, hid⟩
    · exact Or.inl hnone
    · exact Or.inr (Or.inl hgone)
    · exact Or.inr (Or.inr ⟨j', List.mem_append_left _ hj', hpath, hid⟩)
  · exact h.running

end Files

/-! ## The paths in the queue and in the scan -/

/-- The paths the queue holds. -/
def queued (q : UploadQueueProcessor.State) : List String :=
  q.checked ++ q.sending ++ q.buffer ++ q.loop.held

def Scan.files : Scan → List String
  | .idle => []
  | .listing _ rest found => rest ++ found
  | .enqueuing rest => rest

/-- Only paths that have been saved are uploaded, found and enqueued. -/
structure Known (s : State) : Prop where
  jobs : ∀ j ∈ s.files.jobs, j.filePath ∈ s.known
  uploaded : ∀ x ∈ s.files.uploaded, x.1 ∈ s.known
  scan : ∀ p ∈ s.scan.files, p ∈ s.known
  queue : ∀ p ∈ queued s.queue, p ∈ s.known

theorem mem_queued {q : UploadQueueProcessor.State} {p : String} :
    p ∈ queued q ↔ p ∈ q.checked ∨ p ∈ q.sending ∨ p ∈ q.buffer ∨ p ∈ q.loop.held := by
  simp [queued]

/-- A path that is queued has been enqueued before. -/
theorem mem_queued_of_step {q q' : UploadQueueProcessor.State} {a : UploadQueueProcessor.Step}
    {p : String} (ha : ∀ p, a ≠ .enqueue p) (hq : UploadQueueProcessor.step q a = some q')
    (hp : p ∈ queued q') : p ∈ queued q := by
  have hchecked : ∀ x ∈ q.checked, x ∈ queued q := fun _ hx => mem_queued.mpr (Or.inl hx)
  have hsending : ∀ x ∈ q.sending, x ∈ queued q :=
    fun _ hx => mem_queued.mpr (Or.inr (Or.inl hx))
  have hbuffer : ∀ x ∈ q.buffer, x ∈ queued q :=
    fun _ hx => mem_queued.mpr (Or.inr (Or.inr (Or.inl hx)))
  have hheld : ∀ x ∈ q.loop.held, x ∈ queued q :=
    fun _ hx => mem_queued.mpr (Or.inr (Or.inr (Or.inr hx)))
  have hhead : ∀ x rest, q.buffer = x :: rest → x ∈ queued q ∧ ∀ y ∈ rest, y ∈ queued q := by
    intro x rest hbuf
    exact ⟨hbuffer x (by simp [hbuf]), fun y hy => hbuffer y (by simp [hbuf, hy])⟩
  rcases mem_queued.mp hp with hp | hp | hp | hp
  · cases UploadQueueProcessor.step_cases hq with
    | @refused x | @checked x => exact absurd rfl (ha x)
    | known | tracked => exact hchecked p (List.mem_of_mem_erase hp)
    | _ => exact hchecked p hp
  · cases UploadQueueProcessor.step_cases hq with
    | @tracked x hx _ =>
      rcases List.mem_cons.mp hp with rfl | hp
      · exact hchecked p hx
      · exact hsending p hp
    | sent | dropped => exact hsending p (List.mem_of_mem_erase hp)
    | _ => exact hsending p hp
  · cases UploadQueueProcessor.step_cases hq with
    | @sent x hx _ =>
      rcases List.mem_append.mp hp with hp | hp
      · exact hbuffer p hp
      · cases List.mem_singleton.mp hp
        exact hsending p hx
    | took _ _ hbuf | handed _ _ hbuf | lost _ hbuf => exact (hhead _ _ hbuf).2 p hp
    | _ => exact hbuffer p hp
  · cases UploadQueueProcessor.step_cases hq with
    | took _ _ hbuf | handed _ _ hbuf =>
      cases List.mem_singleton.mp hp
      exact (hhead _ _ hbuf).1
    | uploads hl | uploaded hl => exact hheld p (by rw [hl]; exact hp)
    | started | ended | waits | timedOut | settled => cases hp
    | completes _ _ _ =>
      split at hp
      · cases hp
      · exact hheld p hp
    | _ => exact hheld p hp

/-! ## The invariant -/

structure Inv (s : State) : Prop where
  single : Single s.files
  known : Known s

section Run

variable [PerceptualHashService] {folders : Paths} {maxFileAge : Int} {s s' : State} {a : Step}

omit [PerceptualHashService] in
theorem inv_init (disk : String → Option Bytes) (known : List String)
    (creationTime : String → Int) (now : Int) :
    Inv { files := { disk }, known, creationTime, now } where
  single := single_init disk
  known := by
    constructor <;> simp [Scan.files, queued, UploadQueueProcessor.Loop.held]

omit [PerceptualHashService] in
/-- A path that has not been saved has no id. -/
theorem Known.ids_eq_zero (h : Known s) {p : String} (hp : p ∉ s.known) : ids s.files p = 0 := by
  rw [ids, List.count_eq_zero]
  intro hmem
  obtain ⟨x, hx, rfl⟩ := List.mem_map.mp hmem
  exact hp (h.uploaded x hx)

omit [PerceptualHashService] in
/-- Only `UploadFileAsync` answers ids, for the caller's own file. -/
theorem uploaded_of_move {files t : FileSafety.State} {j : Job} {m : Move} {phase : Phase}
    (hm : files.move folders j m = some (t, phase)) :
    t.uploaded = files.uploaded ∨ ∃ bytes, t.uploaded = (j.filePath, bytes) :: files.uploaded := by
  cases FileSafety.move_cases hm with
  | goes _ _ _ _ huploaded _ => exact Or.inl huploaded
  | @answered _ _ bytes driveFileId _ =>
    by_cases hempty : driveFileId = ""
    · exact Or.inl (if_pos hempty)
    · exact Or.inr ⟨bytes, if_neg hempty⟩
  | _ => exact Or.inl rfl

/-- The jobs and the ids after a caller's step. -/
theorem uploaded_of_job {files t : FileSafety.State} {i : Nat} {m : Move}
    (hs : FileSafety.step folders files (.job i m) = some t) :
    (∀ j ∈ t.jobs, ∃ j' ∈ files.jobs, j'.filePath = j.filePath) ∧
      ∀ x ∈ t.uploaded, x ∈ files.uploaded ∨ ∃ j ∈ files.jobs, j.filePath = x.1 := by
  obtain ⟨j, hi, hj⟩ := Option.bind_eq_some_iff.mp hs
  obtain ⟨⟨u, phase⟩, hm, hu⟩ := Option.bind_eq_some_iff.mp hj
  cases hu
  have hj : j ∈ files.jobs := List.mem_of_getElem? hi
  constructor
  · intro j' hj'
    rcases List.mem_or_eq_of_mem_set hj' with hj' | rfl
    · exact ⟨j', hj', rfl⟩
    · exact ⟨j, hj, rfl⟩
  · intro x hx
    rcases uploaded_of_move hm with huploaded | ⟨bytes, huploaded⟩
    · exact Or.inl (huploaded ▸ hx)
    · rcases List.mem_cons.mp (huploaded ▸ hx) with rfl | hx
      · exact Or.inr ⟨j, hj, rfl⟩
      · exact Or.inl hx

omit [PerceptualHashService] in
/-- The queue goes on with the paths it has. -/
theorem Known.queue_step (h : Known s) {a : UploadQueueProcessor.Step}
    {q : UploadQueueProcessor.State} (ha : ∀ p, a ≠ .enqueue p)
    (hq : UploadQueueProcessor.step s.queue a = some q) : Known { s with queue := q } :=
  ⟨h.jobs, h.uploaded, h.scan, fun p hp => h.queue p (mem_queued_of_step ha hq hp)⟩

omit [PerceptualHashService] in
theorem inv_look (h : Inv s) (hs : s.look maxFileAge = some s') : Inv s' := by
  have hscan : ∀ scan : Scan, (∀ p ∈ scan.files, p ∈ s.scan.files) → Inv { s with scan } :=
    fun scan hsub => ⟨h.single, h.known.jobs, h.known.uploaded,
      fun p hp => h.known.scan p (hsub p hp), h.known.queue⟩
  unfold State.look at hs
  split at hs
  · rename_i now p rest found hlisting
    cases hs
    refine hscan _ fun x hx => ?_
    rw [hlisting]
    simp only [Scan.files, List.cons_append, List.mem_cons, List.mem_append] at hx ⊢
    rcases hx with hx | hx
    · exact Or.inr (Or.inl hx)
    · split at hx
      · rcases List.mem_append.mp hx with hx | hx
        · exact Or.inr (Or.inr hx)
        · exact Or.inl (List.mem_singleton.mp hx)
      · exact Or.inr (Or.inr hx)
  · rename_i hlisting
    cases hs
    refine hscan _ fun x hx => ?_
    rw [hlisting]
    exact hx
  · cases hs

omit [PerceptualHashService] in
theorem inv_enqueue (h : Inv s) (hs : s.enqueue = some s') : Inv s' := by
  unfold State.enqueue at hs
  split at hs
  · rename_i p rest henqueuing
    obtain ⟨-, hs⟩ := Option.ite_none_right_eq_some.mp hs
    cases hs
    have hscan : ∀ x ∈ p :: rest, x ∈ s.known := by
      intro x hx
      exact h.known.scan x (by rwa [henqueuing])
    refine ⟨h.single, h.known.jobs, h.known.uploaded,
      fun x hx => hscan x (List.mem_cons_of_mem _ hx), fun x hx => ?_⟩
    unfold UploadQueueProcessor.State.enqueue at hx
    split at hx
    · exact h.known.queue x hx
    · simp only [queued, List.cons_append, List.mem_cons] at hx
      rcases hx with rfl | hx
      · exact hscan x List.mem_cons_self
      · exact h.known.queue x hx
  · obtain ⟨-, hs⟩ := Option.ite_none_right_eq_some.mp hs
    cases hs
    exact ⟨h.single, h.known.jobs, h.known.uploaded, fun x hx => (List.not_mem_nil hx).elim,
      h.known.queue⟩
  · cases hs

/-- **The loop uploads a file** that its handler is done with. -/
theorem inv_upload (h : Inv s) (hharm : Harmless s (.queue .upload))
    (hs : s.queueStep folders .upload = some s') : Inv s' := by
  simp only [State.queueStep] at hs
  split at hs
  · rename_i p hloop
    obtain ⟨files, hfiles, hs⟩ := Option.bind_eq_some_iff.mp hs
    obtain ⟨q, hq, rfl⟩ := Option.map_eq_some_iff.mp hs
    have hp : p ∈ s.queue.loop.held := by simp [hloop, UploadQueueProcessor.Loop.held]
    have hknown : p ∈ s.known := h.known.queue p (List.mem_append_right _ hp)
    simp only [FileSafety.step] at hfiles
    split at hfiles
    · cases hfiles
    · rename_i hidle
      cases hfiles
      have hfree : ∀ j ∈ s.files.jobs, j.filePath = p → j.phase = .finished := by
        intro j hj hpath
        rcases h.single.callers j hj with hcaller | hcaller
        · exact hharm rfl j hj (hpath ▸ hp) hcaller
        · -- the loop has one call at a time
          by_contra hlive
          exact hidle (List.any_eq_true.mpr ⟨j, hj, by simp [hcaller, hlive]⟩)
      refine ⟨h.single.add (Or.inr rfl) hfree (fun hphase => by cases hphase), ?_⟩
      have hqueue := h.known.queue_step (by simp) hq
      refine ⟨fun j hj => ?_, hqueue.uploaded, hqueue.scan, hqueue.queue⟩
      rcases List.mem_append.mp hj with hj | hj
      · exact h.known.jobs j hj
      · cases List.mem_singleton.mp hj
        exact hknown
  · cases hs

theorem inv_queueStep {a : UploadQueueProcessor.Step} (h : Inv s)
    (hharm : Harmless s (.queue a)) (hs : s.queueStep folders a = some s') : Inv s' := by
  have hmap : ∀ {a : UploadQueueProcessor.Step}, (∀ p, a ≠ .enqueue p) →
      (UploadQueueProcessor.step s.queue a).map (fun queue => { s with queue }) = some s' →
      Inv s' := by
    intro a ha hs
    obtain ⟨q, hq, rfl⟩ := Option.map_eq_some_iff.mp hs
    exact ⟨h.single, h.known.queue_step ha hq⟩
  cases a with
  | enqueue p => cases hs
  | complete => cases hs
  | upload => exact inv_upload h hharm hs
  | uploadEnd uploaded =>
    simp only [State.queueStep] at hs
    split at hs
    · cases hs
    · exact hmap (a := .uploadEnd uploaded) (by simp) hs
  | start => exact hmap (a := .start) (by simp) hs
  | track p => exact hmap (a := .track p) (by simp) hs
  | send p => exact hmap (a := .send p) (by simp) hs
  | top => exact hmap (a := .top) (by simp) hs
  | offer => exact hmap (a := .offer) (by simp) hs
  | timeout => exact hmap (a := .timeout) (by simp) hs
  | settle => exact hmap (a := .settle) (by simp) hs
  | completion => exact hmap (a := .completion) (by simp) hs

omit [PerceptualHashService] in
/-- A handler begins, on a path of its own. -/
theorem inv_capture (h : Inv s) {p : String} {bytes : Bytes} (hfresh : p ∉ s.known)
    (lastHashPerMachine : Hashes) :
    Inv { s with
      files := { s.files with
        lastHashPerMachine
        jobs := s.files.jobs ++
          [{ caller := .screenshotHandler, filePath := p, phase := .writing bytes }] }
      known := p :: s.known } := by
  have hfree : ∀ j ∈ s.files.jobs, j.filePath = p → j.phase = .finished := by
    rintro j hj rfl
    exact absurd (h.known.jobs j hj) hfresh
  have hsingle := h.single.add
    (j := { caller := .screenshotHandler, filePath := p, phase := .writing bytes }) (Or.inl rfl)
    hfree fun _ => h.known.ids_eq_zero hfresh
  constructor
  · exact ⟨hsingle.callers, hsingle.alone, hsingle.once, hsingle.unsent, hsingle.gone,
      hsingle.running⟩
  · refine ⟨fun j hj => ?_, fun x hx => List.mem_cons_of_mem _ (h.known.uploaded x hx),
      fun x hx => List.mem_cons_of_mem _ (h.known.scan x hx),
      fun x hx => List.mem_cons_of_mem _ (h.known.queue x hx)⟩
    rcases List.mem_append.mp hj with hj | hj
    · exact List.mem_cons_of_mem _ (h.known.jobs j hj)
    · cases List.mem_singleton.mp hj
      exact List.mem_cons_self

theorem inv_screenshot {message : PipeMessage} {filterDuplicates : Bool} {machineId : String}
    {date time : Civil} (h : Inv s)
    (hs : step folders maxFileAge s
      (.screenshot message filterDuplicates machineId date time) = some s') : Inv s' := by
  simp only [step] at hs
  split at hs
  · cases hs
  · rename_i hfresh
    obtain ⟨files, hfiles, rfl⟩ := Option.map_eq_some_iff.mp hs
    simp only [FileSafety.step, Option.some.injEq] at hfiles
    subst hfiles
    cases haccept : accept folders.screenshotTemp filterDuplicates machineId date time message
      s.files.lastHashPerMachine with
    | mk file last =>
      cases file with
      | none =>
        -- nothing is saved
        simp only [Option.map_none, Option.toList_none, List.append_nil, List.nil_append]
        have hsingle := h.single
        exact ⟨⟨hsingle.callers, hsingle.alone, hsingle.once, hsingle.unsent, hsingle.gone,
          hsingle.running⟩, h.known.jobs, h.known.uploaded, h.known.scan, h.known.queue⟩
      | some file =>
        have hfresh : file.1 ∉ s.known := by simpa [haccept] using hfresh
        exact inv_capture h hfresh last

/-- **A harmless step keeps the invariant.** -/
theorem inv_step (h : Inv s) (hharm : Harmless s a) (hs : step folders maxFileAge s a = some s') :
    Inv s' := by
  cases a with
  | screenshot message filterDuplicates machineId date time => exact inv_screenshot h hs
  | job i m =>
    obtain ⟨t, ht, rfl⟩ := Option.map_eq_some_iff.mp hs
    obtain ⟨hjobs, huploaded⟩ := uploaded_of_job ht
    refine ⟨?_, fun j hj => ?_, fun x hx => ?_, h.known.scan, h.known.queue⟩
    · obtain ⟨j, hi, hj⟩ := Option.bind_eq_some_iff.mp ht
      obtain ⟨⟨u, phase⟩, hm, hu⟩ := Option.bind_eq_some_iff.mp hj
      cases hu
      exact single_move h.single hi (fun hfail => hharm hfail j hi) hm
    · obtain ⟨j', hj', hpath⟩ := hjobs j hj
      exact hpath ▸ h.known.jobs j' hj'
    · rcases huploaded x hx with hx | ⟨j, hj, hpath⟩
      · exact h.known.uploaded x hx
      · exact hpath ▸ h.known.jobs j hj
  | clock now =>
    cases hs
    exact ⟨h.single, h.known.jobs, h.known.uploaded, h.known.scan, h.known.queue⟩
  | scan =>
    obtain ⟨-, hs⟩ := Option.ite_none_right_eq_some.mp hs
    cases hs
    refine ⟨h.single, h.known.jobs, h.known.uploaded, fun p hp => ?_, h.known.queue⟩
    simp only [Scan.files, List.append_nil] at hp
    exact List.mem_of_mem_filter hp
  | look => exact inv_look h hs
  | enqueue => exact inv_enqueue h hs
  | queue a => exact inv_queueStep h hharm hs

/-- **One Drive copy of each file**, in every run whose steps are harmless, whatever files are there
    at its start. -/
theorem once_of_harmless {disk : String → Option Bytes} {known : List String}
    {creationTime : String → Int} {now : Int} {steps : List Step}
    (hharm : EachStep (step folders maxFileAge) (fun s a _ => Harmless s a)
      { files := { disk }, known, creationTime, now } steps) :
    EachState (step folders maxFileAge) Once { files := { disk }, known, creationTime, now }
      steps :=
  ⟨(inv_init disk known creationTime now).single.once,
    eachStep_of_guard (fun _ _ _ h hg hs => inv_step h hg hs)
      (fun _ _ _ h hg hs => (inv_step h hg hs).single.once)
      (inv_init disk known creationTime now) hharm⟩

end Run

/-! ## Two runs of one capture -/

def noon : Civil := ofMillis 1767268800000

/-- `TempFileManager:MaxFileAgeHours`, by default 24. -/
def oneDay : Int := 24 * 60 * 60 * 10000000

def capture : PipeMessage where
  type := .screenshot
  messageId := "a"
  createdUtc := .minValue
  sessionId := 1
  payload := some [137, 80]

def capturePath : String := "Temp\\Screenshots\\2026-01-01\\12-00-00 - Unknown.png"

/-- The capture is saved, and its handler is in `UploadFileAsync`. -/
def saved : List Step :=
  [.screenshot capture false "PC-1" noon noon, .job 0 .write, .job 0 .enter, .job 0 .link,
    .job 0 .choose, .job 0 .acquire, .job 0 .read]

/-- A scan after six minutes, and the upload by the loop. -/
def retried : List Step :=
  [.clock 3600000000, .scan, .look, .look, .enqueue, .queue (.track capturePath),
    .queue (.send capturePath), .queue .start, .queue .top, .queue .upload, .job 1 .enter,
    .job 1 .link, .job 1 .choose, .job 1 .acquire, .job 1 .read, .job 1 (.complete "2x7"),
    .job 1 .settle, .job 1 .delete]

/-- The handler's upload fails. -/
def failedUpload : List Step := saved ++ .job 0 .fail :: retried

/-- The handler's upload is answered, and the notification fails. -/
def failedNotification : List Step := saved ++ .job 0 (.complete "1x9") :: .job 0 .fail :: retried

theorem once_failedUpload :
    EachState (@step FileSafety.noHash FileSafety.folders oneDay) Once
      { files := { disk := fun _ => none } } failedUpload := by
  exact @once_of_harmless FileSafety.noHash FileSafety.folders oneDay (fun _ => none) []
    (fun _ => 0) 0 failedUpload (by decide)

theorem not_once_failedNotification :
    ¬ EachState (@step FileSafety.noHash FileSafety.folders oneDay) Once
      { files := { disk := fun _ => none } } failedNotification := by
  intro h
  have hone := h.last rfl capturePath
  exact absurd hone (by decide)

end Service.TempFileManager
