/-
  THE SESSION LOCK FILE (Storage/SessionSummaryManager.cs): what a controlled exit leaves on the
  disk.

  `InitializeAsync` takes a lock file that it finds for the mark of a crash and writes its own;
  `CompleteSessionAsync` deletes it.  In between every `RegisterException` starts a
  `SaveLockFileAsync` that nobody waits for: it serialises the session, creates the file and writes
  it, each at a time of its own.  A step of the system runs one of them to its next `await`, or up
  to the next access to the disk.

  1. **The disk** — a file is known by a number, so that a write through an open handle does not
     reach a file that has since been created under the same name.

  2. **The two modes** of a completed session: the file is gone, or a background write has created
     it again, and then nothing removes it (`step_completed`).

  3. `notReported_iff`: a completed session is not reported as a crash iff no background write has
     created the file after the deletion.
-/
import Vorsight.Library.Run

namespace Service.SessionLock

/-! ## The lock file -/

/-- `SessionSummary`. -/
structure SessionSummary where
  exitReason : String := "Running"
  exceptions : List String := []
deriving DecidableEq, Repr

/-- A file under `_lockFilePath`; without contents it has been created and not yet written. -/
structure LockFile where
  file : Nat
  contents : Option SessionSummary
deriving DecidableEq, Repr

structure Disk where
  lockFile : Option LockFile := none
  /-- the number of the next file -/
  next : Nat := 0
deriving DecidableEq, Repr

/-- `FileMode.Create`: a file that exists is truncated.  The number is that of the open file. -/
def Disk.create (d : Disk) : Nat × Disk :=
  match d.lockFile with
  | some lockFile => (lockFile.file, { d with lockFile := some { lockFile with contents := none } })
  | none => (d.next, { lockFile := some ⟨d.next, none⟩, next := d.next + 1 })

/-- The text reaches the file that was opened, if it is still there. -/
def Disk.write (d : Disk) (file : Nat) (json : SessionSummary) : Disk :=
  { d with
    lockFile := d.lockFile.map fun lockFile =>
      if lockFile.file = file then { lockFile with contents := some json } else lockFile }

/-- `File.Delete`. -/
def Disk.delete (d : Disk) : Disk := { d with lockFile := none }

/-! ## The manager -/

/-- Where a `SaveLockFileAsync` stands. -/
inductive Write
  /-- before `JsonSerializer.Serialize` -/
  | serializing
  /-- before `File.WriteAllTextAsync` has opened the file -/
  | opening (json : SessionSummary)
  | writing (file : Nat) (json : SessionSummary)
  | finished
deriving DecidableEq, Repr

/-- Where the session stands between `InitializeAsync` and the end of `CompleteSessionAsync`. -/
inductive Phase
  | starting
  /-- `InitializeAsync` has found a lock file -/
  | recovering
  /-- `InitializeAsync`, at `await SaveLockFileAsync()` -/
  | saving (write : Write)
  | running
  /-- `CompleteSessionAsync`, at `await UploadSummaryAsync(_currentSession)` -/
  | uploading
  /-- `CompleteSessionAsync`, between `File.Exists` and `File.Delete` -/
  | deleting
  | completed
deriving DecidableEq, Repr

structure State where
  disk : Disk
  currentSession : SessionSummary := {}
  phase : Phase := .starting
  /-- the `SaveLockFileAsync` calls of `RegisterException` -/
  writes : List Write := []
  /-- "Previous session likely crashed" -/
  crashed : Bool := false
  /-- the summary that `InitializeAsync` uploads of the session before -/
  recovered : Option SessionSummary := none
deriving DecidableEq, Repr

/-- The process starts on the disk that the one before has left. -/
def start (disk : Disk) : State := { disk }

inductive Label
  /-- `InitializeAsync` up to its first `await` -/
  | initializeAsync
  /-- the lock file is read and the summary is uploaded -/
  | recover
  | save
  | saveFails
  | registerException (text : String)
  | write (i : Nat)
  | writeFails (i : Nat)
  | completeSessionAsync (reason : String)
  /-- `UploadSummaryAsync` returns, with or without success, and `File.Exists` is asked -/
  | uploaded
  | delete
deriving DecidableEq, Repr

/-- `SaveLockFileAsync` goes on. -/
def Write.advance (currentSession : SessionSummary) (d : Disk) : Write → Option (Write × Disk)
  | .serializing => some (.opening currentSession, d)
  | .opening json => some (.writing d.create.1 json, d.create.2)
  | .writing file json => some (.finished, d.write file json)
  | .finished => none

/-- `InitializeAsync` goes on once its own write has finished. -/
def Phase.afterSave : Write → Phase
  | .finished => .running
  | write => .saving write

def step (s : State) : Label → Option State
  | .initializeAsync =>
    match s.phase with
    | .starting =>
      if s.disk.lockFile.isSome then some { s with crashed := true, phase := .recovering }
      else some { s with phase := .saving .serializing }
    | _ => none
  | .recover =>
    match s.phase with
    | .recovering =>
      -- an empty text does not deserialise, and the exception is logged
      let prevSession := s.disk.lockFile.bind LockFile.contents
      some { s with
        recovered := prevSession.map fun prev => { prev with exitReason := "Crash" }
        phase := .saving .serializing }
    | _ => none
  | .save =>
    match s.phase with
    | .saving write => (write.advance s.currentSession s.disk).map fun (write', disk) =>
        { s with disk, phase := .afterSave write' }
    | _ => none
  | .saveFails =>
    match s.phase with
    | .saving .serializing => some { s with phase := .running }
    | _ => none
  | .registerException text =>
    let exceptions := s.currentSession.exceptions ++ [text]
    some { s with
      currentSession := { s.currentSession with exceptions }
      writes := s.writes ++ [.serializing] }
  | .write i =>
    match s.writes[i]? with
    | some write => (write.advance s.currentSession s.disk).map fun (write', disk) =>
        { s with disk, writes := s.writes.set i write' }
    | none => none
  | .writeFails i =>
    -- the list of exceptions was changed while it was serialised
    if s.writes[i]? = some .serializing then some { s with writes := s.writes.set i .finished }
    else none
  | .completeSessionAsync reason =>
    if s.phase = .running then
      some { s with
        currentSession := { s.currentSession with exitReason := reason }
        phase := .uploading }
    else none
  | .uploaded =>
    if s.phase = .uploading then
      some { s with phase := if s.disk.lockFile.isSome then .deleting else .completed }
    else none
  | .delete =>
    if s.phase = .deleting then some { s with disk := s.disk.delete, phase := .completed }
    else none

/-! ## A completed session -/

/-- The lock file is gone, and `InitializeAsync` of the next process finds none. -/
def NotReported (s : State) : Prop :=
  s.disk.lockFile = none ∧
    ∀ s', step (start s.disk) .initializeAsync = some s' → s'.crashed = false

/-- The next step of the write creates the file. -/
def Write.opens : Write → Bool
  | .opening _ => true
  | _ => false

/-- A background write creates the file in this step. -/
def creates (s : State) : Label → Bool
  | .write i => s.writes[i]?.any Write.opens
  | _ => false

/-- No background write creates the file once `CompleteSessionAsync` has deleted it, or has found
    none. -/
def Harmless (s : State) (l : Label) : Prop := s.phase = .completed → creates s l = false

instance (s : State) (l : Label) : Decidable (Harmless s l) :=
  inferInstanceAs (Decidable (s.phase = .completed → creates s l = false))

variable {s s' : State} {l : Label}

theorem notReported_iff_absent (s : State) : NotReported s ↔ s.disk.lockFile = none := by
  constructor
  · exact fun h => h.1
  · intro habsent
    refine ⟨habsent, ?_⟩
    intro s' hs'
    simp only [step, start, habsent] at hs'
    cases hs'
    rfl

theorem Disk.create_ne_none (d : Disk) : d.create.2.lockFile ≠ none := by
  unfold Disk.create
  cases d.lockFile with
  | none => exact Option.some_ne_none _
  | some lockFile => exact Option.some_ne_none _

theorem Disk.write_eq_none (d : Disk) (file : Nat) (json : SessionSummary) :
    (d.write file json).lockFile = none ↔ d.lockFile = none := Option.map_eq_none_iff

/-- What a write does to the presence of the file: only its opening matters. -/
theorem Write.advance_eq_none {currentSession : SessionSummary} {d d' : Disk} {w w' : Write}
    (h : w.advance currentSession d = some (w', d')) :
    d'.lockFile = none ↔ d.lockFile = none ∧ w.opens = false := by
  cases w with
  | serializing =>
    cases h
    simp [Write.opens]
  | opening json =>
    cases h
    have hcreated := d.create_ne_none
    simp [Write.opens, hcreated]
  | writing file json =>
    cases h
    simp [Write.opens, Disk.write_eq_none]
  | finished => cases h

/-- **What a completed session looks like after a step**: either the step has completed it, without
    a lock file, or it was completed before and the step leaves no lock file iff there was none and
    no background write creates one. -/
theorem step_completed (hs : step s l = some s') (hcompleted : s'.phase = .completed) :
    (s.phase ≠ .completed ∧ s'.disk.lockFile = none) ∨
      (s.phase = .completed ∧
        (s'.disk.lockFile = none ↔ s.disk.lockFile = none ∧ creates s l = false)) := by
  cases l with
  | initializeAsync =>
    simp only [step] at hs
    split at hs
    · split at hs <;> cases hs <;> cases hcompleted
    · cases hs
  | recover =>
    simp only [step] at hs
    split at hs <;> cases hs
    cases hcompleted
  | save =>
    simp only [step] at hs
    split at hs
    · obtain ⟨⟨write', disk⟩, -, rfl⟩ := Option.map_eq_some_iff.mp hs
      cases write' <;> cases hcompleted
    · cases hs
  | saveFails =>
    simp only [step] at hs
    split at hs <;> cases hs
    cases hcompleted
  | registerException text =>
    cases hs
    exact .inr ⟨hcompleted, by simp [creates]⟩
  | write i =>
    simp only [step] at hs
    split at hs
    · rename_i write hwrite
      obtain ⟨⟨write', disk⟩, hadvance, rfl⟩ := Option.map_eq_some_iff.mp hs
      refine .inr ⟨hcompleted, ?_⟩
      rw [Write.advance_eq_none hadvance]
      simp [creates, hwrite]
    · cases hs
  | writeFails i =>
    simp only [step] at hs
    split at hs <;> cases hs
    exact .inr ⟨hcompleted, by simp [creates]⟩
  | completeSessionAsync reason =>
    simp only [step] at hs
    split at hs <;> cases hs
    cases hcompleted
  | uploaded =>
    simp only [step] at hs
    split at hs <;> cases hs
    rename_i huploading
    refine .inl ⟨by simp [huploading], ?_⟩
    by_cases hfound : s.disk.lockFile.isSome
    · simp [hfound] at hcompleted
    · exact Option.not_isSome_iff_eq_none.mp hfound
  | delete =>
    simp only [step] at hs
    split at hs <;> cases hs
    rename_i hdeleting
    exact .inl ⟨by simp [hdeleting], rfl⟩

/-- A completed session stays completed. -/
theorem step_phase_completed (hs : step s l = some s') (hcompleted : s.phase = .completed) :
    s'.phase = .completed := by
  cases l <;> simp only [step, hcompleted] at hs
  case registerException text =>
    cases hs
    rfl
  case write i =>
    split at hs
    · obtain ⟨⟨write', disk⟩, -, rfl⟩ := Option.map_eq_some_iff.mp hs
      rfl
    · cases hs
  case writeFails i =>
    split at hs <;> cases hs
    rfl
  all_goals simp at hs

/-- **A controlled exit**: once the session is completed, it is not reported as a crash iff no
    background write has created the lock file after its deletion. -/
theorem notReported_iff {disk : Disk} {labels : List Label} {s' : State}
    (hr : Runs.run step (start disk) labels = some s') (hcompleted : s'.phase = .completed) :
    NotReported s' ↔ Runs.EachStep step (fun s l _ => Harmless s l) (start disk) labels := by
  have hmodes := Runs.mode_of_run (G := Harmless)
    (I := fun s => s.phase = .completed → s.disk.lockFile = none)
    (J := fun s => s.phase = .completed ∧ s.disk.lockFile ≠ none) ?keep ?leave ?stay ?start hr
  case keep =>
    intro s l s' habsent hharmless hs hcompleted'
    rcases step_completed hs hcompleted' with ⟨-, h⟩ | ⟨hcompleted, hiff⟩
    · exact h
    · exact hiff.mpr ⟨habsent hcompleted, hharmless hcompleted⟩
  case leave =>
    intro s l s' _ hbreak hs
    have hcompleted : s.phase = .completed := (Classical.not_imp.mp hbreak).1
    have hcompleted' := step_phase_completed hs hcompleted
    refine ⟨hcompleted', ?_⟩
    rcases step_completed hs hcompleted' with ⟨hnot, -⟩ | ⟨-, hiff⟩
    · exact absurd hcompleted hnot
    · intro hnone
      exact hbreak fun _ => (hiff.mp hnone).2
  case stay =>
    rintro s l s' ⟨hcompleted, hpresent⟩ hs
    have hcompleted' := step_phase_completed hs hcompleted
    refine ⟨hcompleted', ?_⟩
    rcases step_completed hs hcompleted' with ⟨hnot, -⟩ | ⟨-, hiff⟩
    · exact absurd hcompleted hnot
    · exact fun hnone => hpresent (hiff.mp hnone).1
  case start =>
    intro h
    cases h
  rw [notReported_iff_absent]
  rcases hmodes with ⟨hall, habsent⟩ | ⟨hnot, -, hpresent⟩
  · exact iff_of_true (habsent hcompleted) hall
  · exact iff_of_false hpresent hnot

/-! ## An exception close to the end -/

/-- The session starts and registers an exception. -/
def session (rest : List Label) : List Label :=
  [.initializeAsync, .save, .save, .save, .registerException "IOException"] ++ rest

/-- The write of the exception finishes while the summary is uploaded. -/
theorem notReported_iff_early : NotReported
    { disk := { next := 1 }
      currentSession := { exitReason := "Controlled Exit", exceptions := ["IOException"] }
      phase := .completed, writes := [.finished] } :=
  (@notReported_iff {} (session [.completeSessionAsync "Controlled Exit", .write 0, .write 0,
    .write 0, .uploaded, .delete]) _ rfl rfl).mpr (by decide)

/-- The write of the exception opens the file after it has been deleted: the next start reports a
    crash. -/
theorem not_notReported_late : ∃ s', Runs.run step (start {})
    (session [.completeSessionAsync "Controlled Exit", .uploaded, .delete, .write 0, .write 0,
      .write 0]) = some s' ∧ s'.phase = .completed ∧ (∀ w ∈ s'.writes, w = .finished) ∧
    ¬ NotReported s' := by
  refine ⟨_, rfl, rfl, by decide, ?_⟩
  rw [notReported_iff_absent]
  decide

end Service.SessionLock
