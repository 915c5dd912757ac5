/-
  THE DUPLICATE FILTER, over every behaviour of the image-hash library
  (Vorsight.Service/Utilities/PerceptualHashService.cs, Agents/ScreenshotHandler.cs).

  Each call of the library may return anything or throw, and two comparisons of the same hashes
  need not agree.  A screenshot is compared twice: once for the log, and once in `IsSimilar`, which
  decides.

  1. **The filter** (`handle`): `GetSimilarityPercentage` takes an error for 100, "completely
     different", and `IsSimilar` takes 100 for similar.  The threshold is the interface's default,
     95, not the class's.  With comparisons that do not vary this is the filter in front of a file
     (`accept_eq`).

  2. **The references** (`tracked_step`): in every run the hash kept for a machine is that of its
     most recent filtered screenshot that was kept and had one.

  3. `confirmed_iff`: every screenshot of a run is dropped for a reason exactly when no deciding
     comparison fails.
-/
import Vorsight.Library.Binary64
import Vorsight.Library.Run
import Vorsight.Service.ScreenshotHandler

namespace Service.DuplicateFilter

open Binary64 Codec Ipc Service.ScreenshotHandler

/-! ## The hash service -/

/-- What happens in the `try` block of `GetSimilarityPercentage`; `none` is an exception. -/
abbrev Correlation := String → String → Option Value

def getSimilarityPercentage (correlation : Correlation) (hash1 hash2 : String) : Value :=
  if hash1 = "" ∨ hash2 = "" then .finite 100  -- Treat as completely different
  else
    match correlation hash1 hash2 with
    | some value => value.times 100
    | none => .finite 100  -- On any error, treat as completely different

/-- `IsSimilar`, with the default of `IPerceptualHashService`. -/
def isSimilar (correlation : Correlation) (hash1 hash2 : String) : Bool :=
  (getSimilarityPercentage correlation hash1 hash2).ge 95

/-! ## The filter -/

/-- A message, with what is read while it is handled and what the library does. -/
structure Capture where
  message : PipeMessage
  filterDuplicates : Bool
  machineId : Option String
  /-- the result of `ComputeHash`; `none` is an exception -/
  hash : Option String
  /-- the comparison of `IsSimilar` -/
  correlation : Correlation

/-- `_serverConnection.MachineId ?? "unknown"` -/
def Capture.machine (c : Capture) : String := c.machineId.getD "unknown"

def Capture.manual (c : Capture) : Bool := isManual (parseMetadata c.message.metadata).triggerType

inductive Fate
  /-- there is no payload -/
  | empty
  /-- "Screenshot skipped - too similar to previous" -/
  | dropped
  | kept
deriving DecidableEq, Repr

/-- The hash that the filter has for a screenshot, when it is on. -/
def Capture.filtered (c : Capture) : Option String :=
  if c.filterDuplicates && !c.manual then c.hash.filter (· ≠ "") else none

/-- `HandleScreenshotMessageAsync`, up to the file. -/
def handle (last : Hashes) (c : Capture) : Fate × Hashes :=
  match c.message.payload with
  | none | some [] => (.empty, last)
  | some _ =>
    match c.filtered with
    | none => (.kept, last)
    | some currentHash =>
      let next := Function.update last c.machine (some currentHash)
      match last c.machine with
      | some lastHash =>
        if isSimilar c.correlation currentHash lastHash then (.dropped, last) else (.kept, next)
      | none => (.kept, next)

/-- What a message comes to. -/
theorem handle_cases (last : Hashes) (c : Capture) :
    (c.message.payload.getD [] = [] ∧ handle last c = (.empty, last)) ∨
    (c.filtered = none ∧ handle last c = (.kept, last)) ∨
    ∃ currentHash, c.message.payload.getD [] ≠ [] ∧ c.filtered = some currentHash ∧
      ((∃ lastHash, last c.machine = some lastHash ∧
          isSimilar c.correlation currentHash lastHash = true ∧ handle last c = (.dropped, last)) ∨
        (∀ lastHash, last c.machine = some lastHash →
          isSimilar c.correlation currentHash lastHash = false) ∧
        handle last c = (.kept, Function.update last c.machine (some currentHash))) := by
  unfold handle
  rcases hpayload : c.message.payload with _ | ⟨_ | ⟨byte, bytes⟩⟩
  · exact .inl ⟨rfl, rfl⟩
  · exact .inl ⟨rfl, rfl⟩
  · refine .inr ?_
    dsimp only
    cases hfiltered : c.filtered with
    | none => exact .inl ⟨rfl, rfl⟩
    | some currentHash =>
      refine .inr ⟨currentHash, List.cons_ne_nil _ _, rfl, ?_⟩
      dsimp only
      cases hlast : last c.machine with
      | none =>
        refine .inr ⟨fun lastHash h => ?_, rfl⟩
        cases h
      | some lastHash =>
        dsimp only
        cases hsimilar : isSimilar c.correlation currentHash lastHash with
        | true => exact .inl ⟨lastHash, rfl, hsimilar, if_pos rfl⟩
        | false =>
          refine .inr ⟨fun other h => ?_, if_neg Bool.false_ne_true⟩
          cases h
          exact hsimilar

theorem checkDuplicate_eq [PerceptualHashService] {payload : Bytes} {hash machine : String}
    {last : Hashes} (hhash : PerceptualHashService.computeHash payload = some hash)
    (hne : hash ≠ "") : checkDuplicate payload machine last =
      match last machine with
      | some lastHash =>
        if PerceptualHashService.isSimilar hash lastHash then (true, last)
        else (false, Function.update last machine (some hash))
      | none => (false, Function.update last machine (some hash)) := by
  unfold checkDuplicate
  split
  · rename_i hnone
    rw [hhash] at hnone
    cases hnone
  · rename_i hempty
    rw [hhash] at hempty
    exact absurd (Option.some.inj hempty) hne
  · rename_i hsome
    rw [hhash] at hsome
    cases hsome
    rfl

/-- The filter in front of a file, whose hashes and comparisons are functions of the images. -/
theorem accept_eq [PerceptualHashService] {c : Capture} {last : Hashes} (tempPath : String)
    (date time : Time.Civil)
    (hhash : ∀ payload, c.message.payload = some payload →
      c.hash = PerceptualHashService.computeHash payload)
    (hsimilar : ∀ hash1 hash2, isSimilar c.correlation hash1 hash2 =
      PerceptualHashService.isSimilar hash1 hash2) :
    accept tempPath c.filterDuplicates c.machine date time c.message last =
      ((if (handle last c).1 = .kept then c.message.payload else none).map fun payload =>
        (screenshotPath tempPath date time (parseMetadata c.message.metadata).windowTitle, payload),
        (handle last c).2) := by
  unfold accept handle
  rcases hpayload : c.message.payload with _ | ⟨_ | ⟨byte, bytes⟩⟩
  · rfl
  · rfl
  · dsimp only
    unfold Capture.filtered Capture.manual
    cases c.filterDuplicates && !isManual (parseMetadata c.message.metadata).triggerType with
    | false => rfl
    | true =>
      have hcompute := (hhash _ hpayload).symm
      rw [if_pos rfl, if_pos rfl]
      rcases hcomputed : c.hash with _ | hash
      · rw [hcomputed] at hcompute
        rw [checkDuplicate, hcompute]
        rfl
      · rw [hcomputed] at hcompute
        by_cases hempty : hash = ""
        · subst hempty
          rw [checkDuplicate, hcompute]
          rfl
        · rw [checkDuplicate_eq hcompute hempty, Option.filter_some,
            if_pos (decide_eq_true hempty)]
          dsimp only
          cases last c.machine with
          | none => rfl
          | some lastHash =>
            have hsame := hsimilar hash lastHash
            cases hresult : isSimilar c.correlation hash lastHash with
            | true => simp [← hsame, hresult]
            | false => simp [← hsame, hresult]

/-! ## Runs -/

/-- The hashes, and beside them the filtered screenshots that were kept and had one, with their
    machine: the most recent one is the first. -/
structure State where
  last : Hashes := fun _ => none
  kept : List (String × String) := []

def step (s : State) (c : Capture) : Option State :=
  some {
    last := (handle s.last c).2
    kept :=
      match (handle s.last c).1, c.filtered with
      | .kept, some hash => (c.machine, hash) :: s.kept
      | _, _ => s.kept }

/-- The hash of the machine's most recent filtered screenshot that was kept and had one. -/
def State.reference (s : State) (machine : String) : Option String := s.kept.lookup machine

/-- The references are as they should be; and what is dropped is not manual, filtering is on, there
    is a hash, and a value was computed for it and the reference. -/
def Confirmed (s : State) (c : Capture) : Prop :=
  s.last = s.reference ∧
    ((handle s.last c).1 = .dropped → c.manual = false ∧ c.filterDuplicates = true ∧
      ∃ hash reference value, c.hash = some hash ∧ s.reference c.machine = some reference ∧
        c.correlation hash reference = some value)

/-- The comparison that decides about the screenshot fails. -/
def Fails (s : State) (c : Capture) : Prop :=
  c.message.payload.getD [] ≠ [] ∧ ∃ hash reference, c.filtered = some hash ∧
    s.reference c.machine = some reference ∧ c.correlation hash reference = none

/-- The dictionary's hashes are the references. -/
def Tracked (s : State) : Prop := s.last = s.reference

variable {s s' : State} {c : Capture}

theorem filtered_eq_some {hash : String} : c.filtered = some hash ↔
    c.filterDuplicates = true ∧ c.manual = false ∧ c.hash = some hash ∧ hash ≠ "" := by
  unfold Capture.filtered
  cases c.filterDuplicates <;> cases c.manual <;> simp [Option.filter_eq_some_iff]

theorem tracked_step (h : Tracked s) (hstep : step s c = some s') : Tracked s' := by
  cases hstep
  rcases handle_cases s.last c with ⟨-, hcall⟩ | ⟨hnone, hcall⟩ |
    ⟨hash, -, hsome, ⟨lastHash, -, -, hcall⟩ | ⟨-, hcall⟩⟩
  · rw [hcall]
    exact h
  · rw [hcall, hnone]
    exact h
  · rw [hcall]
    exact h
  · rw [hcall, hsome]
    show Function.update s.last c.machine (some hash) = _
    funext machine
    show _ = List.lookup machine ((c.machine, hash) :: s.kept)
    by_cases hmachine : machine = c.machine
    · rw [hmachine, Function.update_self, List.lookup_cons_self]
    · rw [Function.update_of_ne hmachine, List.lookup_cons, beq_false_of_ne hmachine, h]
      rfl

/-- On a failed comparison the screenshot counts as similar. -/
theorem isSimilar_of_none {correlation : Correlation} {hash1 hash2 : String}
    (h : correlation hash1 hash2 = none) : isSimilar correlation hash1 hash2 = true := by
  unfold isSimilar getSimilarityPercentage
  rw [h, ite_self]
  decide

/-- One screenshot is dropped for a reason exactly when the deciding comparison does not fail. -/
theorem confirmed_step_iff (h : Tracked s) : Confirmed s c ↔ ¬ Fails s c := by
  constructor
  · rintro ⟨-, hdropped⟩ ⟨hpayload, hash, reference, hfiltered, hreference, hnone⟩
    have hlast : s.last c.machine = some reference := by
      rw [show s.last = s.reference from h, hreference]
    have hfate : (handle s.last c).1 = .dropped := by
      rcases handle_cases s.last c with ⟨hempty, -⟩ | ⟨hoff, -⟩ |
        ⟨hash', -, hsome, ⟨lastHash, -, -, hcall⟩ | ⟨hdifferent, -⟩⟩
      · exact absurd hempty hpayload
      · rw [hfiltered] at hoff
        cases hoff
      · rw [hcall]
      · rw [hfiltered] at hsome
        cases hsome
        exact absurd (isSimilar_of_none hnone) (Bool.eq_false_iff.mp (hdifferent _ hlast))
    obtain ⟨-, -, hash', reference', value, hhash', hreference', hvalue⟩ := hdropped hfate
    have hhash := (filtered_eq_some.mp hfiltered).2.2.1
    rw [hhash] at hhash'
    rw [hreference] at hreference'
    cases hhash'
    cases hreference'
    rw [hnone] at hvalue
    cases hvalue
  · intro hfails
    refine ⟨h, fun hdropped => ?_⟩
    rcases handle_cases s.last c with ⟨-, hcall⟩ | ⟨-, hcall⟩ |
      ⟨hash, hpayload, hsome, ⟨lastHash, hlast, -, hcall⟩ | ⟨-, hcall⟩⟩
    · rw [hcall] at hdropped
      cases hdropped
    · rw [hcall] at hdropped
      cases hdropped
    · obtain ⟨hon, hmanual, hhash, -⟩ := filtered_eq_some.mp hsome
      have hreference : s.reference c.machine = some lastHash := by
        rw [← show s.last = s.reference from h, hlast]
      cases hvalue : c.correlation hash lastHash with
      | none => exact absurd ⟨hpayload, hash, lastHash, hsome, hreference, hvalue⟩ hfails
      | some value => exact ⟨hmanual, hon, hash, lastHash, value, hhash, hreference, hvalue⟩
    · rw [hcall] at hdropped
      cases hdropped

/-- **The filter drops only what it has compared**: in a run of messages from no hashes on, with any
    behaviour of the library, each reference is the machine's most recent filtered screenshot that
    was kept and had a hash, and what is dropped was compared with it, exactly when no deciding
    comparison fails. -/
theorem confirmed_iff {captures : List Capture} :
    Runs.EachStep step (fun s c _ => Confirmed s c) {} captures ↔
      Runs.EachStep step (fun s c _ => ¬ Fails s c) {} captures := by
  have hstart : Tracked {} := rfl
  exact Runs.eachStep_iff (G := fun s c => ¬ Fails s c)
    (fun s c s' h _ hstep => tracked_step h hstep) (fun s c s' h _ => confirmed_step_iff h) hstart

/-- On a computer that keeps its id, the reference is the most recent of all. -/
theorem reference_eq_head {captures : List Capture} {machine : String}
    (h : ∀ c ∈ captures, c.machine = machine) (hrun : Runs.run step {} captures = some s) :
    s.reference machine = s.kept.head?.map (·.2) := by
  have hkeep : ∀ (s : State) (c : Capture) (s' : State), (∀ entry ∈ s.kept, entry.1 = machine) →
      c.machine = machine → step s c = some s' → ∀ entry ∈ s'.kept, entry.1 = machine := by
    rintro s c s' hkept hmachine ⟨⟩ entry hentry
    dsimp only at hentry
    split at hentry
    · rcases List.mem_cons.mp hentry with rfl | hentry
      · exact hmachine
      · exact hkept entry hentry
    · exact hkept entry hentry
  have hkept := Runs.inv_of_guard hkeep (fun entry hentry => by cases hentry)
    (Runs.eachStep_of_labels h) hrun
  unfold State.reference
  cases hlist : s.kept with
  | nil => rfl
  | cons entry rest =>
    rw [← hkept entry (hlist ▸ List.mem_cons_self)]
    exact List.lookup_cons_self

/-- An automatic screenshot, with its hash and a comparison. -/
def screenshot (hash : String) (correlation : Correlation) : Capture where
  message := {
    type := .screenshot, messageId := "1", createdUtc := .minValue, sessionId := 1,
    payload := some [0x89], metadata := some "Title:Mail|Type:Auto" }
  filterDuplicates := true
  machineId := some "desk"
  hash := some hash
  correlation := correlation

/-- The second screenshot cannot be compared with the first one, and is dropped. -/
theorem not_confirmed_failedComparison : ¬ ∀ captures : List Capture,
    Runs.EachStep step (fun s c _ => Confirmed s c) {} captures := by
  intro h
  obtain ⟨-, hrest⟩ :=
    h [screenshot "AAEC" fun _ _ => none, screenshot "AwQF" fun _ _ => none] _ rfl
  obtain ⟨⟨-, hdropped⟩, -⟩ := hrest _ rfl
  obtain ⟨-, -, hash, reference, value, -, -, hvalue⟩ := hdropped (by decide +kernel)
  cases hvalue

end Service.DuplicateFilter
