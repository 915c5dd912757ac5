/-
  THE UPTIME MONITOR (Vorsight.Infrastructure/Uptime/UptimeMonitor.cs).

  A heartbeat starts an interval, or moves the end of the current one; for either the whole file is
  read, changed and written back.  What the intervals are is kept in memory, which runs ahead of the
  file whenever a write fails, and is empty again after a restart of the service.

  1. **The file** (`loadIntervals`, `saveIntervals`): an error while reading gives the empty list,
     and the text is written twice, so that what the first write leaves is what stays.

  2. **Well-formedness** (`wellFormed_run`): while reads succeed and the clock does not go back,
     the intervals of the file are ordered.  The crux is `Follows`: the current interval is the
     file's last one, or the file has nothing that ends after its start.

  3. **Loss** (`keeps_iff`): each recorded interval is still there later exactly when no heartbeat
     writes what it has read in vain, and none moves an end back.
-/
import Mathlib.Data.List.Chain
import Mathlib.Tactic.ByContra
import Vorsight.Library.Run
import Vorsight.Library.Time

namespace Service.UptimeMonitor

open Time

structure UptimeInterval where
  startTime : DateTime
  endTime : DateTime
deriving DecidableEq, Repr

/-! ## The file -/

/-- `uptime.json`, if it exists. -/
abbrev File := Option (List UptimeInterval)

/-- Which file operations of a heartbeat succeed. -/
structure Disk where
  read : Bool := true
  firstWrite : Bool := true
  secondWrite : Bool := true
deriving DecidableEq, Repr

def loadIntervals (disk : Disk) : File → List UptimeInterval
  | none => []
  | some intervals => if disk.read then intervals else []

/-- `File.WriteAllText`; an exception leaves the file as it was. -/
def writeAllText (succeeds : Bool) (intervals : List UptimeInterval) (file : File) :
    Except File File :=
  if succeeds then .ok (some intervals) else .error file

/-- The same text, twice. -/
def saveIntervals (disk : Disk) (intervals : List UptimeInterval) (file : File) :
    Except File File :=
  (writeAllText disk.firstWrite intervals file).bind (writeAllText disk.secondWrite intervals)

/-- `try { ... } catch (Exception) { }` -/
def suppress : Except File File → File
  | .ok file => file
  | .error file => file

def appendInterval (disk : Disk) (interval : UptimeInterval) (file : File) : File :=
  suppress (saveIntervals disk (loadIntervals disk file ++ [interval]) file)

/-- `intervals.Add(new UptimeInterval { Start = _currentStart!.Value, End = newEnd })`, saved. -/
def addCurrent (disk : Disk) (currentStart : Option DateTime) (newEnd : DateTime)
    (intervals : List UptimeInterval) (file : File) : Except File File :=
  match currentStart with
  | some start => saveIntervals disk (intervals ++ [⟨start, newEnd⟩]) file
  | none => .error file  -- `Value` throws

def updateLastIntervalEnd (disk : Disk) (currentStart : Option DateTime) (newEnd : DateTime)
    (file : File) : File :=
  let intervals := loadIntervals disk file
  suppress <|
    match intervals.getLast? with
    | some last =>
      if some last.startTime = currentStart then
        saveIntervals disk (intervals.dropLast ++ [{ last with endTime := newEnd }]) file
      else addCurrent disk currentStart newEnd intervals file
    | none => addCurrent disk currentStart newEnd intervals file

/-! ## Heartbeats -/

structure State where
  currentStart : Option DateTime := none
  lastSeen : Option DateTime := none
  file : File := none
  /-- the last reading of the clock -/
  clock : DateTime := .minValue
deriving DecidableEq, Repr

/-- Five minutes, in ticks. -/
def threshold : Int := 5 * 60 * ticksPerSecond

/-- The first heartbeat, or one after a large gap. -/
def State.Starts (s : State) (now : DateTime) : Prop :=
  s.lastSeen = none ∨ ∃ lastSeen, s.lastSeen = some lastSeen ∧ threshold < now.since lastSeen

instance (s : State) (now : DateTime) : Decidable (s.Starts now) :=
  match h : s.lastSeen with
  | none => .isTrue (.inl h)
  | some lastSeen => decidable_of_iff (threshold < now.since lastSeen) (by simp [State.Starts, h])

def recordHeartbeat (now : DateTime) (disk : Disk) (s : State) : State :=
  if s.Starts now then
    { currentStart := some now, lastSeen := some now,
      file := appendInterval disk ⟨now, now⟩ s.file, clock := now }
  else
    { s with
      lastSeen := some now
      file := updateLastIntervalEnd disk s.currentStart now s.file
      clock := now }

inductive Event
  | heartbeat (now : DateTime) (disk : Disk)
  /-- of the service: a new `UptimeMonitor` -/
  | restart

def step (s : State) : Event → Option State
  | .heartbeat now disk => some (recordHeartbeat now disk s)
  | .restart => some { file := s.file, clock := s.clock }

/-- What is in the file. -/
def State.intervals (s : State) : List UptimeInterval := s.file.getD []

variable {s s' : State} {event : Event} {disk : Disk} {file : File} {now start : DateTime}
  {intervals : List UptimeInterval} {interval : UptimeInterval}

/-! ## What a heartbeat does to the file -/

/-- The second write only repeats the first one. -/
theorem suppress_saveIntervals : suppress (saveIntervals disk intervals file) =
    if disk.firstWrite then some intervals else file := by
  unfold saveIntervals writeAllText
  cases disk.firstWrite with
  | false => rfl
  | true => cases disk.secondWrite <;> rfl

/-- The current interval in place of the last one, if that begins with it, else behind it. -/
def put (intervals : List UptimeInterval) (interval : UptimeInterval) : List UptimeInterval :=
  match intervals.getLast? with
  | some last =>
    if last.startTime = interval.startTime then intervals.dropLast ++ [interval]
    else intervals ++ [interval]
  | none => [interval]

theorem put_nil : put [] interval = [interval] := rfl

theorem put_concat (earlier : List UptimeInterval) (last : UptimeInterval) :
    put (earlier ++ [last]) interval =
      if last.startTime = interval.startTime then earlier ++ [interval]
      else earlier ++ [last] ++ [interval] := by
  unfold put
  rw [List.getLast?_concat, List.dropLast_concat]

theorem getLast?_put : (put intervals interval).getLast? = some interval := by
  rcases List.eq_nil_or_concat' intervals with rfl | ⟨earlier, last, rfl⟩
  · rfl
  · rw [put_concat]
    split
    · exact List.getLast?_concat
    · exact List.getLast?_concat

theorem updateLastIntervalEnd_none :
    updateLastIntervalEnd disk none now file = file := by
  unfold updateLastIntervalEnd addCurrent
  dsimp only
  split
  · rfl
  · rfl

theorem updateLastIntervalEnd_some : updateLastIntervalEnd disk (some start) now file =
    if disk.firstWrite then some (put (loadIntervals disk file) ⟨start, now⟩) else file := by
  unfold updateLastIntervalEnd addCurrent put
  dsimp only
  rw [← suppress_saveIntervals]
  split
  · rename_i last hlast
    by_cases hsame : last.startTime = start
    · rw [if_pos (congrArg some hsame), if_pos hsame, hsame]
    · rw [if_neg fun h => hsame (Option.some.inj h), if_neg hsame]
  · rename_i hnone
    rw [List.getLast?_eq_none_iff.mp hnone]
    rfl

/-- The interval that a heartbeat records. -/
def State.current (s : State) (now : DateTime) : Option UptimeInterval :=
  if s.Starts now then some ⟨now, now⟩ else s.currentStart.map fun start => ⟨start, now⟩

/-- The file's intervals after that, where they are written. -/
def State.recorded (s : State) (now : DateTime) (disk : Disk) (interval : UptimeInterval) :
    List UptimeInterval :=
  if s.Starts now then loadIntervals disk s.file ++ [interval]
  else put (loadIntervals disk s.file) interval

/-- **The file after a heartbeat.** -/
theorem intervals_recordHeartbeat : (recordHeartbeat now disk s).intervals =
    match s.current now with
    | some interval => if disk.firstWrite then s.recorded now disk interval else s.intervals
    | none => s.intervals := by
  unfold recordHeartbeat State.current State.recorded State.intervals
  by_cases hstarts : s.Starts now
  · simp only [if_pos hstarts, appendInterval, suppress_saveIntervals]
    cases disk.firstWrite <;> rfl
  · simp only [if_neg hstarts]
    cases s.currentStart with
    | none => rw [updateLastIntervalEnd_none]; rfl
    | some start =>
      rw [updateLastIntervalEnd_some]
      cases disk.firstWrite <;> rfl

theorem loadIntervals_of_read (h : disk.read = true) :
    loadIntervals disk s.file = s.intervals := by
  unfold loadIntervals State.intervals
  cases s.file with
  | none => rfl
  | some intervals => exact if_pos h

theorem loadIntervals_of_not (h : disk.read = false) : loadIntervals disk s.file = [] := by
  unfold loadIntervals
  cases s.file with
  | none => rfl
  | some intervals => exact if_neg (by rw [h]; decide)

/-! ## Well-formedness -/

/-- `Start <= End`, and each interval ends no later than the next one starts. -/
structure WellFormed (intervals : List UptimeInterval) : Prop where
  ordered : ∀ i ∈ intervals, i.startTime.ticks ≤ i.endTime.ticks
  apart : intervals.IsChain fun i j => i.endTime.ticks ≤ j.startTime.ticks

/-- The current interval is the last one, or nothing ends after its start. -/
def Follows (intervals : List UptimeInterval) (start : DateTime) : Prop :=
  (∃ earlier last, intervals = earlier ++ [last] ∧ last.startTime = start) ∨
    ∀ i ∈ intervals, i.endTime.ticks ≤ start.ticks

/-- Reads succeed, and the clock does not go back. -/
def Forward (s : State) : Event → Prop
  | .heartbeat now disk => disk.read = true ∧ s.clock.ticks ≤ now.ticks
  | .restart => True

/-- After a heartbeat whose write succeeded the file ends with the current interval. -/
def Recorded (s' : State) : Event → Prop
  | .heartbeat _ disk => disk.firstWrite = true → ∃ start seen, s'.currentStart = some start ∧
      s'.lastSeen = some seen ∧ s'.intervals.getLast? = some ⟨start, seen⟩
  | .restart => True

/-- What the memory has to do with the file. -/
structure Inv (s : State) : Prop where
  wellFormed : WellFormed s.intervals
  past : ∀ i ∈ s.intervals, i.endTime.ticks ≤ s.clock.ticks
  memory : (s.currentStart = none ∧ s.lastSeen = none) ∨
    ∃ start seen, s.currentStart = some start ∧ s.lastSeen = some seen ∧
      start.ticks ≤ seen.ticks ∧ seen.ticks ≤ s.clock.ticks ∧ Follows s.intervals start

theorem wellFormed_nil : WellFormed [] := ⟨by simp, List.isChain_nil⟩

theorem wellFormed_concat : WellFormed (intervals ++ [interval]) ↔ WellFormed intervals ∧
    interval.startTime.ticks ≤ interval.endTime.ticks ∧
    ∀ last ∈ intervals.getLast?, last.endTime.ticks ≤ interval.startTime.ticks := by
  constructor
  · rintro ⟨hordered, hapart⟩
    obtain ⟨hinit, -, hlast⟩ := List.isChain_append.mp hapart
    refine ⟨⟨fun i hi => hordered i (List.mem_append_left _ hi), hinit⟩, ?_, ?_⟩
    · exact hordered interval (by simp)
    · exact fun last hlast' => hlast last hlast' interval rfl
  · rintro ⟨⟨hordered, hapart⟩, hinterval, hlast⟩
    refine ⟨fun i hi => ?_, List.isChain_append.mpr ⟨hapart, List.isChain_singleton _, ?_⟩⟩
    · rcases List.mem_append.mp hi with hi | hi
      · exact hordered i hi
      · rw [List.mem_singleton.mp hi]
        exact hinterval
    · rintro last hlast' _ ⟨⟩
      exact hlast last hlast'

/-- An interval that starts after all others. -/
theorem wellFormed_append (h : WellFormed intervals)
    (hpast : ∀ i ∈ intervals, i.endTime.ticks ≤ interval.startTime.ticks)
    (hinterval : interval.startTime.ticks ≤ interval.endTime.ticks) :
    WellFormed (intervals ++ [interval]) :=
  wellFormed_concat.mpr ⟨h, hinterval, fun last hlast => hpast last (List.mem_of_getLast? hlast)⟩

theorem wellFormed_put (h : WellFormed intervals) (hfollows : Follows intervals interval.startTime)
    (hinterval : interval.startTime.ticks ≤ interval.endTime.ticks) :
    WellFormed (put intervals interval) := by
  rcases List.eq_nil_or_concat' intervals with rfl | ⟨earlier, last, rfl⟩
  · exact wellFormed_append wellFormed_nil (by simp) hinterval
  · rw [put_concat]
    by_cases hsame : last.startTime = interval.startTime
    · rw [if_pos hsame]
      obtain ⟨hearlier, -, hbefore⟩ := wellFormed_concat.mp h
      exact wellFormed_concat.mpr ⟨hearlier, hinterval, hsame ▸ hbefore⟩
    · rw [if_neg hsame]
      refine wellFormed_append h ?_ hinterval
      rcases hfollows with ⟨earlier', last', heq, hstart⟩ | hpast
      · -- the current interval would be the last one
        cases List.append_inj_right' heq rfl
        exact absurd hstart hsame
      · exact hpast

theorem mem_put {i : UptimeInterval} (h : i ∈ put intervals interval) :
    i ∈ intervals ∨ i = interval := by
  rcases List.eq_nil_or_concat' intervals with rfl | ⟨earlier, last, rfl⟩
  · exact Or.inr (List.mem_singleton.mp h)
  · rw [put_concat] at h
    split at h
    · rcases List.mem_append.mp h with h | h
      · exact Or.inl (List.mem_append_left _ h)
      · exact Or.inr (List.mem_singleton.mp h)
    · rcases List.mem_append.mp h with h | h
      · exact Or.inl h
      · exact Or.inr (List.mem_singleton.mp h)

/-- The file ends with its last interval. -/
theorem follows_of_getLast? (h : intervals.getLast? = some interval) :
    Follows intervals interval.startTime := by
  obtain ⟨earlier, rfl⟩ := List.getLast?_eq_some_iff.mp h
  exact Or.inl ⟨earlier, interval, rfl, rfl⟩

/-- What a heartbeat records, and what follows when it can be written. -/
theorem current_of_inv (h : Inv s) (hclock : s.clock.ticks ≤ now.ticks) :
    ∃ start, s.current now = some ⟨start, now⟩ ∧ start.ticks ≤ now.ticks ∧
      (recordHeartbeat now disk s).currentStart = some start ∧
      (recordHeartbeat now disk s).lastSeen = some now ∧
      Follows s.intervals start ∧
      (s.Starts now → ∀ i ∈ s.intervals, i.endTime.ticks ≤ start.ticks) := by
  have hpast : ∀ i ∈ s.intervals, i.endTime.ticks ≤ now.ticks := fun i hi =>
    (h.past i hi).trans hclock
  by_cases hstarts : s.Starts now
  · have hcurrent : s.current now = some ⟨now, now⟩ := if_pos hstarts
    refine ⟨now, hcurrent, le_rfl, ?_, ?_, Or.inr hpast, fun _ => hpast⟩
    · rw [recordHeartbeat, if_pos hstarts]
    · rw [recordHeartbeat, if_pos hstarts]
  · rcases h.memory with ⟨-, hnone⟩ | ⟨start, seen, hstart, -, hle, hseen, hfollows⟩
    · exact absurd (Or.inl hnone) hstarts
    · have hcurrent : s.current now = some ⟨start, now⟩ := by
        rw [State.current, if_neg hstarts, hstart]
        rfl
      refine ⟨start, hcurrent, by omega, ?_, ?_, hfollows, fun hs => absurd hs hstarts⟩
      · rw [recordHeartbeat, if_neg hstarts]
        exact hstart
      · rw [recordHeartbeat, if_neg hstarts]

theorem clock_recordHeartbeat : (recordHeartbeat now disk s).clock = now := by
  unfold recordHeartbeat
  split
  · rfl
  · rfl

/-- **One heartbeat** keeps the invariant, and records the current interval. -/
theorem inv_recordHeartbeat (h : Inv s) (hread : disk.read = true)
    (hclock : s.clock.ticks ≤ now.ticks) :
    Inv (recordHeartbeat now disk s) ∧
      Recorded (recordHeartbeat now disk s) (.heartbeat now disk) := by
  obtain ⟨start, hcurrent, hle, hstart, hseen, hfollows, hpast⟩ := current_of_inv h hclock
  have hfile := @intervals_recordHeartbeat s disk now
  rw [hcurrent] at hfile
  dsimp only at hfile
  cases hwrite : disk.firstWrite with
  | false =>
    rw [hwrite, if_neg Bool.false_ne_true] at hfile
    refine ⟨⟨hfile ▸ h.wellFormed, fun i hi => ?_, ?_⟩, fun htrue => ?_⟩
    · rw [clock_recordHeartbeat]
      exact (h.past i (hfile ▸ hi)).trans hclock
    · refine Or.inr ⟨start, now, hstart, hseen, hle, ?_, hfile ▸ hfollows⟩
      rw [clock_recordHeartbeat]
    · rw [hwrite] at htrue
      cases htrue
  | true =>
    rw [hwrite, if_pos rfl] at hfile
    have hrecorded : WellFormed (s.recorded now disk ⟨start, now⟩) ∧
        (s.recorded now disk ⟨start, now⟩).getLast? = some ⟨start, now⟩ ∧
        ∀ i ∈ s.recorded now disk ⟨start, now⟩, i ∈ s.intervals ∨ i = ⟨start, now⟩ := by
      unfold State.recorded
      rw [loadIntervals_of_read hread]
      by_cases hstarts : s.Starts now
      · rw [if_pos hstarts]
        refine ⟨wellFormed_append h.wellFormed (hpast hstarts) hle, List.getLast?_concat, ?_⟩
        intro i hi
        simpa using hi
      · rw [if_neg hstarts]
        exact ⟨wellFormed_put h.wellFormed hfollows hle, getLast?_put, fun i => mem_put⟩
    obtain ⟨hwell, hlast, hmem⟩ := hrecorded
    rw [← hfile] at hwell hlast hmem
    refine ⟨⟨hwell, fun i hi => ?_, ?_⟩, fun _ => ⟨start, now, hstart, hseen, hlast⟩⟩
    · rw [clock_recordHeartbeat]
      rcases hmem i hi with hi | rfl
      · exact (h.past i hi).trans hclock
      · exact le_rfl
    · refine Or.inr ⟨start, now, hstart, hseen, hle, ?_, follows_of_getLast? hlast⟩
      rw [clock_recordHeartbeat]

theorem inv_step (h : Inv s) (hforward : Forward s event) (hstep : step s event = some s') :
    Inv s' ∧ Recorded s' event := by
  cases event with
  | restart =>
    cases hstep
    exact ⟨⟨h.wellFormed, h.past, Or.inl ⟨rfl, rfl⟩⟩, trivial⟩
  | heartbeat now disk =>
    cases hstep
    exact inv_recordHeartbeat h hforward.1 hforward.2

/-- **The intervals stay well-formed**, through restarts and writes that fail, while reads succeed
    and the clock does not go back; and after a heartbeat whose write succeeded the last one is
    that of the memory. -/
theorem wellFormed_run {events : List Event}
    (hforward : Runs.EachStep step (fun s event _ => Forward s event) {} events) :
    Runs.EachState step (fun s => WellFormed s.intervals) {} events ∧
      Runs.EachStep step (fun _ event s' => Recorded s' event) {} events := by
  have hstart : Inv {} :=
    ⟨wellFormed_nil, by simp [State.intervals], Or.inl ⟨rfl, rfl⟩⟩
  have hkeep : ∀ s event s', Inv s → Forward s event → step s event = some s' → Inv s' :=
    fun s event s' h hf hs => (inv_step h hf hs).1
  refine ⟨⟨wellFormed_nil, ?_⟩, ?_⟩
  · exact Runs.eachStep_of_guard hkeep
      (fun s event s' h hf hs => (hkeep s event s' h hf hs).wellFormed) hstart hforward
  · exact Runs.eachStep_of_guard hkeep
      (fun s event s' h hf hs => (inv_step h hf hs).2) hstart hforward

/-- A day's interval, a failed write in the next one, and a restart. -/
def twoDays : List Event :=
  [.heartbeat ⟨0, by decide⟩ {}, .heartbeat ⟨600000000, by decide⟩ {},
    .heartbeat ⟨864000000000, by decide⟩ { firstWrite := false }, .restart,
    .heartbeat ⟨864600000000, by decide⟩ { secondWrite := false }]

theorem wellFormed_twoDays : Runs.EachState step (fun s => WellFormed s.intervals) {} twoDays ∧
    Runs.EachStep step (fun _ event s' => Recorded s' event) {} twoDays := by
  refine wellFormed_run ?_
  intro s hs
  cases hs
  refine ⟨⟨rfl, by decide⟩, fun s hs => ?_⟩
  cases hs
  refine ⟨⟨rfl, by decide⟩, fun s hs => ?_⟩
  cases hs
  refine ⟨⟨rfl, by decide⟩, fun s hs => ?_⟩
  cases hs
  refine ⟨trivial, fun s hs => ?_⟩
  cases hs
  exact ⟨⟨rfl, by decide⟩, trivial⟩

/-! ## Loss -/

/-- The same start, and no smaller end. -/
def Covers (i j : UptimeInterval) : Prop :=
  j.startTime = i.startTime ∧ i.endTime.ticks ≤ j.endTime.ticks

/-- Every interval is still there. -/
def Keeps (s s' : State) : Prop := ∀ i ∈ s.intervals, ∃ j ∈ s'.intervals, Covers i j

/-- The heartbeat's write succeeds, and either its read fails, with something in the file that its
    interval does not cover, or it goes on with the last interval by a clock that is behind the
    recorded end, and no earlier interval covers that. -/
def Loses (s : State) : Event → Prop
  | .heartbeat now disk => disk.firstWrite = true ∧ ∃ interval, s.current now = some interval ∧
      ((disk.read = false ∧ ∃ i ∈ s.intervals, ¬ Covers i interval) ∨
        (disk.read = true ∧ ¬ s.Starts now ∧ ∃ earlier last, s.intervals = earlier ++ [last] ∧
          last.startTime = interval.startTime ∧ ∀ j ∈ earlier ++ [interval], ¬ Covers last j))
  | .restart => False

theorem covers_refl (i : UptimeInterval) : Covers i i := ⟨rfl, le_rfl⟩

theorem keeps_refl (s : State) : Keeps s s := fun i hi => ⟨i, hi, covers_refl i⟩

theorem keeps_trans (s m s' : State) (h : Keeps s m) (h' : Keeps m s') : Keeps s s' := by
  intro i hi
  obtain ⟨j, hj, hstart, hle⟩ := h i hi
  obtain ⟨k, hk, hstart', hle'⟩ := h' j hj
  exact ⟨k, hk, hstart'.trans hstart, hle.trans hle'⟩

/-- Only the last interval can be lost when the current one is put. -/
theorem covered_put_iff : (∀ i ∈ intervals, ∃ j ∈ put intervals interval, Covers i j) ↔
    ¬ ∃ earlier last, intervals = earlier ++ [last] ∧ last.startTime = interval.startTime ∧
      ∀ j ∈ earlier ++ [interval], ¬ Covers last j := by
  rcases List.eq_nil_or_concat' intervals with rfl | ⟨earlier, last, rfl⟩
  · refine iff_of_true (by simp) ?_
    rintro ⟨earlier, last, hnil, -⟩
    simp at hnil
  · rw [put_concat]
    by_cases hsame : last.startTime = interval.startTime
    · rw [if_pos hsame]
      constructor
      · rintro h ⟨earlier', last', heq, -, hnone⟩
        obtain ⟨rfl, hlast⟩ := List.append_inj' heq rfl
        cases hlast
        obtain ⟨j, hj, hcovers⟩ := h last (by simp)
        exact hnone j hj hcovers
      · intro h i hi
        rcases List.mem_append.mp hi with hi | hi
        · exact ⟨i, List.mem_append_left _ hi, covers_refl i⟩
        · rw [List.mem_singleton.mp hi]
          by_contra hnone
          exact h ⟨earlier, last, rfl, hsame, fun j hj hcovers => hnone ⟨j, hj, hcovers⟩⟩
    · rw [if_neg hsame]
      refine iff_of_true (fun i hi => ⟨i, List.mem_append_left _ hi, covers_refl i⟩) ?_
      rintro ⟨earlier', last', heq, hstart, -⟩
      obtain ⟨-, hlast⟩ := List.append_inj' heq rfl
      cases hlast
      exact hsame hstart

/-- **One step** keeps what is in the file exactly when it does not lose it. -/
theorem keeps_step_iff (hstep : step s event = some s') : Keeps s s' ↔ ¬ Loses s event := by
  cases event with
  | restart =>
    cases hstep
    exact iff_of_true (keeps_refl s) not_false
  | heartbeat now disk =>
    cases hstep
    unfold Keeps Loses
    rw [intervals_recordHeartbeat]
    cases hcurrent : s.current now with
    | none =>
      refine iff_of_true (keeps_refl s) ?_
      rintro ⟨-, interval, hsome, -⟩
      rw [hcurrent] at hsome
      cases hsome
    | some interval =>
      cases hwrite : disk.firstWrite with
      | false =>
        refine iff_of_true (keeps_refl s) ?_
        rintro ⟨htrue, -⟩
        rw [hwrite] at htrue
        cases htrue
      | true =>
        cases hread : disk.read with
        | false =>
          have hrecorded : s.recorded now disk interval = [interval] := by
            unfold State.recorded
            rw [loadIntervals_of_not hread, put_nil, List.nil_append, ite_self]
          simp [hcurrent, hwrite, hread, hrecorded]
        | true =>
          unfold State.recorded
          rw [loadIntervals_of_read hread]
          by_cases hstarts : s.Starts now
          · have hkeeps : ∀ i ∈ s.intervals, ∃ j ∈ s.intervals ++ [interval], Covers i j :=
              fun i hi => ⟨i, List.mem_append_left _ hi, covers_refl i⟩
            simpa [hcurrent, hwrite, hread, hstarts] using hkeeps
          · simpa [hcurrent, hwrite, hread, hstarts] using @covered_put_iff s.intervals interval

/-- **Recorded uptime is not lost**, from any state on and through restarts, exactly when no
    heartbeat of the run loses it. -/
theorem keeps_iff {events : List Event} :
    Runs.Persists step Keeps s events ↔
      Runs.EachStep step (fun s event _ => ¬ Loses s event) s events := by
  rw [Runs.persists_iff keeps_refl keeps_trans]
  exact Runs.eachStep_iff (I := fun _ => True) (G := fun s event => ¬ Loses s event)
    (fun _ _ _ _ _ _ => trivial)
    (fun s event s' _ hstep => keeps_step_iff hstep) trivial

/-- The interval of the first heartbeat is gone after the second one, which cannot read it. -/
theorem not_keeps_failedRead : ¬ ∀ events : List Event, Runs.Persists step Keeps {} events := by
  intro h
  let first : Event := .heartbeat ⟨0, by decide⟩ {}
  let second : Event := .heartbeat ⟨6000000000, by decide⟩ { read := false }
  have hkeeps := h [first, second] [first] [second] [] _ _ rfl rfl rfl
  obtain ⟨j, hj, hcovers⟩ := hkeeps ⟨⟨0, by decide⟩, ⟨0, by decide⟩⟩ (by decide)
  have hsecond : j = ⟨⟨6000000000, by decide⟩, ⟨6000000000, by decide⟩⟩ := List.mem_singleton.mp hj
  rw [hsecond] at hcovers
  exact absurd hcovers.1 (by decide)

end Service.UptimeMonitor
