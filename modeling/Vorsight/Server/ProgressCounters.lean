/-
  PROGRESS COUNTERS: the totals that the service's heartbeats report, handled one after another by
  `machine:heartbeat` (Worker.cs, ActivityCoordinator.cs, HealthMonitor.cs, socketHandler.ts).

  The service has two senders.  The worker reads the totals, and sends them with its next step; the
  coordinator sends a heartbeat from its monitoring loop, with zeros.

  1. **Program** — a run of the service: its successes, the steps of both senders, and the server,
     which stores the counts of each heartbeat it handles over those of the last.

  2. **Specification** (`NotDecreasing`) — from the run's first heartbeat on, no step lowers the
     stored counts.

  3. **The flow of counts** (`Inv`) — what is stored of the run, what the worker has sent, what it
     has read, and the totals follow each other in order.

  4. **The exact condition** (`notDecreasing_iff`) — no heartbeat of the coordinator is handled
     while something but zeros is stored.
-/
import Vorsight.Server.ActivityDelivery
import Vorsight.Service.ActivityCoordinator

namespace Server.ProgressCounters

open Js Tables Tasks
open AuditDelivery (Casing pick_text text_ne_empty textArg_column)
open ActivityDelivery (offset)
open Service (ActivityCoordinator.Step ActivityCoordinator.ActivitySnapshot)

/-! ## Counts -/

/-- The two counts of a heartbeat. -/
structure Counts where
  screenshots : Int
  uploads : Int
deriving DecidableEq, Repr

namespace Counts

def zero : Counts := ⟨0, 0⟩

instance : LE Counts := ⟨fun a b => a.screenshots ≤ b.screenshots ∧ a.uploads ≤ b.uploads⟩

instance (a b : Counts) : Decidable (a ≤ b) :=
  inferInstanceAs (Decidable (a.screenshots ≤ b.screenshots ∧ a.uploads ≤ b.uploads))

theorem le_refl (a : Counts) : a ≤ a := ⟨Int.le_refl _, Int.le_refl _⟩

theorem le_trans {a b c : Counts} (hab : a ≤ b) (hbc : b ≤ c) : a ≤ c :=
  ⟨Int.le_trans hab.1 hbc.1, Int.le_trans hab.2 hbc.2⟩

theorem le_antisymm {a b : Counts} (hab : a ≤ b) (hba : b ≤ a) : a = b := by
  cases a
  cases b
  exact congrArg₂ Counts.mk (Int.le_antisymm hab.1 hba.1) (Int.le_antisymm hab.2 hba.2)

end Counts

/-! ## The service -/

/-- `n++` on an `int`. -/
def increment (n : Int) : Int := (n + 1).bmod 4294967296

/-- `int.MaxValue`. -/
def maxValue : Int := 2147483647

theorem increment_of_lt {n : Int} (hpos : 0 ≤ n) (hlt : n < maxValue) : increment n = n + 1 := by
  unfold maxValue at hlt
  unfold increment
  rw [Int.bmod_eq_of_le] <;> omega

theorem le_increment {n : Int} (hpos : 0 ≤ n) (hlt : n < maxValue) : n ≤ increment n := by
  rw [increment_of_lt hpos hlt]
  omega

structure HealthMonitor where
  totalScreenshotsSuccessful : Int := 0
  totalUploadsSuccessful : Int := 0
deriving DecidableEq, Repr

namespace HealthMonitor

def recordScreenshotSuccess (h : HealthMonitor) : HealthMonitor :=
  { h with totalScreenshotsSuccessful := increment h.totalScreenshotsSuccessful }

def recordUploadSuccess (h : HealthMonitor) : HealthMonitor :=
  { h with totalUploadsSuccessful := increment h.totalUploadsSuccessful }

/-- The totals of `GetHealthReport`. -/
def totals (h : HealthMonitor) : Counts := ⟨h.totalScreenshotsSuccessful, h.totalUploadsSuccessful⟩

end HealthMonitor

/-- A heartbeat's state; `health` is as it is serialised. -/
structure StatePayload where
  lastActivityTime : Time.DateTime
  activeWindow : String
  screenshotCount : Int
  uploadCount : Int
  health : Json
  version : String

namespace StatePayload

def counts (p : StatePayload) : Counts := ⟨p.screenshotCount, p.uploadCount⟩

/-- What the coordinator's loop sends. -/
def ofCoordinator (health : Json) (p : Service.ActivityCoordinator.StatePayload) :
    StatePayload where
  lastActivityTime := p.lastActivityTime
  activeWindow := p.activeWindow
  screenshotCount := p.screenshotCount
  uploadCount := p.uploadCount
  health
  version := p.version

/-- Construct state payload: the worker's. -/
def ofWorker (report : Counts)
    (currentActivity : Option Service.ActivityCoordinator.ActivitySnapshot)
    (utcNow : Time.DateTime) (health : Json) : StatePayload where
  lastActivityTime := (currentActivity.map (·.timestamp)).getD utcNow
  activeWindow := (currentActivity.map (·.activeWindowTitle)).getD "Unknown"
  screenshotCount := report.screenshots
  uploadCount := report.uploads
  health
  version := "1.0.0"

end StatePayload

/-! ## The wire -/

/-- The payload as JSON. -/
def wire (c : Casing) (p : StatePayload) : Json := .obj [
  (c.name "lastActivityTime" "LastActivityTime", .str (offset p.lastActivityTime).text),
  (c.name "activeWindow" "ActiveWindow", .str p.activeWindow),
  (c.name "screenshotCount" "ScreenshotCount", .num p.screenshotCount),
  (c.name "uploadCount" "UploadCount", .num p.uploadCount),
  (c.name "health" "Health", p.health),
  (c.name "version" "Version", .str p.version)]

/-- `EmitAsync("machine:heartbeat", new { machineId, state })`. -/
def message (c : Casing) (machine : String) (p : StatePayload) : Value :=
  some (.obj [("machineId", .str machine), ("state", wire c p)])

/-- The counts stored for a machine. -/
def storedCounts (machine : String) (s : Store) : Option Counts :=
  (s.db.machineStates.find machine).map fun r => ⟨r.screenshotCount, r.uploadCount⟩

def statusOf (machine : String) (s : Store) : Option MachineStatus :=
  (s.db.machines.find machine).map (·.status)

section Delivery

variable [Runtime]

/-- One heartbeat, handled to its end. -/
def deliver (c : Casing) (machine : String) (s : Store) (p : StatePayload) : Store :=
  ((machineHeartbeat (message c machine p)).exec s).1

/-- The runtime reads the payload's time. -/
def Readable (p : StatePayload) : Prop :=
  (Runtime.dateOf (.str (offset p.lastActivityTime).text)).isSome

instance (p : StatePayload) : Decidable (Readable p) := inferInstanceAs (Decidable (_ = true))

/-! ## One delivery -/

variable {c : Casing} {machine : String} {s : Store} {p : StatePayload}

omit [Runtime] in
/-- A number is read as it is: where it is zero, both alternatives of the handler are. -/
theorem pick_num {fields : List (String × Json)} {camel pascal : String} {n : Int}
    (hfound : fields.lookup (c.name camel pascal) = some (.num n))
    (habsent : c = .pascal → fields.lookup camel = none)
    (habsent' : c = .camel → fields.lookup pascal = none) :
    ∃ v, pick (some (.obj fields)) camel pascal = some v ∧
      requiredInt (firstTruthy v (some (.num 0))) = some n := by
  cases c with
  | camel =>
    have hfound : fields.lookup camel = some (.num n) := hfound
    by_cases hn : n = 0
    · subst hn
      exact ⟨none, by simp [pick, prop, hfound, habsent' rfl, firstTruthy, truthy], rfl⟩
    · refine ⟨some (.num n), ?_, ?_⟩
      · simp [pick, prop, hfound, habsent' rfl, firstTruthy, truthy, hn]
      · simp [firstTruthy, truthy, hn, requiredInt]
  | pascal =>
    have hfound : fields.lookup pascal = some (.num n) := hfound
    refine ⟨some (.num n), ?_, ?_⟩
    · simp [pick, prop, hfound, habsent rfl, firstTruthy, truthy]
    · by_cases hn : n = 0
      · subst hn
        rfl
      · simp [firstTruthy, truthy, hn, requiredInt]

/-- The columns take a readable payload, with its counts. -/
theorem stateFields_wire (hp : Readable p) (now : DateTime) :
    ∃ f, stateFields (some (wire c p)) now = some f ∧ f.screenshotCount = p.screenshotCount ∧
      f.uploadCount = p.uploadCount := by
  obtain ⟨date, hdate⟩ := Option.isSome_iff_exists.mp hp
  have htime : pick (some (wire c p)) "lastActivityTime" "LastActivityTime" =
      some (some (.str (offset p.lastActivityTime).text)) := by
    refine (pick_text c (t := (offset p.lastActivityTime).text) (by cases c <;> rfl)
      (by rintro rfl; rfl) (by rintro rfl; rfl)).trans ?_
    rw [Casing.column_of_ne (text_ne_empty _)]
    rfl
  have htruthy : truthy (some (.str (offset p.lastActivityTime).text)) = true := by
    simpa [truthy] using text_ne_empty (offset p.lastActivityTime)
  have hdate : newDate (some (.str (offset p.lastActivityTime).text)) = some date := hdate
  have hwindow : pick (some (wire c p)) "activeWindow" "ActiveWindow" = _ :=
    pick_text c (t := p.activeWindow) (by cases c <;> rfl) (by rintro rfl; rfl)
      (by rintro rfl; rfl)
  obtain ⟨screenshots, hscreenshots, hscreenshotCount⟩ :
      ∃ v, pick (some (wire c p)) "screenshotCount" "ScreenshotCount" = some v ∧
        requiredInt (firstTruthy v (some (.num 0))) = some p.screenshotCount :=
    pick_num (c := c) (by cases c <;> rfl) (by rintro rfl; rfl) (by rintro rfl; rfl)
  obtain ⟨uploads, huploads, huploadCount⟩ :
      ∃ v, pick (some (wire c p)) "uploadCount" "UploadCount" = some v ∧
        requiredInt (firstTruthy v (some (.num 0))) = some p.uploadCount :=
    pick_num (c := c) (by cases c <;> rfl) (by rintro rfl; rfl) (by rintro rfl; rfl)
  obtain ⟨health, hhealth⟩ : ∃ v, pick (some (wire c p)) "health" "Health" = some v := ⟨_, rfl⟩
  unfold stateFields
  simp only [htime, htruthy, hdate, hwindow, textArg_column, hscreenshots, hscreenshotCount,
    huploads, huploadCount, hhealth, Option.bind_eq_bind, Option.bind_some, if_true]
  exact ⟨_, rfl, rfl, rfl⟩

omit [Runtime] in
/-- An upsert for an existing machine succeeds, whether or not the machine has a state row. -/
theorem upsertState_spec {db : Database} {create : MachineState}
    {update : MachineState → MachineState} {hf : ∀ r, (update r).machineId = r.machineId}
    (h : (db.machines.find machine).isSome) :
    ∃ db' r, db.upsertState machine create update hf = some db' ∧
      db'.machineStates.find machine = some r ∧ (r = { create with machineId := machine } ∨
        ∃ r', db.machineStates.find machine = some r' ∧ r = update r') := by
  unfold Database.upsertState
  cases hfind : db.machineStates.find machine with
  | some r =>
    refine ⟨_, update r, by rw [Database.updateState, hfind]; rfl, ?_, Or.inr ⟨r, rfl, rfl⟩⟩
    show (db.machineStates.update machine update hf).find machine = _
    rw [Table.find_update, if_pos rfl, hfind]
    rfl
  | none =>
    obtain ⟨states, hcreate⟩ :=
      Table.exists_create (r := ({ create with machineId := machine } : MachineState)) hfind
    refine ⟨{ db with machineStates := states }, _, ?_, ?_, Or.inl rfl⟩
    · rw [hcreate]
      exact if_pos h
    · show states.find machine = _
      rw [Table.find_create hcreate, if_pos rfl]

theorem upsertHeartbeat_spec {db : Database} (hm : (db.machines.find machine).isSome)
    (hp : Readable p) (existingSettings : Option (Obj Json)) (now : DateTime) :
    ∃ db' r, upsertHeartbeat machine existingSettings (some (wire c p)) db now = some db' ∧
      db'.machineStates.find machine = some r ∧ r.screenshotCount = p.screenshotCount ∧
      r.uploadCount = p.uploadCount := by
  obtain ⟨f, hf, hscreenshots, huploads⟩ := stateFields_wire (c := c) hp now
  unfold upsertHeartbeat
  simp only [hf, Option.bind_eq_bind, Option.bind_some]
  obtain ⟨db', r, hupsert, hfind, hr⟩ := upsertState_spec hm
  refine ⟨db', r, hupsert, hfind, ?_⟩
  rcases hr with rfl | ⟨r', -, rfl⟩ <;> exact ⟨hscreenshots, huploads⟩

omit [Runtime] in
theorem machineStates_touch (s : Store) :
    ((touch machine).exec s).1.db.machineStates = s.db.machineStates := by
  rw [touch, write, Task.exec_op]
  cases hupdate : s.db.updateMachine machine (fun m => { m with lastSeen := some s.now })
    fun _ => rfl with
  | none =>
    simp only [Option.map_none]
  | some db =>
    simp only [Option.map_some]
    obtain ⟨-, rfl⟩ := Database.forMachine_eq_some.mp hupdate
    rfl

omit [Runtime] in
/-- What follows the upsert leaves the states alone. -/
theorem machineStates_touch_bind (event : DateTime → Event) (s : Store) :
    ((touch machine >>= fun _ => emit .everyone event).exec s).1.db.machineStates =
      s.db.machineStates := by
  rw [Task.exec_bind]
  split
  · exact machineStates_touch s
  · exact machineStates_touch s

/-- **One delivery**: an active machine's counts are stored over what was there. -/
theorem storedCounts_deliver (hmachine : machine ≠ "") (hactive : statusOf machine s = some .active)
    (hp : Readable p) : storedCounts machine (deliver c machine s p) = some p.counts := by
  have hm : (s.db.machines.find machine).isSome := by
    obtain ⟨m, hm, -⟩ := Option.map_eq_some_iff.mp hactive
    rw [hm]
    rfl
  obtain ⟨db', r, hupsert, hfind, hscreenshots, huploads⟩ := upsertHeartbeat_spec (c := c) hm hp
    ((s.db.machineStates.find machine).bind (·.settings)) s.now
  have htruthy : truthy (some (.str machine)) = true := by simpa [truthy] using hmachine
  have hmachineId : prop (message c machine p) "machineId" = some (some (.str machine)) := rfl
  have hstate : prop (message c machine p) "state" = some (some (wire c p)) := rfl
  have hstatus : (s.db.machines.find machine).map (·.status) = some .active := hactive
  have hstored : (deliver c machine s p).db.machineStates = db'.machineStates := by
    unfold deliver machineHeartbeat
    rw [Task.pure_eq, Task.exec_handle_done]
    simp only [hmachineId, hstate, Task.get_some, Task.done_bind, htruthy, if_true, requiredText]
    have hfindStatus : (findStatus machine).exec s = (s, some (some .active)) := by
      rw [findStatus, exec_read, hstatus]
    rw [Task.exec_bind_of hfindStatus]
    show ((storeHeartbeat machine (some (wire c p))).exec s).1.db.machineStates = _
    unfold storeHeartbeat
    rw [Task.exec_bind_of (exec_read _ s), Task.exec_bind_of (exec_write_some hupsert)]
    exact machineStates_touch_bind _ _
  unfold storedCounts
  rw [hstored, hfind, Option.map_some, hscreenshots, huploads]
  rfl

/-- The machine stays active. -/
theorem statusOf_deliver (hactive : statusOf machine s = some .active) :
    statusOf machine (deliver c machine s p) = some .active := by
  obtain ⟨m, hm, hstatus⟩ := Option.map_eq_some_iff.mp hactive
  have hspares : Collection.Spares s (deliver c machine s p) :=
    Collection.exec_sparing (Collection.sparing_message "" (.machineHeartbeat _))
  obtain ⟨m', hm', hsame, -⟩ := hspares machine m hm
  unfold statusOf
  rw [hm', Option.map_some, hsame, hstatus]

/-! ## The system -/

/-- Which of the two loops has sent a heartbeat. -/
inductive Sender
  | worker
  | coordinator
deriving DecidableEq

/-- A run of the service, and the server. -/
structure State where
  coordinator : Service.ActivityCoordinator.State := {}
  healthMonitor : HealthMonitor := {}
  /-- what the worker has constructed and not yet sent -/
  state : Option StatePayload := none
  /-- sent and not yet handled -/
  messages : List (Sender × StatePayload) := []
  /-- a heartbeat of this run has been handled -/
  reported : Bool := false
  server : Store

inductive Label
  | recordScreenshotSuccess
  | recordUploadSuccess
  /-- the coordinator goes on; the socket is connected or not -/
  | coordinator (step : Service.ActivityCoordinator.Step) (health : Json) (connected : Bool)
  | construct (utcNow : Time.DateTime) (health : Json)
  | send (connected : Bool)
  | handle
  /-- the server does something else -/
  | other (server : Store)

/-- What the coordinator's step has added to its heartbeats, on its way. -/
def sentBy (before after : Service.ActivityCoordinator.State) (health : Json) :
    List (Sender × StatePayload) :=
  (after.heartbeats.drop before.heartbeats.length).map fun p =>
    (.coordinator, .ofCoordinator health p)

def step (c : Casing) (machine : String) (s : State) : Label → Option State
  | .recordScreenshotSuccess =>
    some { s with healthMonitor := s.healthMonitor.recordScreenshotSuccess }
  | .recordUploadSuccess => some { s with healthMonitor := s.healthMonitor.recordUploadSuccess }
  | .coordinator l health connected =>
    (Service.ActivityCoordinator.step s.coordinator l).map fun coordinator =>
      { s with
        coordinator
        messages :=
          s.messages ++ if connected then sentBy s.coordinator coordinator health else [] }
  | .construct utcNow health =>
    if s.state.isNone then
      some { s with
        state := some
          (.ofWorker s.healthMonitor.totals s.coordinator.latestSnapshot utcNow health) }
    else none
  | .send connected => s.state.map fun state =>
    { s with
      state := none
      messages := s.messages ++ if connected then [(.worker, state)] else [] }
  | .handle => match s.messages with
    | [] => none
    | (_, p) :: messages =>
      some { s with messages, reported := true, server := deliver c machine s.server p }
  | .other server =>
    if statusOf machine server = statusOf machine s.server ∧
        storedCounts machine server = storedCounts machine s.server then some { s with server }
    else none

/-! ## The design's claim, and the condition -/

/-- From the run's first heartbeat on, the stored counts are not lowered. -/
def NotDecreasing (machine : String) (s : State) (_ : Label) (s' : State) : Prop :=
  s.reported = true → ∀ before ∈ storedCounts machine s.server,
    ∀ after ∈ storedCounts machine s'.server, before ≤ after

/-- The totals stay in the range of an `int`, and the server reads the time of what it handles. -/
def Ordinary (s : State) : Label → Prop
  | .recordScreenshotSuccess => s.healthMonitor.totalScreenshotsSuccessful < maxValue
  | .recordUploadSuccess => s.healthMonitor.totalUploadsSuccessful < maxValue
  | .handle => ∀ m ∈ s.messages.head?, Readable m.2
  | _ => True

/-- A heartbeat of the coordinator is the run's first, or zeros are stored when it is handled. -/
def Harmless (machine : String) (s : State) (l : Label) : Prop :=
  l = .handle → s.reported = true → ∀ m ∈ s.messages.head?, m.1 = .coordinator →
    ∀ before ∈ storedCounts machine s.server, before = .zero

/-! ## The flow of counts -/

omit [Runtime] in
/-- The counts from the worker's messages on their way up to the totals. -/
def flow (s : State) : List Counts :=
  (s.messages.filter (·.1 = .worker)).map (·.2.counts) ++ s.state.toList.map StatePayload.counts ++
    [s.healthMonitor.totals]

omit [Runtime] in
/-- The counts stored by the run. -/
def ofRun (machine : String) (s : State) : List Counts :=
  if s.reported then (storedCounts machine s.server).toList else []

/-- Each followed by none that is lower, from zeros on. -/
def Rising (counts : List Counts) : Prop := (Counts.zero :: counts).Pairwise (· ≤ ·)

omit [Runtime] in
theorem Rising.sublist {a b : List Counts} (h : Rising b) (hab : a.Sublist b) : Rising a :=
  List.Pairwise.sublist (hab.cons_cons _) h

omit [Runtime] in
/-- The last may rise, and may be repeated. -/
theorem Rising.last {counts : List Counts} {last last' : Counts} (h : Rising (counts ++ [last]))
    (hle : last ≤ last') : Rising (counts ++ [last']) := by
  rw [Rising, ← List.cons_append, List.pairwise_append] at h ⊢
  refine ⟨h.1, List.pairwise_singleton _ _, ?_⟩
  intro a ha b hb
  rw [List.mem_singleton.mp hb]
  exact Counts.le_trans (h.2.2 a ha last List.mem_cons_self) hle

omit [Runtime] in
theorem Rising.repeat_last {counts : List Counts} {last : Counts} (h : Rising (counts ++ [last])) :
    Rising (counts ++ [last] ++ [last]) := by
  rw [Rising, ← List.cons_append, List.pairwise_append]
  refine ⟨h, List.pairwise_singleton _ _, ?_⟩
  intro a ha b hb
  rw [List.mem_singleton.mp hb]
  rw [Rising, ← List.cons_append, List.pairwise_append] at h
  rcases List.mem_append.mp (List.cons_append ▸ ha) with ha | ha
  · exact h.2.2 a ha last List.mem_cons_self
  · rw [List.mem_singleton.mp ha]
    exact Counts.le_refl _

structure Inv (machine : String) (s : State) : Prop where
  active : statusOf machine s.server = some .active
  rising : Rising (ofRun machine s ++ flow s)
  zeros : ∀ m ∈ s.messages, m.1 = .coordinator → m.2.counts = .zero

variable {s s' : State} {l : Label}

omit [Runtime] in
theorem Inv.totals_nonneg (h : Inv machine s) : Counts.zero ≤ s.healthMonitor.totals := by
  refine (List.pairwise_cons.mp h.rising).1 _ (List.mem_append_right _ ?_)
  exact List.mem_append_right _ List.mem_cons_self

/-! ### Steps that handle nothing -/

/-- What such a step keeps. -/
structure Keeps (machine : String) (s s' : State) : Prop where
  status : statusOf machine s'.server = statusOf machine s.server
  stored : storedCounts machine s'.server = storedCounts machine s.server
  reported : s'.reported = s.reported
  messages : ∀ m ∈ s'.messages, m ∈ s.messages ∨ (m.1 = .coordinator → m.2.counts = .zero)
  rising : ∀ counts, Rising (counts ++ flow s) → Rising (counts ++ flow s')

omit [Runtime] in
/-- The coordinator sends zeros. -/
theorem sentBy_spec {before after : Service.ActivityCoordinator.State}
    {l : Service.ActivityCoordinator.Step}
    (hs : Service.ActivityCoordinator.step before l = some after) {health : Json} {m : Sender ×
      StatePayload} (hm : m ∈ sentBy before after health) :
    m.1 = .coordinator ∧ m.2.counts = .zero := by
  obtain ⟨new, hnew, hzeros⟩ := Service.ActivityCoordinator.heartbeats_step hs
  unfold sentBy at hm
  rw [hnew, List.drop_left] at hm
  obtain ⟨p, hp, rfl⟩ := List.mem_map.mp hm
  obtain ⟨hscreenshots, huploads⟩ := hzeros p hp
  refine ⟨rfl, ?_⟩
  simp [StatePayload.counts, StatePayload.ofCoordinator, hscreenshots, huploads, Counts.zero]

omit [Runtime] in
theorem keeps_record {healthMonitor : HealthMonitor}
    (hle : s.healthMonitor.totals ≤ healthMonitor.totals) :
    Keeps machine s { s with healthMonitor } := by
  refine ⟨rfl, rfl, rfl, fun _ => Or.inl, fun counts h => ?_⟩
  unfold flow at h ⊢
  rw [← List.append_assoc] at h ⊢
  exact h.last hle

omit [Runtime] in
theorem keeps_sentBy {coordinator : Service.ActivityCoordinator.State}
    {l : Service.ActivityCoordinator.Step}
    (hs : Service.ActivityCoordinator.step s.coordinator l = some coordinator) (health : Json)
    (connected : Bool) :
    Keeps machine s
      { s with
        coordinator
        messages :=
          s.messages ++ if connected then sentBy s.coordinator coordinator health else [] } := by
  refine ⟨rfl, rfl, rfl, fun m hm => ?_, fun counts h => ?_⟩
  · rcases List.mem_append.mp hm with hm | hm
    · exact Or.inl hm
    · split at hm
      · exact Or.inr fun _ => (sentBy_spec hs hm).2
      · cases hm
  · have hnone : (if connected then sentBy s.coordinator coordinator health else []).filter
        (·.1 = .worker) = [] := by
      rw [List.filter_eq_nil_iff]
      intro m hm
      split at hm
      · simp [(sentBy_spec hs hm).1]
      · cases hm
    unfold flow at h ⊢
    rw [List.filter_append, hnone, List.append_nil]
    exact h

omit [Runtime] in
theorem keeps_construct {state : StatePayload} (hnone : s.state = none)
    (hcounts : state.counts = s.healthMonitor.totals) :
    Keeps machine s { s with state := some state } := by
  refine ⟨rfl, rfl, rfl, fun _ => Or.inl, fun counts h => ?_⟩
  unfold flow at h ⊢
  rw [hnone, Option.toList_none, List.map_nil, List.append_nil] at h
  rw [Option.toList_some, List.map_singleton, hcounts, ← List.append_assoc, ← List.append_assoc]
  rw [← List.append_assoc] at h
  exact h.repeat_last

omit [Runtime] in
theorem keeps_send {state : StatePayload} (hstate : s.state = some state) (connected : Bool) :
    Keeps machine s
      { s with
        state := none
        messages := s.messages ++ if connected then [(.worker, state)] else [] } := by
  refine ⟨rfl, rfl, rfl, fun m hm => ?_, fun counts h => ?_⟩
  · rcases List.mem_append.mp hm with hm | hm
    · exact Or.inl hm
    · split at hm
      · rw [List.mem_singleton.mp hm]
        exact Or.inr fun hsender => Sender.noConfusion hsender
      · cases hm
  · unfold flow at h ⊢
    rw [hstate] at h
    rw [List.filter_append, List.map_append, Option.toList_none, List.map_nil, List.append_nil]
    refine h.sublist ((List.Sublist.append_right ?_ _).append_left _)
    refine List.Sublist.append_left ?_ _
    -- what is sent is what was constructed, and is lost where the socket is not connected
    cases connected with
    | true => exact List.Sublist.refl _
    | false => exact List.nil_sublist _

theorem keeps_step (h : Inv machine s) (ho : Ordinary s l) (hs : step c machine s l = some s')
    (hl : l ≠ .handle) : Keeps machine s s' := by
  have hpos := h.totals_nonneg
  cases l with
  | recordScreenshotSuccess =>
    cases hs
    exact keeps_record ⟨le_increment hpos.1 ho, Int.le_refl _⟩
  | recordUploadSuccess =>
    cases hs
    exact keeps_record ⟨Int.le_refl _, le_increment hpos.2 ho⟩
  | coordinator l health connected =>
    obtain ⟨coordinator, hcoordinator, rfl⟩ := Option.map_eq_some_iff.mp hs
    exact keeps_sentBy hcoordinator health connected
  | construct utcNow health =>
    simp only [step] at hs
    split at hs
    · rename_i hnone
      cases hs
      exact keeps_construct (Option.isNone_iff_eq_none.mp hnone) rfl
    · cases hs
  | send connected =>
    obtain ⟨state, hstate, rfl⟩ := Option.map_eq_some_iff.mp hs
    exact keeps_send hstate connected
  | handle => exact absurd rfl hl
  | other server =>
    simp only [step] at hs
    split at hs
    · rename_i hsame
      cases hs
      exact ⟨hsame.1, hsame.2, rfl, fun _ => Or.inl, fun _ h => h⟩
    · cases hs

omit [Runtime] in
/-- Such a step keeps the invariant. -/
theorem Inv.keeps (h : Inv machine s) (hkeeps : Keeps machine s s') : Inv machine s' where
  active := hkeeps.status.trans h.active
  rising := by
    have hsame : ofRun machine s' = ofRun machine s := by
      unfold ofRun
      rw [hkeeps.stored, hkeeps.reported]
    rw [hsame]
    exact hkeeps.rising _ h.rising
  zeros m hm hsender := (hkeeps.messages m hm).elim (fun hm => h.zeros m hm hsender) (· hsender)

/-! ### Heartbeats that are handled -/

/-- A handled heartbeat, and what is stored then. -/
theorem handle_spec (hmachine : machine ≠ "") (h : Inv machine s) (ho : Ordinary s .handle)
    (hs : step c machine s .handle = some s') :
    ∃ m, s.messages = m :: s'.messages ∧ statusOf machine s'.server = some .active ∧
      storedCounts machine s'.server = some m.2.counts ∧ s'.reported = true ∧
      s'.state = s.state ∧ s'.healthMonitor = s.healthMonitor := by
  simp only [step] at hs
  split at hs
  · cases hs
  · rename_i sender p messages hmessages
    cases hs
    have hp : Readable p := ho (sender, p) (by rw [hmessages]; rfl)
    exact ⟨(sender, p), hmessages, statusOf_deliver h.active,
      storedCounts_deliver hmachine h.active hp, rfl, rfl, rfl⟩

theorem inv_step (hmachine : machine ≠ "") (h : Inv machine s) (ho : Ordinary s l)
    (hs : step c machine s l = some s') : Inv machine s' := by
  by_cases hl : l = .handle
  · subst hl
    obtain ⟨⟨sender, p⟩, hmessages, hactive, hstored, hreported, hstate, hhealth⟩ :=
      handle_spec hmachine h ho hs
    refine ⟨hactive, ?_, fun m hm => h.zeros m (hmessages ▸ List.mem_cons_of_mem _ hm)⟩
    have hofRun : ofRun machine s' = [p.counts] := by
      rw [ofRun, if_pos hreported, hstored]
      rfl
    have hrest : Rising (flow s) := h.rising.sublist (List.sublist_append_right _ _)
    rw [hofRun]
    unfold flow at hrest ⊢
    rw [hmessages] at hrest
    rw [hstate, hhealth]
    cases sender with
    | worker => exact hrest
    | coordinator =>
      have hzero : p.counts = .zero := h.zeros (.coordinator, p) (by rw [hmessages]; simp) rfl
      rw [hzero]
      refine List.pairwise_cons.mpr ⟨?_, hrest⟩
      intro a ha
      rcases List.mem_cons.mp ha with rfl | ha
      · exact Counts.le_refl _
      · exact (List.pairwise_cons.mp hrest).1 a ha
  · exact h.keeps (keeps_step h ho hs hl)

omit [Runtime] in
/-- What the run has stored is not lower than zeros, nor higher than what the worker has sent. -/
theorem Inv.stored (h : Inv machine s) (hreported : s.reported = true) {before : Counts}
    (hbefore : storedCounts machine s.server = some before) :
    Counts.zero ≤ before ∧ ∀ a ∈ flow s, before ≤ a := by
  have hrising := h.rising
  rw [ofRun, if_pos hreported, hbefore] at hrising
  obtain ⟨hzero, hrest⟩ := List.pairwise_cons.mp hrising
  exact ⟨hzero before List.mem_cons_self, (List.pairwise_cons.mp hrest).1⟩

/-- **One step** keeps the claim iff it is harmless. -/
theorem notDecreasing_step (hmachine : machine ≠ "") (h : Inv machine s) (ho : Ordinary s l)
    (hs : step c machine s l = some s') :
    NotDecreasing machine s l s' ↔ Harmless machine s l := by
  by_cases hl : l = .handle
  · subst hl
    obtain ⟨⟨sender, p⟩, hmessages, -, hstored, -, -, -⟩ := handle_spec hmachine h ho hs
    have hhead : s.messages.head? = some (sender, p) := by
      rw [hmessages]
      rfl
    cases sender with
    | worker =>
      refine iff_of_true (fun hreported before hbefore after hafter => ?_) ?_
      · obtain rfl : p.counts = after := Option.some.inj (hstored.symm.trans hafter)
        refine (h.stored hreported hbefore).2 p.counts ?_
        unfold flow
        rw [hmessages]
        exact List.mem_append_left _ (List.mem_append_left _ List.mem_cons_self)
      · intro _ _ m hm hsender
        obtain rfl : (Sender.worker, p) = m := Option.some.inj (hhead.symm.trans hm)
        exact Sender.noConfusion hsender
    | coordinator =>
      have hzero : p.counts = .zero := h.zeros (.coordinator, p) (by rw [hmessages]; simp) rfl
      constructor
      · intro hclaim _ hreported _ _ _ before hbefore
        have hle := hclaim hreported before hbefore p.counts hstored
        exact Counts.le_antisymm (hzero ▸ hle) (h.stored hreported hbefore).1
      · intro hharmless hreported before hbefore after hafter
        obtain rfl : p.counts = after := Option.some.inj (hstored.symm.trans hafter)
        rw [hharmless rfl hreported _ hhead rfl before hbefore, hzero]
        exact Counts.le_refl _
  · refine iff_of_true (fun _ before hbefore after hafter => ?_) fun hhandle => absurd hhandle hl
    rw [(keeps_step h ho hs hl).stored] at hafter
    cases hbefore.symm.trans hafter
    exact Counts.le_refl _

/-! ## Every run -/

/-- A run of the service begins, with the server as it is. -/
def starting (server : Store) : State where
  server

omit [Runtime] in
theorem inv_starting {server : Store} (hactive : statusOf machine server = some .active) :
    Inv machine (starting server) where
  active := hactive
  rising := List.pairwise_pair.mpr (Counts.le_refl _)
  zeros _ hm := absurd hm List.not_mem_nil

/-- **Progress counters do not go backwards** in a run iff each heartbeat of the coordinator is the
    first to be handled, or meets zeros. -/
theorem notDecreasing_iff (c : Casing) (hmachine : machine ≠ "") {server : Store}
    (hactive : statusOf machine server = some .active) {labels : List Label}
    (hordinary : Runs.EachStep (step c machine) (fun s l _ => Ordinary s l) (starting server)
      labels) :
    Runs.EachStep (step c machine) (NotDecreasing machine) (starting server) labels ↔
      Runs.EachStep (step c machine) (fun s l _ => Harmless machine s l) (starting server)
        labels := by
  have hkeep : ∀ (s : State) (l : Label) (s' : State), Inv machine s → Ordinary s l →
      Harmless machine s l → step c machine s l = some s' → Inv machine s' :=
    fun _ _ _ h ho _ hs => inv_step hmachine h ho hs
  have hstep : ∀ (s : State) (l : Label) (s' : State), Inv machine s → Ordinary s l →
      step c machine s l = some s' → (NotDecreasing machine s l s' ↔ Harmless machine s l) :=
    fun _ _ _ h ho hs => notDecreasing_step hmachine h ho hs
  exact Runs.eachStep_iff_of hkeep hstep (inv_starting hactive) hordinary

end Delivery

/-! ## A screenshot taken, reported, and lost again -/

instance (machine : String) (s : State) (l : Label) (s' : State) :
    Decidable (NotDecreasing machine s l s') :=
  inferInstanceAs (Decidable (s.reported = true → ∀ before ∈ storedCounts machine s.server,
    ∀ after ∈ storedCounts machine s'.server, before ≤ after))

instance ordinaryDecidable [Runtime] (s : State) : ∀ l : Label, Decidable (Ordinary s l)
  | .recordScreenshotSuccess =>
    inferInstanceAs (Decidable (s.healthMonitor.totalScreenshotsSuccessful < maxValue))
  | .recordUploadSuccess =>
    inferInstanceAs (Decidable (s.healthMonitor.totalUploadsSuccessful < maxValue))
  | .handle => inferInstanceAs (Decidable (∀ m ∈ s.messages.head?, Readable m.2))
  | .coordinator .. | .construct .. | .send _ | .other _ => .isTrue trivial

/-- Noon of 1 March 2024. -/
def noon : Time.DateTime := ⟨638448912000000000, by decide⟩

/-- The worker reports a screenshot; then the coordinator, which has seen a window, sends its
    heartbeat. -/
def forgotten : List Label := [
  .recordScreenshotSuccess, .construct noon (.obj []), .send true, .handle,
  .coordinator (.updateActivity { timestamp := 1709294400, activeWindow := "Inbox" } true)
    (.obj []) true,
  .coordinator (.iterate noon {} true "1.6.0.0") (.obj []) true, .handle]

theorem notDecreasing_iff_forgotten :
    Runs.EachStep (@step (AuditDelivery.reading [offset noon]) .camel "PC-1")
        (NotDecreasing "PC-1") (starting .adopted) forgotten ↔
      Runs.EachStep (@step (AuditDelivery.reading [offset noon]) .camel "PC-1")
        (fun s l _ => Harmless "PC-1" s l) (starting .adopted) forgotten :=
  @notDecreasing_iff (AuditDelivery.reading [offset noon]) "PC-1" .camel (by decide) .adopted rfl
    forgotten (by decide)

theorem not_notDecreasing_forgotten :
    ¬ Runs.EachStep (@step (AuditDelivery.reading [offset noon]) .camel "PC-1")
      (NotDecreasing "PC-1") (starting .adopted) forgotten := by
  decide

end Server.ProgressCounters
