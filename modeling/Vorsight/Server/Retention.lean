/-
  RETENTION: what the two cleanup jobs delete (jobs/cleanup.ts and jobs/heartbeatCleanup.ts).

  Both jobs read the one row of `cleanup_settings`, and both delete from `activity_history`, the
  table of raw heartbeats: `performCleanup` by its days of activity, `cleanupHeartbeats` by its
  hours of heartbeats.  Any number of runs of either interleave at their `await`s, and everything
  but the settings may change in between.

  1. **Due** — when a job's settings allow a row to go.  Days are counted in the local calendar of
     the server, as `setDate` counts them.

  2. **One run** (`guar_performCleanup`, `guar_cleanupHeartbeats`): each step of a run deletes only
     what is due by the settings the run has read.

  3. `honoured_run`: in every interleaving, every step of a job deletes only what is due.
-/
import Vorsight.Library.Run
import Vorsight.Library.Task
import Vorsight.Library.Time
import Vorsight.Server.Database

namespace Server.Retention

open Tables Tasks Time

/-! ## The settings -/

/-- What is to be kept for how long. -/
structure Periods where
  activityRetentionDays : Int := 90
  screenshotRetentionDays : Int := 30
  auditRetentionDays : Int := 180
  heartbeatRetentionHours : Int := 48
  deleteDriveFiles : Bool := false
deriving DecidableEq, Repr

/-- The row of `cleanup_settings`. -/
structure CleanupSettings extends Periods where
  lastCleanupRun : Option DateTime := none
deriving DecidableEq, Repr

structure Store where
  db : Database
  cleanupSettings : Option CleanupSettings

/-- What the row says, if there is one. -/
def Store.periods (s : Store) : Option Periods := s.cleanupSettings.map CleanupSettings.toPeriods

structure CleanupStats where
  activityDeleted : Nat := 0
  screenshotsDeleted : Nat := 0
  auditsDeleted : Nat := 0
deriving DecidableEq, Repr

/-! ## `deleteMany` -/

/-- `activityHistory.deleteMany({ where: { timestamp: { lt: cutoffDate } } })`. -/
def deleteActivityHistory (cutoffDate : DateTime) : Task Store Nat := Task.op fun s =>
  let p : ActivityHistory → Bool := fun row => row.timestamp < cutoffDate
  some ({ s with db.activityHistory := s.db.activityHistory.filter (!p ·) },
    s.db.activityHistory.rows.countP p)

/-- `screenshot.deleteMany({ where: { captureTime: { lt: cutoffDate } } })`. -/
def deleteScreenshots (cutoffDate : DateTime) : Task Store Nat := Task.op fun s =>
  let p : Screenshot → Bool := fun row => row.captureTime < cutoffDate
  some ({ s with db.screenshots := s.db.screenshots.filter (!p ·) },
    s.db.screenshots.rows.countP p)

/-- `auditEvent.deleteMany({ where: { acknowledged: true, timestamp: { lt: cutoffDate } } })`. -/
def deleteAuditEvents (cutoffDate : DateTime) : Task Store Nat := Task.op fun s =>
  let p : AuditEvent → Bool := fun row => row.acknowledged && row.timestamp < cutoffDate
  some ({ s with db.auditEvents := s.db.auditEvents.filter (!p ·) },
    s.db.auditEvents.rows.countP p)

/-! ## The jobs -/

section Jobs

variable (zone : Zone)

/-- One kind of data, unless its days are 0 (or negative).  An invalid cutoff date is rejected by
    the Prisma call it is given to. -/
def cleanUp (now : DateTime) (retentionDays : Int) (deleteMany : DateTime → Task Store Nat) :
    Task Store Nat :=
  if retentionDays > 0 then do
    let cutoffDate ← Tasks.Task.get (zone.addDays now (-retentionDays))
    deleteMany cutoffDate
  else pure 0

/-- `now` is the `new Date()` the cutoffs are counted from, `finished` the one that is stored. -/
def performCleanup (now finished : DateTime) : Task Store CleanupStats := do
  let settings ← Task.query Store.cleanupSettings
  match settings with
  | none => pure {}
  | some settings =>
    -- Clean up activity history
    let activityDeleted ← cleanUp zone now settings.activityRetentionDays deleteActivityHistory
    -- Clean up screenshots
    let screenshotsDeleted ← cleanUp zone now settings.screenshotRetentionDays fun cutoffDate => do
      -- the files they name on Google Drive are not deleted yet (a TODO)
      let _ ← Task.query fun s => (s.db.screenshots.rows.filter (·.captureTime < cutoffDate)).map
        fun row => (row.id, row.googleDriveFileId)
      deleteScreenshots cutoffDate
    -- Clean up acknowledged audit events only
    let auditsDeleted ← cleanUp zone now settings.auditRetentionDays deleteAuditEvents
    -- Update last cleanup run
    Task.op fun s => s.cleanupSettings.map fun row =>
      ({ s with cleanupSettings := some { row with lastCleanupRun := some finished } }, ())
    pure { activityDeleted, screenshotsDeleted, auditsDeleted }

/-- `settings?.heartbeatRetentionHours || 48`. -/
def retentionHours : Option Periods → Int
  | some periods => if periods.heartbeatRetentionHours = 0 then 48
      else periods.heartbeatRetentionHours
  | none => 48

def cleanupHeartbeats (now : DateTime) : Task Store Unit :=
  Task.handle (do
    let settings ← Task.query Store.periods
    let cutoffDate ← Tasks.Task.get (timeClip (now - retentionHours settings * 60 * 60 * 1000))
    let _ ← deleteActivityHistory cutoffDate
    pure ()) (pure ())

/-- A run of a job, with the time it reads from the clock. -/
inductive Job
  | performCleanup (now finished : DateTime)
  | cleanupHeartbeats (now : DateTime)

def Job.now : Job → DateTime
  | .performCleanup now _ | .cleanupHeartbeats now => now

/-- The scheduled job and the route log what `performCleanup` throws. -/
def handler : Job → Task Store Unit
  | .performCleanup now finished => Task.handle (do
      let _ ← performCleanup zone now finished
      pure ()) (pure ())
  | .cleanupHeartbeats now => cleanupHeartbeats now

/-- Others change the data, not the settings. -/
def outside (db : Database) (s : Store) : Store := { s with db }

/-- Runs of the jobs, interleaved. -/
def step : Pool Job Store → Label Job Database → Option (Pool Job Store) :=
  Pool.step (handler zone) outside

/-! ## What may be deleted -/

/-- A time is older than a number of days of the settings, and that number is not 0. -/
def OlderThanDays (now : DateTime) (days : Periods → Int) (periods : Option Periods)
    (t : DateTime) : Prop :=
  ∃ set ∈ periods, 0 < days set ∧ ∃ cutoffDate ∈ zone.addDays now (-days set), t < cutoffDate

/-- A time is older than the hours of the settings. -/
def OlderThanHours (now : DateTime) (periods : Option Periods) (t : DateTime) : Prop :=
  ∃ cutoffDate ∈ timeClip (now - retentionHours periods * 60 * 60 * 1000), t < cutoffDate

/-- The rows that are gone are of this kind. -/
def Only {ρ : Type} (due : ρ → Prop) (rows rows' : List ρ) : Prop := ∀ r ∈ rows, r ∉ rows' → due r

/-- A step deletes only what is due; which rows of `activity_history` are is a parameter. -/
structure Honoured (activityDue : ActivityHistory → Prop) (now : DateTime)
    (periods : Option Periods) (s s' : Store) : Prop where
  activity : Only activityDue s.db.activityHistory.rows s'.db.activityHistory.rows
  screenshots : Only (fun r => OlderThanDays zone now Periods.screenshotRetentionDays periods
    r.captureTime) s.db.screenshots.rows s'.db.screenshots.rows
  audits : Only (fun r => r.acknowledged = true ∧
    OlderThanDays zone now Periods.auditRetentionDays periods r.timestamp)
    s.db.auditEvents.rows s'.db.auditEvents.rows

/-- The rows of `activity_history` a job may delete: raw heartbeats have a period of their own. -/
def Job.activityDue (periods : Option Periods) (row : ActivityHistory) : Job → Prop
  | .performCleanup now _ =>
    OlderThanDays zone now Periods.activityRetentionDays periods row.timestamp
  | .cleanupHeartbeats now => OlderThanHours now periods row.timestamp

/-- What each step of a job does. -/
def Guarantees (periods : Option Periods) (job : Job) (s s' : Store) : Prop :=
  s'.periods = s.periods ∧
    Honoured zone (job.activityDue zone periods ·) job.now periods s s'

/-- What the jobs rely on. -/
def Relies (s s' : Store) : Prop := s'.periods = s.periods

variable {zone} {periods : Option Periods} {job : Job} {s s' : Store}

theorem Relies.refl (s : Store) : Relies s s := rfl

theorem Relies.trans {t : Store} (hst : Relies s s') (htu : Relies s' t) : Relies s t :=
  Eq.trans htu hst

theorem outside_relied (db : Database) (s : Store) : Relies s (outside db s) := rfl

theorem Only.refl {ρ : Type} {due : ρ → Prop} (rows : List ρ) : Only due rows rows :=
  fun _ hr hnot => absurd hr hnot

theorem Only.filter {ρ : Type} {due : ρ → Prop} {p : ρ → Bool} (rows : List ρ)
    (h : ∀ r, p r = true → due r) : Only due rows (rows.filter (!p ·)) := by
  intro r hr hgone
  refine h r ?_
  by_cases hp : p r = true
  · exact hp
  · exact absurd (List.mem_filter.mpr ⟨hr, by simpa using hp⟩) hgone

theorem guarantees_of_db (h : s'.periods = s.periods) (hdb : s'.db = s.db) :
    Guarantees zone periods job s s' := by
  refine ⟨h, ?_, ?_, ?_⟩
  · exact hdb ▸ Only.refl _
  · exact hdb ▸ Only.refl _
  · exact hdb ▸ Only.refl _

theorem guarantees_refl (s : Store) : Guarantees zone periods job s s := guarantees_of_db rfl rfl

/-- The task takes only steps that the job may take. -/
abbrev Keeps {α : Type} (zone : Zone) (periods : Option Periods) (job : Job) (p : Task Store α) :
    Prop :=
  ∀ s, p.Guar Relies (Guarantees zone periods job) (fun _ _ => True) (fun _ => True) s

theorem Keeps.bind {α β : Type} {p : Task Store α} {k : α → Task Store β}
    (hp : Keeps zone periods job p) (hk : ∀ a, Keeps zone periods job (k a)) :
    Keeps zone periods job (p >>= k) :=
  fun s => Task.Guar.bind Relies.refl (fun a t _ => hk a t) (hp s)

theorem Keeps.handle {α : Type} {p c : Task Store α} (hp : Keeps zone periods job p)
    (hc : Keeps zone periods job c) : Keeps zone periods job (p.handle c) :=
  fun s => Task.Guar.handle Relies.refl (fun t _ => hc t) (hp s)

theorem keeps_pure {α : Type} (a : α) : Keeps zone periods job (pure a) :=
  fun _ => Task.Guar.done fun _ _ => trivial

theorem keeps_query {α : Type} (f : Store → α) : Keeps zone periods job (Task.query f) :=
  fun _ => Task.Guar.query guarantees_refl (fun _ _ _ _ => trivial) fun _ => trivial

theorem keeps_op {α : Type} {f : Store → Option (Store × α)}
    (hf : ∀ s s' a, f s = some (s', a) → Guarantees zone periods job s s') :
    Keeps zone periods job (Task.op f) :=
  fun _ => Task.Guar.op guarantees_refl
    (fun s s' a _ h => ⟨hf s s' a h, fun _ _ => trivial⟩) fun _ => trivial

/-! ## One run -/

theorem keeps_deleteActivityHistory {cutoffDate : DateTime}
    (hdue : ∀ row : ActivityHistory, row.timestamp < cutoffDate →
      job.activityDue zone periods row) :
    Keeps zone periods job (deleteActivityHistory cutoffDate) := by
  refine keeps_op fun s s' n h => ?_
  cases h
  refine ⟨rfl, ?_, Only.refl _, Only.refl _⟩
  exact Only.filter _ fun r hr => hdue r (by simpa using hr)

theorem keeps_deleteScreenshots {cutoffDate : DateTime}
    (hdue : ∀ t < cutoffDate,
      OlderThanDays zone job.now Periods.screenshotRetentionDays periods t) :
    Keeps zone periods job (deleteScreenshots cutoffDate) := by
  refine keeps_op fun s s' n h => ?_
  cases h
  refine ⟨rfl, Only.refl _, ?_, Only.refl _⟩
  exact Only.filter _ fun r hr => hdue r.captureTime (by simpa using hr)

theorem keeps_deleteAuditEvents {cutoffDate : DateTime}
    (hdue : ∀ t < cutoffDate, OlderThanDays zone job.now Periods.auditRetentionDays periods t) :
    Keeps zone periods job (deleteAuditEvents cutoffDate) := by
  refine keeps_op fun s s' n h => ?_
  cases h
  refine ⟨rfl, Only.refl _, Only.refl _, ?_⟩
  intro r hr hgone
  have hwhere := @Only.filter _ (fun row : AuditEvent =>
    row.acknowledged = true ∧ row.timestamp < cutoffDate) _ _ (by simp) r hr hgone
  exact ⟨hwhere.1, hdue r.timestamp hwhere.2⟩

/-- A `deleteMany` is made for positive days only, with the cutoff that makes its rows due. -/
theorem keeps_cleanUp {now : DateTime} {days : Periods → Int} {set : Periods}
    {deleteMany : DateTime → Task Store Nat}
    (hdelete : ∀ cutoffDate,
      (∀ t < cutoffDate, OlderThanDays zone now days (some set) t) →
        Keeps zone periods job (deleteMany cutoffDate)) :
    Keeps zone periods job (cleanUp zone now (days set) deleteMany) := by
  unfold cleanUp
  split
  · rename_i hpos
    cases hcutoff : zone.addDays now (-days set) with
    | none => exact fun s => Task.Guar.throw fun _ _ => trivial
    | some cutoffDate =>
      rw [Task.get_some, Task.done_bind]
      exact hdelete cutoffDate fun t ht => ⟨set, rfl, hpos, cutoffDate, hcutoff, ht⟩
  · exact keeps_pure 0

/-- **A run of `performCleanup`** that reads the settings deletes only what is due by them. -/
theorem guar_performCleanup (now finished : DateTime) (s : Store) :
    (performCleanup zone now finished).Guar Relies
      (Guarantees zone s.periods (.performCleanup now finished)) (fun _ _ => True)
      (fun _ => True) s := by
  refine Task.Guar.bind Relies.refl
    (Q := fun (settings : Option CleanupSettings) _ =>
      settings.map CleanupSettings.toPeriods = s.periods)
    ?rest (Task.Guar.query guarantees_refl ?read fun _ => trivial)
  case read =>
    intro t u hst htu
    exact hst
  case rest =>
    intro settings t hread
    cases settings with
    | none => exact Task.Guar.done fun _ _ => trivial
    | some settings =>
      rw [← hread]
      refine Keeps.bind (keeps_cleanUp fun cutoffDate hdue => ?_) (fun activityDeleted => ?_) t
      · exact keeps_deleteActivityHistory fun row hrow => hdue row.timestamp hrow
      refine Keeps.bind (keeps_cleanUp fun cutoffDate hdue => ?_) fun screenshotsDeleted => ?_
      · exact (keeps_query _).bind fun _ => keeps_deleteScreenshots hdue
      refine Keeps.bind (keeps_cleanUp fun cutoffDate hdue => ?_) fun auditsDeleted => ?_
      · exact keeps_deleteAuditEvents hdue
      refine Keeps.bind (keeps_op fun s s' _ h => ?_) fun _ => keeps_pure _
      obtain ⟨row, hrow, ⟨⟩⟩ := Option.map_eq_some_iff.mp h
      refine guarantees_of_db ?_ rfl
      simp [Store.periods, hrow]

/-- **A run of `cleanupHeartbeats`.** -/
theorem guar_cleanupHeartbeats (now : DateTime) (s : Store) :
    (cleanupHeartbeats now).Guar Relies (Guarantees zone s.periods (.cleanupHeartbeats now))
      (fun _ _ => True) (fun _ => True) s := by
  refine Task.Guar.handle (E := fun _ => True) Relies.refl (fun t _ => keeps_pure () t) ?_
  refine Task.Guar.bind (Q := fun periods _ => periods = s.periods) Relies.refl ?rest
    (Task.Guar.query guarantees_refl ?read fun _ => trivial)
  case read =>
    intro t u hst htu
    exact hst
  case rest =>
    rintro _ t rfl
    cases hcutoff : timeClip (now - retentionHours s.periods * 60 * 60 * 1000) with
    | none => exact Task.Guar.throw fun _ _ => trivial
    | some cutoffDate =>
      rw [Task.get_some, Task.done_bind]
      refine Keeps.bind (keeps_deleteActivityHistory fun row hrow => ?_) (fun _ => keeps_pure ()) t
      exact ⟨cutoffDate, hcutoff, hrow⟩

theorem guar_handler (job : Job) (s : Store) :
    (handler zone job).Guar Relies (Guarantees zone s.periods job) (fun _ _ => True)
      (fun _ => True) s := by
  cases job with
  | performCleanup now finished =>
    refine Task.Guar.handle (E := fun _ => True) Relies.refl (fun t _ => keeps_pure () t) ?_
    exact Task.Guar.bind Relies.refl (fun _ t _ => keeps_pure () t)
      (guar_performCleanup now finished s)
  | cleanupHeartbeats now => exact guar_cleanupHeartbeats now s

/-! ## Every interleaving -/

/-- The settings are the same, and each run in progress keeps its guarantee. -/
def Inv (zone : Zone) (periods : Option Periods) (p : Pool Job Store) : Prop :=
  p.store.periods = periods ∧ Pool.Inv (handler zone) Relies (Guarantees zone periods) p

variable {p p' : Pool Job Store} {l : Label Job Database}

theorem first_handler (hperiods : p.store.periods = periods) (job : Job) :
    (handler zone job).First Relies (Guarantees zone periods job) (fun _ _ => True)
      (fun _ => True) p.store := by
  subst hperiods
  exact (guar_handler job p.store).first Relies.refl

/-- **One step**: the invariant is kept, and the job that moves deletes only what is due. -/
theorem step_spec (hi : Inv zone periods p) (hs : step zone p l = some p') :
    Inv zone periods p' ∧ ∀ job ∈ p.mover l, Guarantees zone periods job p.store p'.store := by
  obtain ⟨hperiods, hpool⟩ := hi
  have hfirst : ∀ job ∈ p.mover l, (handler zone job).First Relies (Guarantees zone periods job)
      (fun _ _ => True) (fun _ => True) p.store := fun job _ => first_handler hperiods job
  have hpool' := Pool.inv_step Relies.refl (fun _ _ _ => Relies.trans) (fun _ _ _ h => h.1)
    outside_relied hpool hfirst hs
  cases l with
  | spawn job =>
    cases hs
    exact ⟨⟨hperiods, hpool'⟩, fun job h => absurd h (Option.not_mem_none job)⟩
  | advance i =>
    obtain ⟨⟨job, hjob, hG⟩, -⟩ := Pool.advance_spec Relies.refl (fun _ _ _ => Relies.trans)
      (fun _ _ _ h => h.1) hpool hfirst hs
    refine ⟨⟨hG.1.trans hperiods, hpool'⟩, fun job' hjob' => ?_⟩
    cases Option.mem_unique hjob hjob'
    exact hG
  -- a failed operation leaves the store alone
  | fail i =>
    rcases Pool.step_cases hs with ⟨_, ⟨⟩, _⟩ | ⟨_, _, _, _, _, ⟨⟩, _⟩ |
      ⟨_, _, _, _, _, _, _, rfl⟩ | ⟨_, ⟨⟩, _⟩
    exact ⟨⟨hperiods, hpool'⟩, fun job _ => guarantees_refl p.store⟩
  | outside db =>
    cases hs
    exact ⟨⟨hperiods, hpool'⟩, fun job h => absurd h (Option.not_mem_none job)⟩

/-- **Retention**: whatever the settings, the data and the interleaving, each step of
    `performCleanup` deletes only heartbeats older than `activityRetentionDays`, each step of
    `cleanupHeartbeats` only those older than `heartbeatRetentionHours`; and no other screenshots
    and audit events go than those whose own period is over. -/
theorem honoured_run (zone : Zone) (db : Database) (cleanupSettings : Option CleanupSettings)
    (labels : List (Label Job Database)) :
    Runs.EachStep (step zone) (fun p l p' => ∀ job ∈ p.mover l,
      Honoured zone (job.activityDue zone (cleanupSettings.map CleanupSettings.toPeriods) ·) job.now
        (cleanupSettings.map CleanupSettings.toPeriods) p.store p'.store)
      { store := { db, cleanupSettings }, tasks := [] } labels := by
  have hinitial : Inv zone (cleanupSettings.map CleanupSettings.toPeriods)
      { store := { db, cleanupSettings }, tasks := [] } := ⟨rfl, Pool.inv_nil⟩
  refine Runs.eachStep_of_inv (fun p l p' hi hs => (step_spec hi hs).1) ?_ hinitial
  intro p l p' hi hs job hjob
  exact ((step_spec hi hs).2 job hjob).2

end Jobs

/-! ## Heartbeats and days -/

def utc : Zone := ⟨id, id⟩

/-- One heartbeat, of the start of 1970. -/
def heartbeat : Database :=
  { Database.empty with
    activityHistory := Sequence.empty.create
      (fun id => ⟨id, "PC-1", 0, some "Inbox", some "outlook", none, none⟩) fun _ => rfl }

/-- Three days later, with the settings' defaults, it is deleted, though activity is to be kept for
    90 days. -/
theorem not_honoured_heartbeat : ¬ Runs.EachStep (step utc) (fun p l p' => ∀ job ∈ p.mover l,
    Honoured utc (fun row => OlderThanDays utc job.now Periods.activityRetentionDays (some {})
      row.timestamp) job.now (some {}) p.store p'.store)
    { store := { db := heartbeat, cleanupSettings := some {} }, tasks := [] }
    [.spawn (.cleanupHeartbeats 259200000), .advance 0, .advance 0] := by
  intro h
  have hlast := ((((h _ rfl).2 _ rfl).2 _ rfl).1 _ rfl).activity _ (List.mem_singleton.mpr rfl)
    (by decide)
  obtain ⟨_, ⟨⟩, -, cutoffDate, hcutoff, holder⟩ := hlast
  cases hcutoff
  exact absurd holder (by decide)

end Server.Retention
