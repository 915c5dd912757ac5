/-
  SESSIONS, as both entry points aggregate activities into them.

  `machine:activity` and `POST /activity` do the same with what they accept: a history row, then the
  machine's most recent session is continued, or a new one started.  They differ in when a session
  continues, how far it reaches, and in the row of a new one.

  1. **Program** — `Beat` is what they differ in, `record` what they have in common
     (`aggregate_eq`, `updateSessions_eq`).

  2. **One call alone** (`sessions_onMessage`, `sessions_onRequest`): the sessions afterwards are
     those of `recorded`, for the machine and the beat that the call is accepted as, or it changes
     none.

  3. **Are stored sessions sane?** (`sound_iff`)  Every session stays sane and none is shortened,
     exactly as long as no activity that continues a session ends before it: the gap is bounded from
     one side only.
-/
import Vorsight.Library.Run
import Vorsight.Server.Collection

namespace Server.Sessions

open Js Tables Tasks

section Sessions

variable [Runtime]

/-! ## Beats -/

/-- An accepted activity, for the sessions: when it continues one, the time it makes that one reach
    to, and the session it starts otherwise. -/
structure Beat where
  continues : ActivitySession → Bool
  reach : Option Int
  newSession : DateTime → Option ActivitySession

def ofActivity (id : String) (a : Activity) (timeSeconds : Int) : Beat where
  continues := shouldExtend a timeSeconds
  reach := addInt timeSeconds a.duration
  newSession := a.sessionRow id timeSeconds

def ofHeartbeat (id : String) (h : Heartbeat) (timeSeconds : Int) : Beat where
  continues := continues h timeSeconds
  reach := some timeSeconds
  newSession := h.sessionRow id timeSeconds

/-- The row of a session, when it is extended as it was read. -/
def extended (recent : ActivitySession) (endTime : Int) (now : DateTime) (r : ActivitySession) :
    ActivitySession :=
  { r with
    endTime
    durationSeconds := endTime - recent.startTime
    heartbeatCount := recent.heartbeatCount + 1
    updatedAt := now }

/-- Extend the session that was read, or start one. -/
def record (id : String) (b : Beat) (recent : Option ActivitySession) (db : Database)
    (now : DateTime) : Option Database :=
  match recent.filter b.continues with
  | some recent => do
    let endTime ← b.reach
    db.updateSession recent.id (extended recent endTime now) fun _ => rfl
  | none => do
    let row ← b.newSession now
    db.createSession id row

omit [Runtime] in
/-- The socket's aggregation. -/
theorem aggregate_eq (id : String) (a : Activity) (timeSeconds : Int)
    (recent : Option ActivitySession) :
    aggregate id a timeSeconds recent = write (record id (ofActivity id a timeSeconds) recent) := by
  unfold aggregate record
  have hsame : (ofActivity id a timeSeconds).continues = shouldExtend a timeSeconds := rfl
  rw [hsame]
  cases recent.filter (shouldExtend a timeSeconds) with
  | none => rfl
  | some r => rfl

/-- The aggregation of the REST route. -/
theorem updateSessions_eq (id : String) (h : Heartbeat) (timeSeconds : Int)
    (recent : Option ActivitySession) :
    updateSessions id h timeSeconds recent =
      write (record id (ofHeartbeat id h timeSeconds) recent) := by
  unfold updateSessions record
  have hsame : (ofHeartbeat id h timeSeconds).continues = continues h timeSeconds := rfl
  rw [hsame]
  cases recent.filter (continues h timeSeconds) with
  | none => rfl
  | some r => rfl

/-! ## What is accepted -/

/-- The history row and the beat of a payload of `machine:activity`. -/
def acceptActivity (id : String) (activity : Value) : Option (ActivityHistory × Beat) := do
  let a ← readActivity activity
  let row ← a.historyRow id
  let time ← newDate a.timestamp
  pure (row, ofActivity id a (time / 1000))

/-- The history row and the beat of a body of `POST /activity`; there is no beat where the time is
    no integer. -/
def acceptHeartbeat (id : String) (body : Value) (now : DateTime) :
    Option (ActivityHistory × Option Beat) := do
  let h ← readHeartbeat body
  let time ← heartbeatTime h.timestamp now
  let row ← h.historyRow id time.1
  pure (row, (requiredInt time.2).map (ofHeartbeat id h))

/-- The sessions after a beat of machine `id`, when the call runs alone. -/
def recorded (id : String) (b : Beat) (s : Store) : Sequence ActivitySession.id :=
  ((record id b (recentSession id s.db) s.db s.now).map (·.activitySessions)).getD
    s.db.activitySessions

/-- `machineId`, where the handler gets past `if (!machineId)` and the query for it. -/
def machineOf (machineId : Value) : Option String :=
  if truthy machineId then requiredText machineId else none

/-- The machine and the beat that a `machine:activity` message is accepted as. -/
def socketBeat (s : Store) (data : Value) : Option (String × Beat) := do
  let machineId ← prop data "machineId"
  let activity ← prop data "activity"
  let id ← machineOf machineId
  let (_, b) ← acceptActivity id activity
  if (s.db.machines.find id).map (·.status) = some .active then some (id, b) else none

/-- The machine and the beat that a request of `POST /activity` is accepted as. -/
def requestBeat (s : Store) (apiKey : Option String) (body : Value) : Option (String × Beat) := do
  let m ← Collection.authenticated s apiKey
  let (_, b) ← acceptHeartbeat m.id body s.now
  let b ← b
  pure (m.id, b)

/-! ## One call alone -/

variable {id : String} {s : Store}

omit [Runtime] in
/-- What follows a write and leaves the database alone. -/
theorem db_exec_bind {α β : Type} {p : Task Store α} {k : α → Task Store β} (s : Store)
    (hk : ∀ a t, ((k a).exec t).1.db = t.db) : ((p >>= k).exec s).1.db = (p.exec s).1.db := by
  rw [Task.exec_bind]
  split
  · exact hk _ _
  · rfl

omit [Runtime] in
theorem sessions_exec_write (f : Database → DateTime → Option Database) (s : Store) :
    ((write f).exec s).1.db.activitySessions =
      ((f s.db s.now).map (·.activitySessions)).getD s.db.activitySessions := by
  cases hdb : f s.db s.now with
  | none =>
    rw [write, Task.exec_op, hdb]
    rfl
  | some db =>
    rw [exec_write_some hdb]
    rfl

omit [Runtime] in
/-- A history row leaves what the aggregation looks at. -/
theorem recorded_of_history (b : Beat) {db : Database} (hmachines : db.machines = s.db.machines)
    (hsessions : db.activitySessions = s.db.activitySessions) :
    recorded id b { s with db } = recorded id b s := by
  have hrecent : recentSession id db = recentSession id s.db := by
    rw [recentSession, recentSession, hsessions]
  unfold recorded record
  simp only [hrecent, hsessions]
  cases (recentSession id s.db).filter b.continues with
  | some r =>
    cases b.reach with
    | none => rfl
    | some endTime =>
      simp only [Option.bind_eq_bind, Option.bind_some, Database.updateSession, hsessions]
      split <;> rfl
  | none =>
    cases b.newSession s.now with
    | none => rfl
    | some row =>
      simp only [Option.bind_eq_bind, Option.bind_some, Database.createSession,
        Database.forMachine, hmachines, hsessions]
      split <;> rfl

omit [Runtime] in
/-- Storing a history row for a machine that is there. -/
theorem exec_createHistory (row : ActivityHistory)
    (hexists : (s.db.machines.find id).isSome) :
    ∃ db, s.db.createHistory id row = some db ∧ db.machines = s.db.machines ∧
      db.activitySessions = s.db.activitySessions :=
  ⟨_, Database.forMachine_eq_some.mpr ⟨hexists, rfl⟩, rfl, rfl⟩

/-- What the aggregation leaves, behind the history row. -/
theorem sessions_storeActivity (activity : Value) (hexists : (s.db.machines.find id).isSome) :
    ((storeActivity id activity).exec s).1.db.activitySessions =
      match acceptActivity id activity with
      | some (_, b) => recorded id b s
      | none => s.db.activitySessions := by
  unfold storeActivity acceptActivity
  cases readActivity activity with
  | none => rfl
  | some a =>
    simp only [Tasks.Task.get_some, Tasks.Task.done_bind, Option.bind_eq_bind, Option.bind_some]
    cases hrow : a.historyRow id with
    | none =>
      have hwrite : createActivityHistory id a s.db s.now = none := by
        rw [createActivityHistory, hrow]
        rfl
      rw [Task.exec_bind, write, Task.exec_op, hwrite]
      rfl
    | some row =>
      obtain ⟨db, hcreate, hmachines, hsessions⟩ := exec_createHistory row hexists
      have hwrite : createActivityHistory id a s.db s.now = some db := by
        rw [createActivityHistory, hrow]
        exact hcreate
      rw [Task.exec_bind_of (exec_write_some hwrite), Task.exec_bind_of (exec_read _ _)]
      cases newDate a.timestamp with
      | none => exact hsessions
      | some time =>
        simp only [Tasks.Task.get_some, Tasks.Task.done_bind, Option.bind_some]
        rw [aggregate_eq, db_exec_bind _ fun _ _ => rfl, sessions_exec_write]
        exact recorded_of_history (ofActivity id a (time / 1000)) hmachines hsessions

omit [Runtime] in
theorem exists_of_status {status : MachineStatus}
    (h : (s.db.machines.find id).map (·.status) = some status) :
    (s.db.machines.find id).isSome := by
  obtain ⟨m, hm, -⟩ := Option.map_eq_some_iff.mp h
  rw [hm]
  rfl

/-- **A message alone** records its beat, if it is accepted as one. -/
theorem sessions_machineActivity (data : Value) (s : Store) :
    ((machineActivity data).exec s).1.db.activitySessions =
      match socketBeat s data with
      | some (id, b) => recorded id b s
      | none => s.db.activitySessions := by
  unfold machineActivity whenActive socketBeat
  simp only [Tasks.Task.pure_eq, Task.exec_handle_done]
  cases prop data "machineId" with
  | none => rfl
  | some machineId =>
    simp only [Tasks.Task.get_some, Tasks.Task.done_bind, Option.bind_eq_bind, Option.bind_some]
    cases prop data "activity" with
    | none => rfl
    | some activity =>
      simp only [Tasks.Task.get_some, Tasks.Task.done_bind, Option.bind_some]
      unfold machineOf
      cases truthy machineId with
      | false => rfl
      | true =>
        simp only [if_true]
        cases requiredText machineId with
        | none => rfl
        | some id =>
          simp only [Tasks.Task.get_some, Tasks.Task.done_bind, Option.bind_some]
          have hread : (findStatus id).exec s =
              (s, some ((s.db.machines.find id).map (·.status))) := rfl
          rw [Task.exec_bind_of hread]
          -- a machine that is not there, or not active, is not served
          have hidle : (match (acceptActivity id activity).bind fun _ =>
              (none : Option (String × Beat)) with
              | some (id, b) => recorded id b s
              | none => s.db.activitySessions) = s.db.activitySessions := by
            cases acceptActivity id activity with
            | none => rfl
            | some accepted => rfl
          cases hstatus : (s.db.machines.find id).map (·.status) with
          | none => exact hidle.symm
          | some status =>
            cases status with
            | pending => exact hidle.symm
            | archived => exact hidle.symm
            | active =>
              show ((storeActivity id activity).exec s).1.db.activitySessions = _
              rw [sessions_storeActivity activity (exists_of_status hstatus)]
              cases acceptActivity id activity with
              | none => rfl
              | some accepted => rfl

/-- **A request alone** records its beat, if it is accepted as one. -/
theorem sessions_activity (apiKey : Option String) (body : Value) (s : Store) :
    ((onRequest (.activity apiKey body)).exec s).1.db.activitySessions =
      match requestBeat s apiKey body with
      | some (id, b) => recorded id b s
      | none => s.db.activitySessions := by
  show ((authenticateMachine apiKey (postActivity · body)).exec s).1.db.activitySessions = _
  rw [Collection.exec_authenticateMachine]
  unfold requestBeat
  cases hauth : Collection.authenticated s apiKey with
  | none => rfl
  | some m =>
    have hexists : (s.db.machines.find m.id).isSome := by
      rw [Collection.find_of_authenticated hauth]
      rfl
    show ((postActivity m body).exec s).1.db.activitySessions = _
    unfold postActivity acceptHeartbeat
    simp only [Tasks.Task.pure_eq, Task.exec_handle_done, Option.bind_eq_bind, Option.bind_some]
    cases readHeartbeat body with
    | none => rfl
    | some h =>
      simp only [Tasks.Task.get_some, Tasks.Task.done_bind, Option.bind_some]
      rw [Task.exec_bind_of (Tasks.Task.exec_look (fun s => s.now) s)]
      cases heartbeatTime h.timestamp s.now with
      | none => rfl
      | some time =>
        simp only [Tasks.Task.get_some, Tasks.Task.done_bind, Option.bind_some]
        cases hrow : h.historyRow m.id time.1 with
        | none =>
          have hwrite : createHeartbeat m.id h time.1 s.db s.now = none := by
            rw [createHeartbeat, hrow]
            rfl
          rw [Task.exec_bind, write, Task.exec_op, hwrite]
          rfl
        | some row =>
          obtain ⟨db, hcreate, hmachines, hsessions⟩ := exec_createHistory row hexists
          have hwrite : createHeartbeat m.id h time.1 s.db s.now = some db := by
            rw [createHeartbeat, hrow]
            exact hcreate
          rw [Task.exec_bind_of (exec_write_some hwrite), Task.exec_bind_of (exec_read _ _)]
          cases requiredInt time.2 with
          | none => exact hsessions
          | some timeSeconds =>
            simp only [Tasks.Task.get_some, Tasks.Task.done_bind, Option.bind_some]
            rw [updateSessions_eq, db_exec_bind _ fun _ _ => rfl, sessions_exec_write]
            exact recorded_of_history (ofHeartbeat m.id h timeSeconds) hmachines hsessions

/-! ## What recording does -/

omit [Runtime] in
/-- A session that continues is extended. -/
theorem recorded_extend {b : Beat} {r : ActivitySession} {endTime : Int}
    (hrecent : recentSession id s.db = some r) (hcontinues : b.continues r = true)
    (hreach : b.reach = some endTime) :
    recorded id b s =
      s.db.activitySessions.update r.id (extended r endTime s.now) fun _ => rfl := by
  have hfind : s.db.activitySessions.find r.id = some r :=
    Table.find_eq_some.mpr ⟨(Reports.mem_of_recentSession hrecent).1, rfl⟩
  have hfilter : (some r).filter b.continues = some r := by simp [hcontinues]
  unfold recorded record
  rw [hrecent, hfilter]
  simp only [hreach, Option.bind_eq_bind, Option.bind_some, Database.updateSession, hfind]
  rfl

omit [Runtime] in
/-- Otherwise one is started. -/
theorem recorded_start {b : Beat} {row : ActivitySession}
    (hrecent : (recentSession id s.db).filter b.continues = none)
    (hrow : b.newSession s.now = some row) (hexists : (s.db.machines.find id).isSome) :
    recorded id b s = s.db.activitySessions.create
      (fun n => { row with id := n, machineId := id }) fun _ => rfl := by
  have hcreate : s.db.createSession id row = some _ :=
    Database.forMachine_eq_some.mpr ⟨hexists, rfl⟩
  unfold recorded record
  rw [hrecent]
  simp only [hrow, Option.bind_eq_bind, Option.bind_some, hcreate]
  rfl

omit [Runtime] in
/-- What recording can be. -/
theorem recorded_cases (id : String) (b : Beat) (s : Store) :
    recorded id b s = s.db.activitySessions ∨
      (∃ r endTime, recentSession id s.db = some r ∧ b.continues r = true ∧
        b.reach = some endTime ∧ recorded id b s =
          s.db.activitySessions.update r.id (extended r endTime s.now) fun _ => rfl) ∨
      ∃ row, b.newSession s.now = some row ∧ recorded id b s = s.db.activitySessions.create
        (fun n => { row with id := n, machineId := id }) fun _ => rfl := by
  cases hfilter : (recentSession id s.db).filter b.continues with
  | some r =>
    obtain ⟨hrecent, hcontinues⟩ := Option.filter_eq_some_iff.mp hfilter
    cases hreach : b.reach with
    | none =>
      left
      unfold recorded record
      rw [hfilter]
      simp only [hreach]
      rfl
    | some endTime =>
      exact .inr (.inl ⟨r, endTime, hrecent, hcontinues, rfl,
        recorded_extend hrecent hcontinues hreach⟩)
  | none =>
    cases hrow : b.newSession s.now with
    | none =>
      left
      unfold recorded record
      rw [hfilter]
      simp only [hrow]
      rfl
    | some row =>
      cases hexists : (s.db.machines.find id).isSome with
      | true => exact .inr (.inr ⟨row, rfl, recorded_start hfilter hrow hexists⟩)
      | false =>
        left
        have hcreate : s.db.createSession id row = none := by
          rw [Database.createSession, Database.forMachine, hexists]
          rfl
        unfold recorded record
        rw [hfilter]
        simp only [hrow, Option.bind_eq_bind, Option.bind_some, hcreate]
        rfl

/-! ## Are stored sessions sane? -/

/-- The end is not before the start, and the duration is the time between them. -/
def Sane (r : ActivitySession) : Prop :=
  r.startTime ≤ r.endTime ∧ r.durationSeconds = r.endTime - r.startTime ∧ 0 ≤ r.durationSeconds

/-- A duration that is a number is not negative. -/
def NonNegative (data : Value) : Prop :=
  ∀ activity a n, prop data "activity" = some activity → readActivity activity = some a →
    a.duration = some (.num n) → 0 ≤ n

/-- An activity, through either entry point. -/
inductive Entry
  | socket (data : Value) (hduration : NonNegative data)
  | request (apiKey : Option String) (body : Value)

def beatOf (s : Store) : Entry → Option (String × Beat)
  | .socket data _ => socketBeat s data
  | .request apiKey body => requestBeat s apiKey body

/-- One activity is handled, at the time `now`. -/
def step (s : Store) : DateTime × Entry → Option Store
  | (now, .socket data _) => some ((machineActivity data).exec { s with now }).1
  | (now, .request apiKey body) => some ((onRequest (.activity apiKey body)).exec { s with now }).1

/-- Every session is sane, and none ends earlier than before. -/
def Proper (s s' : Store) : Prop :=
  (∀ r ∈ s'.db.activitySessions.rows, Sane r) ∧ ∀ r ∈ s.db.activitySessions.rows,
    ∀ r' ∈ s'.db.activitySessions.rows, r'.id = r.id → r.endTime ≤ r'.endTime

/-- An activity that continues the most recent session reaches at least to its end. -/
def Harmless (s : Store) : DateTime × Entry → Prop
  | (now, entry) => ∀ id b r endTime, beatOf { s with now } entry = some (id, b) →
      recentSession id s.db = some r → b.continues r = true → b.reach = some endTime →
      r.endTime ≤ endTime

variable {s' : Store} {call : DateTime × Entry}

/-- One activity alone: its beat, if it has one, is recorded. -/
theorem sessions_step {now : DateTime} {entry : Entry} (hs : step s (now, entry) = some s') :
    s'.db.activitySessions = match beatOf { s with now } entry with
      | some (id, b) => recorded id b { s with now }
      | none => s.db.activitySessions := by
  cases entry with
  | socket data hduration =>
    cases hs
    exact sessions_machineActivity data { s with now }
  | request apiKey body =>
    cases hs
    exact sessions_activity apiKey body { s with now }

omit [Runtime] in
/-- A session that the socket starts. -/
theorem sane_sessionRow {a : Activity} {timeSeconds : Int} {now : DateTime}
    {row : ActivitySession} (h : a.sessionRow id timeSeconds now = some row)
    (hduration : ∀ n, a.duration = some (.num n) → 0 ≤ n) : Sane row := by
  unfold Activity.sessionRow at h
  obtain ⟨endTime, hend, h⟩ := Option.bind_eq_some_iff.mp h
  obtain ⟨duration, hdur, h⟩ := Option.bind_eq_some_iff.mp h
  obtain ⟨processName, -, h⟩ := Option.bind_eq_some_iff.mp h
  obtain ⟨activeWindow, -, h⟩ := Option.bind_eq_some_iff.mp h
  obtain ⟨username, -, h⟩ := Option.bind_eq_some_iff.mp h
  have hnum : a.duration = some (.num duration) := by
    unfold requiredInt at hdur
    split at hdur
    · rename_i n heq
      cases hdur
      exact heq
    · cases hdur
  have hnonneg : 0 ≤ duration := hduration duration hnum
  rw [hnum] at hend
  cases hend
  cases h
  unfold Sane
  simp only
  omega

omit [Runtime] in
/-- A session that the REST route starts has no length yet. -/
theorem sane_startAt {h : Heartbeat} {timeSeconds : Int} {now : DateTime} {row : ActivitySession}
    (hrow : h.sessionRow id timeSeconds now = some row) : Sane row := by
  unfold Heartbeat.sessionRow at hrow
  obtain ⟨processName, -, hrow⟩ := Option.bind_eq_some_iff.mp hrow
  obtain ⟨activeWindow, -, hrow⟩ := Option.bind_eq_some_iff.mp hrow
  obtain ⟨username, -, hrow⟩ := Option.bind_eq_some_iff.mp hrow
  cases hrow
  unfold Sane
  simp only
  omega

/-- Every accepted activity starts a sane session, if it starts one. -/
theorem sane_newSession {entry : Entry} {b : Beat} {now : DateTime} {row : ActivitySession}
    (hbeat : beatOf s entry = some (id, b)) (hrow : b.newSession now = some row) : Sane row := by
  cases entry with
  | socket data hduration =>
    obtain ⟨machineId, -, hbeat⟩ := Option.bind_eq_some_iff.mp hbeat
    obtain ⟨activity, hactivity, hbeat⟩ := Option.bind_eq_some_iff.mp hbeat
    obtain ⟨id', -, hbeat⟩ := Option.bind_eq_some_iff.mp hbeat
    obtain ⟨⟨history, b'⟩, haccept, hbeat⟩ := Option.bind_eq_some_iff.mp hbeat
    simp only at hbeat
    split at hbeat
    · cases hbeat
      obtain ⟨a, hread, haccept⟩ := Option.bind_eq_some_iff.mp haccept
      obtain ⟨hist, -, haccept⟩ := Option.bind_eq_some_iff.mp haccept
      obtain ⟨time, -, haccept⟩ := Option.bind_eq_some_iff.mp haccept
      cases haccept
      exact sane_sessionRow hrow fun n hn => hduration activity a n hactivity hread hn
    · cases hbeat
  | request apiKey body =>
    obtain ⟨m, -, hbeat⟩ := Option.bind_eq_some_iff.mp hbeat
    obtain ⟨⟨history, b'⟩, haccept, hbeat⟩ := Option.bind_eq_some_iff.mp hbeat
    obtain ⟨b'', hb, hbeat⟩ := Option.bind_eq_some_iff.mp hbeat
    cases hbeat
    obtain ⟨h, -, haccept⟩ := Option.bind_eq_some_iff.mp haccept
    obtain ⟨time, -, haccept⟩ := Option.bind_eq_some_iff.mp haccept
    obtain ⟨hist, -, haccept⟩ := Option.bind_eq_some_iff.mp haccept
    cases haccept
    obtain ⟨timeSeconds, -, rfl⟩ := Option.map_eq_some_iff.mp hb
    exact sane_startAt hrow

omit [Runtime] in
/-- Extending a sane session far enough: what every row is afterwards. -/
theorem extended_cases {r r' : ActivitySession} {endTime : Int} {now : DateTime}
    {sessions : Sequence ActivitySession.id} (hr : r ∈ sessions.rows)
    (hr' : r' ∈ (sessions.update r.id (extended r endTime now) fun _ => rfl).rows) :
    (r' ∈ sessions.rows ∧ r'.id ≠ r.id) ∨ r' = extended r endTime now r := by
  have hr' : r' ∈ (sessions.toTable.update r.id (extended r endTime now) fun _ => rfl).rows := hr'
  rcases Table.mem_update.mp hr' with h | ⟨row, hrow, hid, rfl⟩
  · exact Or.inl h
  · rw [Table.eq_of_key hrow hr hid]
    exact Or.inr rfl

/-- A harmless activity leaves every session sane, and shortens none. -/
theorem proper_of_harmless (hsane : ∀ r ∈ s.db.activitySessions.rows, Sane r)
    (hharm : Harmless s call) (hs : step s call = some s') : Proper s s' := by
  obtain ⟨now, entry⟩ := call
  have hsessions := sessions_step hs
  have hsame : s'.db.activitySessions = s.db.activitySessions → Proper s s' := by
    intro heq
    refine ⟨fun r hr => hsane r (heq ▸ hr), fun r hr r' hr' hid => ?_⟩
    rw [Table.eq_of_key (heq ▸ hr' : r' ∈ s.db.activitySessions.rows) hr hid]
  cases hbeat : beatOf { s with now } entry with
  | none =>
    rw [hbeat] at hsessions
    exact hsame hsessions
  | some served =>
    obtain ⟨id, b⟩ := served
    rw [hbeat] at hsessions
    simp only at hsessions
    rcases recorded_cases id b { s with now } with heq | ⟨r, endTime, hrecent, hcontinues,
      hreach, heq⟩ | ⟨row, hrow, heq⟩
    · exact hsame (hsessions.trans heq)
    · -- the session is extended to an end that is not before its own
      have hr := (Reports.mem_of_recentSession hrecent).1
      have hend : r.endTime ≤ endTime := hharm id b r endTime hbeat hrecent hcontinues hreach
      have hrows : ∀ r' ∈ s'.db.activitySessions.rows,
          (r' ∈ s.db.activitySessions.rows ∧ r'.id ≠ r.id) ∨ r' = extended r endTime now r := by
        intro r' hr'
        rw [hsessions, heq] at hr'
        exact extended_cases hr hr'
      constructor
      · intro r' hr'
        rcases hrows r' hr' with ⟨hold, -⟩ | rfl
        · exact hsane r' hold
        · obtain ⟨hstart, -, -⟩ := hsane r hr
          show r.startTime ≤ endTime ∧ endTime - r.startTime = endTime - r.startTime ∧
            0 ≤ endTime - r.startTime
          omega
      · intro q hq r' hr' hid
        rcases hrows r' hr' with ⟨hold, -⟩ | rfl
        · rw [Table.eq_of_key hold hq hid]
        · rw [← Table.eq_of_key hr hq hid]
          exact hend
    · -- a session is added
      have hrows : ∀ r' ∈ s'.db.activitySessions.rows, r' ∈ s.db.activitySessions.rows ∨
          r' = { row with id := s.db.activitySessions.next, machineId := id } := by
        intro r' hr'
        rw [hsessions, heq, Sequence.rows_create] at hr'
        simpa using hr'
      constructor
      · intro r' hr'
        rcases hrows r' hr' with hold | rfl
        · exact hsane r' hold
        · have hnew : Sane row := sane_newSession hbeat hrow
          exact hnew
      · intro q hq r' hr' hid
        rcases hrows r' hr' with hold | rfl
        · rw [Table.eq_of_key hold hq hid]
        · have hlt := s.db.activitySessions.below q hq
          have hid : s.db.activitySessions.next = q.id := hid
          omega

/-- An activity that is not harmless shortens a session. -/
theorem not_proper_of_harm (hharm : ¬ Harmless s call) (hs : step s call = some s') :
    ¬ Proper s s' := by
  obtain ⟨now, entry⟩ := call
  intro hproper
  refine hharm fun id b r endTime hbeat hrecent hcontinues hreach => ?_
  have hsessions := sessions_step hs
  rw [hbeat] at hsessions
  simp only at hsessions
  rw [recorded_extend (s := { s with now }) hrecent hcontinues hreach] at hsessions
  have hr := (Reports.mem_of_recentSession hrecent).1
  have hr' : extended r endTime now r ∈ s'.db.activitySessions.rows := by
    rw [hsessions]
    show _ ∈ s.db.activitySessions.rows.map fun x =>
      if x.id = r.id then extended r endTime now x else x
    exact List.mem_map.mpr ⟨r, hr, if_pos rfl⟩
  exact hproper.2 r hr _ hr' rfl

end Sessions

/-! ## A late activity -/

/-- Ten seconds, or a minute, of one window of one program. -/
def payload (timestamp duration : Int) : Value :=
  some (.obj [("machineId", .str "PC-1"), ("activity", .obj [("timestamp", .num timestamp),
    ("activeWindow", .str "Report"), ("processName", .str "winword"),
    ("duration", .num duration)])])

theorem nonNegative_payload (timestamp : Int) {duration : Int} (h : 0 ≤ duration) :
    NonNegative (payload timestamp duration) := by
  intro activity a n hactivity hread hnum
  cases hactivity
  cases hread
  have hnum : firstTruthy (some (.num duration)) none = some (.num n) := hnum
  unfold firstTruthy at hnum
  split at hnum
  · cases hnum
    exact h
  · cases hnum

/-- A minute, and then ten seconds more. -/
def inOrder : List (DateTime × Entry) :=
  [(0, .socket (payload 1709294400000 60) (nonNegative_payload _ (by decide))),
    (1, .socket (payload 1709294460000 10) (nonNegative_payload _ (by decide)))]

/-- A minute, and then ten seconds that lie within it. -/
def late : List (DateTime × Entry) :=
  [(0, .socket (payload 1709294400000 60) (nonNegative_payload _ (by decide))),
    (1, .socket (payload 1709294410000 10) (nonNegative_payload _ (by decide)))]

end Server.Sessions
