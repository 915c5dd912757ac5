/-
  RUNS OF ACTIVITIES, as `machine:activity` aggregates them into sessions.

  The handler sees one activity at a time, and compares it with the session of its machine that
  ends last.  For activities that do not overlap and come in order, handled one after another for a
  machine without sessions:

  1. **Specification** — the activities fall into maximal runs in which each continues the one
     before (`follows`): the same process and title, and a gap of at most 20 seconds.

  2. **The invariant** (`Tallied`): the machine's sessions stand in the table in the order of their
     times, one for each run so far; so the one that ends last is that of the run still open, and
     the comparison with it is the comparison with the activity before.

  3. `sessions_runs`: the sessions are those of the maximal runs.
-/
import Mathlib.Data.List.SplitBy
import Vorsight.Server.ActivityDelivery

namespace Server.SessionRuns

open Js Tables Sessions AuditDelivery

/-! ## Activities and their runs -/

/-- An activity, with its times in seconds. -/
structure Reported where
  timestamp : Int
  duration : Int
  processName : String
  activeWindow : String
  username : Option String
deriving DecidableEq, Repr

def Reported.endTime (x : Reported) : Int := x.timestamp + x.duration

/-- `username || null`. -/
def Reported.user (x : Reported) : Option String := x.username.filter (· ≠ "")

/-- `y` continues `x`: the same window of the same program, 20 seconds later at most. -/
def follows (x y : Reported) : Bool :=
  x.processName = y.processName && x.activeWindow = y.activeWindow &&
    y.timestamp - x.endTime ≤ 20

/-- What a session says, but for its row's own columns. -/
structure Summary where
  startTime : Option Int
  endTime : Option Int
  processName : Option String
  activeWindow : Option String
  username : Option (Option String)
  heartbeatCount : Int

/-- A run is told by its first and its last activity and its length. -/
def summary (run : List Reported) : Summary where
  startTime := run.head?.map (·.timestamp)
  endTime := run.getLast?.map (·.endTime)
  processName := run.head?.map (·.processName)
  activeWindow := run.head?.map (·.activeWindow)
  username := run.head?.map (·.user)
  heartbeatCount := run.length

def figures (r : ActivitySession) : Summary where
  startTime := some r.startTime
  endTime := some r.endTime
  processName := r.processName
  activeWindow := r.activeWindow
  username := some r.username
  heartbeatCount := r.heartbeatCount

/-- A session lies before another. -/
def Before (r r' : ActivitySession) : Prop :=
  r.startTime < r'.startTime ∧ r.endTime ≤ r'.startTime

/-- A session has a length, and its duration is that. -/
def Timed (r : ActivitySession) : Prop :=
  r.startTime < r.endTime ∧ r.durationSeconds = r.endTime - r.startTime

section Runs

variable [Runtime]

/-! ## Messages -/

/-- An activity as it is sent, with the server's time when it is handled. -/
structure Sent where
  casing : Casing
  timestamp : Json
  activity : Reported
  now : DateTime

def Sent.fields (d : Sent) : List (String × Json) :=
  [(d.casing.name "timestamp" "Timestamp", d.timestamp),
    (d.casing.name "activeWindow" "ActiveWindow", .str d.activity.activeWindow),
    (d.casing.name "processName" "ProcessName", .str d.activity.processName),
    (d.casing.name "duration" "Duration", .num d.activity.duration),
    (d.casing.name "username" "Username", (d.activity.username.map Json.str).getD .null)]

/-- The message: `{ machineId, activity }`. -/
def Sent.message (machine : String) (d : Sent) : Value :=
  some (.obj [("machineId", .str machine), ("activity", .obj d.fields)])

/-- Process and title are not empty, the activity has a length, and its time is a whole second. -/
structure Sent.Proper (d : Sent) : Prop where
  processName : d.activity.processName ≠ ""
  activeWindow : d.activity.activeWindow ≠ ""
  duration : 1 ≤ d.activity.duration
  truthy : truthy (some d.timestamp) = true
  date : newDate (some d.timestamp) = some (d.activity.timestamp * 1000)

/-- The handler reads this activity of the machine from a message. -/
def Carries (machine : String) (data : Value) (x : Reported) : Prop :=
  prop data "machineId" = some (some (.str machine)) ∧
    ∃ activity a, prop data "activity" = some activity ∧ readActivity activity = some a ∧
      newDate a.timestamp = some (x.timestamp * 1000) ∧
      a.processName = some (.str x.processName) ∧ a.activeWindow = some (.str x.activeWindow) ∧
      a.duration = some (.num x.duration) ∧ a.usernameArg = some x.user

/-- One message, handled to its end at a time of the server's clock. -/
def receive (s : Store) (d : DateTime × Value) : Store :=
  ((machineActivity d.2).exec { s with now := d.1 }).1

def receiveAll (s : Store) (ds : List (DateTime × Value)) : Store := ds.foldl receive s

variable {machine : String} {s : Store} {m : Machine} {data : Value} {x last : Reported}

omit [Runtime] in
/-- The name of a user is read under either name; an empty one is dropped. -/
theorem usernameArg_pick {c : Casing} {fields : List (String × Json)}
    (hfound : fields.lookup (c.name "username" "Username") =
      some ((x.username.map Json.str).getD .null))
    (habsent : c = .pascal → fields.lookup "username" = none)
    (habsent' : c = .camel → fields.lookup "Username" = none) :
    ∃ v, pick (some (.obj fields)) "username" "Username" = some v ∧
      textArg (firstTruthy v (some .null)) = some x.user := by
  have hvalue : textArg (firstTruthy (some ((x.username.map Json.str).getD .null)) (some .null)) =
      some x.user := by
    unfold Reported.user
    cases x.username with
    | none => rfl
    | some t =>
      by_cases ht : t = ""
      · subst ht
        rfl
      · simp [firstTruthy, truthy, ht, textArg, Option.filter]
  cases c with
  | camel =>
    have hfound : fields.lookup "username" = some ((x.username.map Json.str).getD .null) := hfound
    refine ⟨firstTruthy (some ((x.username.map Json.str).getD .null)) none, ?_, ?_⟩
    · simp [pick, prop, hfound, habsent' rfl]
    · -- what is not truthy is `undefined` then, and stored like `null`
      rw [← hvalue]
      unfold firstTruthy
      split
      · rfl
      · rfl
  | pascal =>
    have hfound : fields.lookup "Username" = some ((x.username.map Json.str).getD .null) := hfound
    refine ⟨some ((x.username.map Json.str).getD .null), ?_, hvalue⟩
    simp [pick, prop, hfound, habsent rfl, firstTruthy, truthy]

/-- What is sent is read. -/
theorem carries_message {d : Sent} (h : d.Proper) :
    Carries machine (d.message machine) d.activity := by
  obtain ⟨hprocess, hwindow, hduration, htruthy, hdate⟩ := h
  have htext : ∀ t : String, t ≠ "" → truthy (some (.str t)) = true := by
    intro t ht
    simpa [truthy] using ht
  have hnum : truthy (some (.num d.activity.duration)) = true := by
    simp only [truthy, decide_eq_true_eq]
    omega
  obtain ⟨c, timestamp, x, now⟩ := d
  have hpick : ∀ (camel pascal : String) {v : Json}, truthy (some v) = true →
      (Sent.fields ⟨c, timestamp, x, now⟩).lookup (c.name camel pascal) = some v →
      (c = .pascal → (Sent.fields ⟨c, timestamp, x, now⟩).lookup camel = none) →
      (c = .camel → (Sent.fields ⟨c, timestamp, x, now⟩).lookup pascal = none) →
      pick (some (.obj (Sent.fields ⟨c, timestamp, x, now⟩))) camel pascal = some (some v) :=
    fun _ _ _ hv hfound habsent habsent' => ActivityDelivery.pick_found hv hfound habsent habsent'
  have htimestamp := hpick "timestamp" "Timestamp" htruthy
    (by cases c <;> rfl) (by rintro rfl; rfl) (by rintro rfl; rfl)
  have hactiveWindow := hpick "activeWindow" "ActiveWindow" (htext _ hwindow)
    (by cases c <;> rfl) (by rintro rfl; rfl) (by rintro rfl; rfl)
  have hprocessName := hpick "processName" "ProcessName" (htext _ hprocess)
    (by cases c <;> rfl) (by rintro rfl; rfl) (by rintro rfl; rfl)
  have hdurationField := hpick "duration" "Duration" hnum
    (by cases c <;> rfl) (by rintro rfl; rfl) (by rintro rfl; rfl)
  obtain ⟨user, husername, huser⟩ :=
    @usernameArg_pick x c (Sent.fields ⟨c, timestamp, x, now⟩) (by cases c <;> rfl)
      (by rintro rfl; rfl) (by rintro rfl; rfl)
  refine ⟨rfl, some (.obj (Sent.fields ⟨c, timestamp, x, now⟩)), ⟨some timestamp,
    some (.str x.activeWindow), some (.str x.processName), some (.num x.duration), user⟩, rfl, ?_,
    hdate, rfl, rfl, rfl, huser⟩
  unfold readActivity
  simp only [htimestamp, hactiveWindow, hprocessName, hdurationField, husername,
    Option.bind_eq_bind, Option.bind_some]
  rfl

/-- The beat of a message that carries an activity. -/
theorem socketBeat_carries (hmachine : machine ≠ "")
    (hm : s.db.machines.find machine = some m) (hactive : m.status = .active)
    (h : Carries machine data x) : ∃ b, socketBeat s data = some (machine, b) ∧
      (∀ r, b.continues r = (decide (r.processName = some x.processName) &&
        decide (r.activeWindow = some x.activeWindow) && decide (x.timestamp - r.endTime ≤ 20))) ∧
      b.reach = some x.endTime ∧ ∀ now, b.newSession now = some {
        id := 0, machineId := machine, startTime := x.timestamp, endTime := x.endTime,
        durationSeconds := x.duration, processName := some x.processName,
        activeWindow := some x.activeWindow, username := x.user, createdAt := now,
        updatedAt := now } := by
  obtain ⟨hid, activity, a, hactivity, hread, htime, hprocess, hwindow, hduration, huser⟩ := h
  have hseconds : x.timestamp * 1000 / 1000 = x.timestamp := by omega
  have hrow : ∃ row, a.historyRow machine = some row := by
    unfold Activity.historyRow
    rw [htime, hprocess, hwindow, hduration, huser]
    exact ⟨_, rfl⟩
  obtain ⟨row, hrow⟩ := hrow
  have haccept : acceptActivity machine activity =
      some (row, ofActivity machine a x.timestamp) := by
    unfold acceptActivity
    simp only [hread, hrow, htime, Option.bind_eq_bind, Option.bind_some, hseconds]
    rfl
  have hmachineOf : machineOf (some (.str machine)) = some machine := by
    have htruthy : truthy (some (.str machine)) = true := by simpa [truthy] using hmachine
    unfold machineOf
    rw [if_pos htruthy]
    rfl
  have hstatus : (s.db.machines.find machine).map (·.status) = some .active := by
    rw [hm, Option.map_some, hactive]
  have hstrict : ∀ (o : Option String) (t : String),
      strictEq o (some (.str t)) = decide (o = some t) := by
    intro o t
    cases o with
    | none => rfl
    | some t' => simp [strictEq]
  refine ⟨ofActivity machine a x.timestamp, ?_, fun r => ?_, ?_, fun now => ?_⟩
  · unfold socketBeat
    simp only [hid, hactivity, hmachineOf, haccept, Option.bind_eq_bind, Option.bind_some]
    exact if_pos hstatus
  · show shouldExtend a x.timestamp r = _
    rw [shouldExtend, hprocess, hwindow, hstrict, hstrict]
    rfl
  · show addInt x.timestamp a.duration = _
    rw [hduration]
    rfl
  · show a.sessionRow machine x.timestamp now = _
    unfold Activity.sessionRow
    rw [hprocess, hwindow, hduration, huser]
    rfl

/-! ## The invariant -/

/-- The sessions of the machine, in the order of the table. -/
def sessionsOf (machine : String) (s : Store) : List ActivitySession :=
  s.db.activitySessions.rows.filter (·.machineId = machine)

/-- The machine's sessions are in order, one for each run; the last one is that of the open run,
    whose last activity is `last`. -/
structure Tallied (machine : String) (runs : List (List Reported)) (run : List Reported)
    (last : Reported) (s : Store) : Prop where
  active : ∃ m, s.db.machines.find machine = some m ∧ m.status = .active
  sessions : ∃ old r, sessionsOf machine s = old ++ [r] ∧ old.map figures = runs.map summary ∧
    figures r = summary run ∧ r.endTime = last.endTime ∧
    r.processName = some last.processName ∧ r.activeWindow = some last.activeWindow
  ordered : (sessionsOf machine s).Pairwise Before
  timed : ∀ r ∈ sessionsOf machine s, Timed r

omit [Runtime] in
theorem mem_sessionsOf {r : ActivitySession} :
    r ∈ sessionsOf machine s ↔ r ∈ s.db.activitySessions.rows ∧ r.machineId = machine := by
  simp [sessionsOf]

omit [Runtime] in
/-- A machine without sessions has no recent one. -/
theorem recentSession_nil (h : sessionsOf machine s = []) : recentSession machine s.db = none := by
  rw [recentSession, show s.db.activitySessions.rows.filter _ = [] from h]
  rfl

omit [Runtime] in
/-- **The last one in the table is the one that ends last.** -/
theorem recentSession_last {old : List ActivitySession} {r : ActivitySession}
    (hsessions : sessionsOf machine s = old ++ [r])
    (hordered : (sessionsOf machine s).Pairwise Before)
    (htimed : ∀ r ∈ sessionsOf machine s, Timed r) : recentSession machine s.db = some r := by
  have hr : r ∈ sessionsOf machine s := by
    rw [hsessions]
    simp
  cases hrecent : recentSession machine s.db with
  | none =>
    rw [recentSession, List.head?_eq_none_iff] at hrecent
    have hmem : r ∈ ([] : List ActivitySession) := by
      rw [← hrecent, List.mem_insertionSort]
      exact hr
    cases hmem
  | some q =>
    have hq : q ∈ sessionsOf machine s := mem_sessionsOf.mpr (Reports.mem_of_recentSession hrecent)
    obtain ⟨hrmem, hrmachine⟩ := mem_sessionsOf.mp hr
    have hle : r.endTime ≤ q.endTime :=
      Reports.endTime_le_of_recentSession hrecent hrmem hrmachine
    rw [hsessions, List.mem_append, List.mem_singleton] at hq
    rcases hq with hq | rfl
    · -- an earlier one ends before the last one starts
      rw [hsessions, List.pairwise_append] at hordered
      have hbefore := (hordered.2.2 q hq r List.mem_cons_self).2
      have hlength := (htimed r hr).1
      omega
    · rfl

/-- The machine stays active. -/
theorem active_receive (h : ∃ m, s.db.machines.find machine = some m ∧ m.status = .active)
    (d : DateTime × Value) :
    ∃ m, (receive s d).db.machines.find machine = some m ∧ m.status = .active := by
  obtain ⟨m, hm, hactive⟩ := h
  have hspares : Collection.Spares { s with now := d.1 } (receive s d) :=
    Collection.exec_sparing (Collection.sparing_message "" (.machineActivity _))
  obtain ⟨m', hm', hstatus, -⟩ := hspares machine m hm
  exact ⟨m', hm', hstatus.trans hactive⟩

/-- The sessions after a message: what its beat records. -/
theorem sessionsOf_receive {b : Beat} {d : DateTime × Value}
    (h : socketBeat { s with now := d.1 } d.2 = some (machine, b)) :
    sessionsOf machine (receive s d) =
      (recorded machine b { s with now := d.1 }).rows.filter (·.machineId = machine) := by
  have hsessions := sessions_machineActivity d.2 { s with now := d.1 }
  rw [h] at hsessions
  exact congrArg (fun t : Sequence ActivitySession.id => t.rows.filter (·.machineId = machine))
    hsessions

omit [Runtime] in
/-- A new session stands behind the others. -/
theorem sessionsOf_create (row : ActivitySession) (hrow : row.machineId = machine) :
    ((s.db.activitySessions.create (fun n => { row with id := n, machineId := machine })
      fun _ => rfl).rows.filter (·.machineId = machine)) =
      sessionsOf machine s ++ [{ row with id := s.db.activitySessions.next }] := by
  subst hrow
  rw [Sequence.rows_create, List.filter_append, sessionsOf]
  simp

omit [Runtime] in
/-- An extended session stays where it is. -/
theorem sessionsOf_extend {old : List ActivitySession} {r : ActivitySession} {endTime : Int}
    {now : DateTime} (hsessions : sessionsOf machine s = old ++ [r]) :
    ((s.db.activitySessions.update r.id (extended r endTime now) fun _ => rfl).rows.filter
      (·.machineId = machine)) = old ++ [extended r endTime now r] := by
  have hnodup : ((old ++ [r]).map ActivitySession.id).Nodup := by
    rw [← hsessions]
    exact s.db.activitySessions.nodup.sublist (List.filter_sublist.map _)
  have hothers : ∀ q ∈ old, q.id ≠ r.id := by
    intro q hq hid
    rw [List.map_append, List.nodup_append] at hnodup
    exact hnodup.2.2 q.id (List.mem_map_of_mem hq) r.id (by simp) hid
  have hold : old.map (fun q => if q.id = r.id then extended r endTime now q else q) = old := by
    conv_rhs => rw [← List.map_id old]
    exact List.map_congr_left fun q hq => if_neg (hothers q hq)
  have hmachine : ((fun q : ActivitySession => decide (q.machineId = machine)) ∘
      fun q => if q.id = r.id then extended r endTime now q else q) =
      fun q => decide (q.machineId = machine) := by
    funext q
    show decide ((if q.id = r.id then extended r endTime now q else q).machineId = machine) = _
    split <;> rfl
  show (s.db.activitySessions.rows.map fun q =>
    if q.id = r.id then extended r endTime now q else q).filter _ = _
  rw [List.filter_map, hmachine, show s.db.activitySessions.rows.filter _ = old ++ [r] from
    hsessions, List.map_append, hold, List.map_singleton, if_pos rfl]

/-- A message for a machine whose open run is not continued by it, or that has none. -/
theorem sessionsOf_receive_start {d : DateTime × Value} (hmachine : machine ≠ "")
    (hactive : ∃ m, s.db.machines.find machine = some m ∧ m.status = .active)
    (hcarries : Carries machine d.2 x)
    (hnew : ∀ r, recentSession machine s.db = some r → ¬ (r.processName = some x.processName ∧
      r.activeWindow = some x.activeWindow ∧ x.timestamp - r.endTime ≤ 20)) :
    ∃ r, sessionsOf machine (receive s d) = sessionsOf machine s ++ [r] ∧
      figures r = summary [x] ∧ r.startTime = x.timestamp ∧
      r.durationSeconds = x.duration := by
  obtain ⟨m, hm, hstatus⟩ := hactive
  obtain ⟨b, hbeat, hcontinues, -, hrow⟩ :=
    socketBeat_carries (s := { s with now := d.1 }) hmachine hm hstatus hcarries
  have hfilter : (recentSession machine s.db).filter b.continues = none := by
    rw [Option.filter_eq_none_iff]
    intro r hr hcont
    rw [hcontinues] at hcont
    simp only [Bool.and_eq_true, decide_eq_true_eq] at hcont
    exact hnew r hr ⟨hcont.1.1, hcont.1.2, hcont.2⟩
  have hexists : (s.db.machines.find machine).isSome := by
    rw [hm]
    rfl
  have hstart := recorded_start (s := { s with now := d.1 }) hfilter (hrow d.1) hexists
  rw [sessionsOf_receive hbeat, hstart]
  exact ⟨_, sessionsOf_create _ rfl, rfl, rfl, rfl⟩

/-- A message that continues the open run. -/
theorem sessionsOf_receive_extend {d : DateTime × Value} {old : List ActivitySession}
    {r : ActivitySession} (hmachine : machine ≠ "")
    (hactive : ∃ m, s.db.machines.find machine = some m ∧ m.status = .active)
    (hcarries : Carries machine d.2 x) (hsessions : sessionsOf machine s = old ++ [r])
    (hrecent : recentSession machine s.db = some r)
    (hsame : r.processName = some x.processName ∧ r.activeWindow = some x.activeWindow ∧
      x.timestamp - r.endTime ≤ 20) :
    sessionsOf machine (receive s d) = old ++ [extended r x.endTime d.1 r] := by
  obtain ⟨m, hm, hstatus⟩ := hactive
  obtain ⟨b, hbeat, hcontinues, hreach, -⟩ :=
    socketBeat_carries (s := { s with now := d.1 }) hmachine hm hstatus hcarries
  have hcont : b.continues r = true := by
    rw [hcontinues]
    simp [hsame]
  rw [sessionsOf_receive hbeat, recorded_extend (s := { s with now := d.1 }) hrecent hcont hreach]
  exact sessionsOf_extend hsessions

omit [Runtime] in
/-- Whether an activity continues the last session is whether it continues the activity before. -/
theorem follows_iff {r : ActivitySession} (hend : r.endTime = last.endTime)
    (hprocess : r.processName = some last.processName)
    (hwindow : r.activeWindow = some last.activeWindow) :
    follows last x = true ↔ r.processName = some x.processName ∧
      r.activeWindow = some x.activeWindow ∧ x.timestamp - r.endTime ≤ 20 := by
  simp [follows, hend, hprocess, hwindow, and_assoc]

/-! ## One message -/

variable {runs : List (List Reported)} {g : List Reported}

omit [Runtime] in
theorem summary_extend (g : List Reported) (last x : Reported) :
    summary (x :: last :: g).reverse =
      { summary (last :: g).reverse with
        endTime := some x.endTime
        heartbeatCount := (summary (last :: g).reverse).heartbeatCount + 1 } := by
  simp [summary]
  omega

/-- An activity that continues the one before belongs to its run. -/
theorem tallied_extend {d : DateTime × Value} (hmachine : machine ≠ "")
    (h : Tallied machine runs (last :: g).reverse last s) (hcarries : Carries machine d.2 x)
    (hduration : 1 ≤ x.duration) (hafter : last.endTime ≤ x.timestamp)
    (hfollows : follows last x = true) :
    Tallied machine runs (x :: last :: g).reverse x (receive s d) := by
  obtain ⟨old, r, hsessions, hold, hr, hend, hprocess, hwindow⟩ := h.sessions
  have hrecent := recentSession_last hsessions h.ordered h.timed
  have hsame := (follows_iff hend hprocess hwindow).mp hfollows
  have hafter' : sessionsOf machine (receive s d) = old ++ [extended r x.endTime d.1 r] :=
    sessionsOf_receive_extend hmachine h.active hcarries hsessions hrecent hsame
  have hlonger : r.endTime < x.endTime := by
    show r.endTime < x.timestamp + x.duration
    omega
  have hordered := h.ordered
  have htimed := h.timed
  rw [hsessions] at hordered htimed
  refine ⟨active_receive h.active d, ⟨old, _, hafter', hold, ?_, rfl, hsame.1, hsame.2.1⟩, ?_, ?_⟩
  · rw [summary_extend, ← hr]
    rfl
  · rw [hafter']
    rw [List.pairwise_append] at hordered ⊢
    refine ⟨hordered.1, List.pairwise_singleton _ _, ?_⟩
    intro q hq q' hq'
    rw [List.mem_singleton] at hq'
    subst hq'
    exact hordered.2.2 q hq r List.mem_cons_self
  · rw [hafter']
    intro q hq
    rcases List.mem_append.mp hq with hq | hq
    · exact htimed q (List.mem_append_left _ hq)
    · rw [List.mem_singleton.mp hq]
      have hstart := (htimed r (by simp)).1
      exact ⟨Int.lt_trans hstart hlonger, rfl⟩

/-- Another activity starts a run. -/
theorem tallied_start {d : DateTime × Value} {run : List Reported} (hmachine : machine ≠ "")
    (h : Tallied machine runs run last s) (hcarries : Carries machine d.2 x)
    (hduration : 1 ≤ x.duration) (hafter : last.endTime ≤ x.timestamp)
    (hfollows : follows last x = false) :
    Tallied machine (runs ++ [run]) [x] x (receive s d) := by
  obtain ⟨old, r, hsessions, hold, hr, hend, hprocess, hwindow⟩ := h.sessions
  have hrecent := recentSession_last hsessions h.ordered h.timed
  obtain ⟨q, hafter', hq, hstart, hdurationSeconds⟩ :=
    sessionsOf_receive_start hmachine h.active hcarries (d := d) <| by
      intro r' hr' hsame
      cases hrecent.symm.trans hr'
      rw [(follows_iff hend hprocess hwindow).mpr hsame] at hfollows
      cases hfollows
  have hqend : q.endTime = x.endTime := Option.some.inj (congrArg Summary.endTime hq)
  refine ⟨active_receive h.active d, ⟨old ++ [r], q, ?_, ?_, hq, hqend, ?_, ?_⟩, ?_, ?_⟩
  · rw [hafter', hsessions]
  · rw [List.map_append, List.map_append, hold, List.map_singleton, hr, List.map_singleton]
  · exact congrArg Summary.processName hq
  · exact congrArg Summary.activeWindow hq
  · rw [hafter', List.pairwise_append]
    refine ⟨h.ordered, List.pairwise_singleton _ _, ?_⟩
    intro q' hq' q'' hq''
    rw [List.mem_singleton.mp hq'']
    -- every earlier session ends by the end of the last one, and that by the new start
    have hlast : q'.endTime ≤ r.endTime := by
      obtain ⟨hmem, hq'machine⟩ := mem_sessionsOf.mp hq'
      exact Reports.endTime_le_of_recentSession hrecent hmem hq'machine
    have hlength := (h.timed q' hq').1
    unfold Before
    omega
  · rw [hafter']
    intro q' hq'
    rcases List.mem_append.mp hq' with hq' | hq'
    · exact h.timed q' hq'
    · rw [List.mem_singleton.mp hq']
      rw [Reported.endTime] at hqend
      unfold Timed
      omega

/-! ## Every list of activities -/

/-- The messages carry the activities, in order. -/
abbrev CarryAll (machine : String) (ds : List (DateTime × Value)) (xs : List Reported) : Prop :=
  List.Forall₂ (fun d x => Carries machine d.2 x) ds xs

/-- The runs that are complete and the one that is open go on as `splitBy` splits the rest. -/
theorem tallied_receiveAll (hmachine : machine ≠ "") :
    ∀ {ds : List (DateTime × Value)} {xs : List Reported} {s : Store} {gs : List (List Reported)}
      {g : List Reported} {last : Reported}, CarryAll machine ds xs →
      (∀ x ∈ xs, 1 ≤ x.duration) → (last :: xs).IsChain (fun x y => x.endTime ≤ y.timestamp) →
      Tallied machine gs.reverse (last :: g).reverse last s →
      (sessionsOf machine (receiveAll s ds)).map figures =
          (List.splitBy.loop follows xs last g gs).map summary ∧
        (sessionsOf machine (receiveAll s ds)).Pairwise Before ∧
        ∀ r ∈ sessionsOf machine (receiveAll s ds), Timed r
  | [], _, s, gs, g, last, .nil, _, _, h => by
    obtain ⟨old, r, hsessions, hold, hr, -⟩ := h.sessions
    refine ⟨?_, h.ordered, h.timed⟩
    show (sessionsOf machine s).map figures = _
    rw [hsessions, List.map_append, hold, List.map_singleton, hr, List.splitBy.loop]
    simp
  | d :: ds, x :: xs, s, gs, g, last, .cons hcarries hrest, hduration, hchain, h => by
    obtain ⟨hafter, hchain⟩ := List.isChain_cons_cons.mp hchain
    have hx : 1 ≤ x.duration := hduration x List.mem_cons_self
    have hxs : ∀ y ∈ xs, 1 ≤ y.duration := fun y hy => hduration y (List.mem_cons_of_mem x hy)
    rw [List.splitBy.loop]
    cases hfollows : follows last x with
    | true =>
      have hnext := tallied_extend hmachine h hcarries hx hafter hfollows
      exact tallied_receiveAll (s := receive s d) hmachine hrest hxs hchain hnext
    | false =>
      have hnext := tallied_start hmachine h hcarries hx hafter hfollows
      rw [← List.reverse_cons] at hnext
      exact tallied_receiveAll (s := receive s d) (g := []) hmachine hrest hxs hchain hnext

theorem sessions_carried {ds : List (DateTime × Value)} {xs : List Reported}
    (hmachine : machine ≠ "") (hm : s.db.machines.find machine = some m)
    (hactive : m.status = .active)
    (hempty : ∀ r ∈ s.db.activitySessions.rows, r.machineId ≠ machine)
    (hcarries : CarryAll machine ds xs) (hduration : ∀ x ∈ xs, 1 ≤ x.duration)
    (hchain : xs.IsChain fun x y => x.endTime ≤ y.timestamp) :
    (sessionsOf machine (receiveAll s ds)).map figures = (xs.splitBy follows).map summary ∧
      (sessionsOf machine (receiveAll s ds)).Pairwise Before ∧
      ∀ r ∈ sessionsOf machine (receiveAll s ds), Timed r := by
  have hnone : sessionsOf machine s = [] :=
    List.filter_eq_nil_iff.mpr fun r hr => by simpa using hempty r hr
  cases hcarries with
  | nil =>
    show (sessionsOf machine s).map figures = _ ∧ (sessionsOf machine s).Pairwise Before ∧
      ∀ r ∈ sessionsOf machine s, Timed r
    rw [hnone]
    exact ⟨rfl, List.Pairwise.nil, fun r hr => absurd hr List.not_mem_nil⟩
  | @cons d x ds xs hx hrest =>
    obtain ⟨r, hafter, hr, hstart, hdurationSeconds⟩ :=
      sessionsOf_receive_start hmachine ⟨m, hm, hactive⟩ hx (d := d) <| by
        intro r hr
        rw [recentSession_nil hnone] at hr
        cases hr
    rw [hnone, List.nil_append] at hafter
    have hend : r.endTime = x.endTime := Option.some.inj (congrArg Summary.endTime hr)
    have hlength : 1 ≤ x.duration := hduration x List.mem_cons_self
    have hfirst : Tallied machine [] [x] x (receive s d) := by
      refine ⟨active_receive ⟨m, hm, hactive⟩ d, ⟨[], r, hafter, rfl, hr, hend, ?_, ?_⟩, ?_, ?_⟩
      · exact congrArg Summary.processName hr
      · exact congrArg Summary.activeWindow hr
      · rw [hafter]
        exact List.pairwise_singleton _ _
      · rw [hafter]
        intro q hq
        rw [List.mem_singleton.mp hq]
        rw [Reported.endTime] at hend
        unfold Timed
        omega
    exact @tallied_receiveAll _ _ hmachine ds xs (receive s d) [] [] x hrest
      (fun y hy => hduration y (List.mem_cons_of_mem x hy)) hchain hfirst

end Runs

/-! ## Two runs -/

/-- Some seconds after noon of 1 March 2024. -/
def sample (seconds duration : Int) (processName activeWindow : String) : Sent where
  casing := .pascal
  timestamp := .num ((1709294400 + seconds) * 1000)
  activity := {
    timestamp := 1709294400 + seconds, duration, processName, activeWindow,
    username := some "alice" }
  now := (1709294400 + seconds) * 1000

/-- The mail is read twice with 15 seconds between; then a report is written. -/
def samples : List Sent :=
  [sample 0 10 "outlook" "Inbox", sample 25 5 "outlook" "Inbox", sample 30 60 "winword" "Report"]

theorem proper_samples : ∀ d ∈ samples, @Sent.Proper Channels.numericRuntime d := by
  intro d hd
  simp only [samples, List.mem_cons, List.not_mem_nil, or_false] at hd
  rcases hd with rfl | rfl | rfl <;>
    exact @Sent.Proper.mk Channels.numericRuntime _ (by decide) (by decide) (by decide)
      (by decide) rfl

end Server.SessionRuns
