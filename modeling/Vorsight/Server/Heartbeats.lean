/-
  HEARTBEAT COUNTS, when the handlers of one machine's activities interleave.

  Neither Socket.IO nor Express waits for a handler to end before it starts the next, so between the
  query for the most recent session and the update of it, other handlers work on that session too.

  1. **System** — the handlers of any number of activities of one machine, interleaved at each
     database call.

  2. **Protocol** (`follows_handler`) — each handler, on either entry point, stores its history row,
     looks for the most recent session, and then extends it as it was read or starts another.

  3. **Books** — the sessions are counters that are incremented by a read and a later write
     (`Library.Counter`): one phase of the protocol is one operation on them (`Change`).

  4. **Are heartbeats lost?** (`heartbeats_le`)  There are never more heartbeats than history rows,
     and as many exactly when every handler that extends a session finds its count as it has read
     it.
-/
import Vorsight.Library.Counter
import Vorsight.Library.Permits
import Vorsight.Server.Sessions

namespace Server.Heartbeats

open Js Tables Tasks Sessions

section Heartbeats

variable [Runtime]

/-! ## The system -/

/-- Machine `id` is active, and `key` is its key. -/
def Serves (s : Store) (id key : String) : Prop :=
  id ≠ "" ∧ ∃ m, Collection.authenticated s (some key) = some m ∧ m.id = id ∧ m.status = .active

/-- A well-formed activity of machine `id`: no operation of its handler is rejected. -/
inductive Accepted (id key : String) : Channels.Origin → Prop
  | socket {socket window process : String} {data activity : Value} {a : Activity} {time : DateTime}
      {duration : Int}
      (hid : prop data "machineId" = some (some (.str id)))
      (hactivity : prop data "activity" = some activity)
      (hread : readActivity activity = some a)
      (htime : newDate a.timestamp = some time)
      (hwindow : a.activeWindow = some (.str window) ∧ window ≠ "")
      (hprocess : a.processName = some (.str process) ∧ process ≠ "")
      (hduration : a.duration = some (.num duration) ∧ 0 < duration)
      (husername : a.usernameArg.isSome) :
      Accepted id key (.socket socket (.machineActivity data))
  | request {window process : String} {body : Value} {h : Heartbeat}
      (hread : readHeartbeat body = some h)
      (htime : ∀ now, ∃ date seconds,
        heartbeatTime h.timestamp now = some (date, some (.num seconds)))
      (hwindow : h.activeWindow = some (.str window) ∧ window ≠ "")
      (hprocess : h.processName = some (.str process) ∧ process ≠ "")
      (husername : (textArg h.username).isSome) :
      Accepted id key (.request (.activity (some key) body))

/-- A handler takes its next step, or time goes on. -/
inductive Turn
  | advance (i : Nat)
  | tick (now : DateTime)

/-- No operation fails. -/
def step (p : Pool Channels.Origin Store) : Turn → Option (Pool Channels.Origin Store)
  | .advance i => p.step Channels.handler (fun now s => { s with now }) (.advance i)
  | .tick now => p.step Channels.handler (fun now s => { s with now }) (.outside now)

/-- The handlers of the given activities, before their first steps. -/
def initial (s : Store) (activities : List Channels.Origin) : Pool Channels.Origin Store where
  store := s
  tasks := activities.map fun w => (w, Channels.handler w)

/-- All handlers have ended. -/
def Finished (p : Pool Channels.Origin Store) : Prop := ∀ t ∈ p.tasks, ¬ t.2.Live

/-- The heartbeats counted in a machine's sessions. -/
def heartbeats (id : String) (db : Database) : Int :=
  ((db.rowsOf id).activitySessions.map (·.heartbeatCount)).sum

def historyRows (id : String) (db : Database) : Int := (db.rowsOf id).activityHistory.length

/-- No heartbeat of the activities is lost, however their handlers interleave. -/
def NoneLost (start : Store) (id : String) (activities : List Channels.Origin) : Prop :=
  ∀ turns p, Runs.run step (initial start activities) turns = some p → Finished p →
    heartbeats id p.store.db - heartbeats id start.db =
      historyRows id p.store.db - historyRows id start.db

/-! ## The condition -/

/-- Whatever else is stored with these machines, the next step of `q` writes `r` back, extended. -/
def Extends (machines : Table Machine.id) (r : ActivitySession) (endTime : Int)
    (q : Task Store Unit) : Prop :=
  q.Live ∧ ∀ s s' q', s.db.machines = machines → q.Moves s s' q' →
    s'.db = (s.db.updateSession r.id (extended r endTime s.now) fun _ => rfl).getD s.db

/-- The handler that moves finds the session it extends with the count it has read. -/
def Fresh (p : Pool Channels.Origin Store) : Turn → Prop
  | .advance i => ∀ w q r endTime, p.tasks[i]? = some (w, q) →
      Extends p.store.db.machines r endTime q →
      ∀ r' ∈ p.store.db.activitySessions.rows, r'.id = r.id →
        r'.heartbeatCount = r.heartbeatCount
  | .tick _ => True

/-! ## The protocol of a handler -/

/-- How far a handler has come. -/
inductive Phase
  | arriving
  | stored
  | extending (r : ActivitySession) (endTime : Int)
  | starting
  | ended

/-- What a handler of machine `id` does in a phase. -/
inductive Advances (id : String) : Phase → Store → Store → Phase → Prop
  | wait {s : Store} : Advances id .arriving s s .arriving
  | store {s : Store} {db : Database} {row : ActivityHistory}
      (h : s.db.createHistory id row = some db) : Advances id .arriving s { s with db } .stored
  | find {s : Store} {r : ActivitySession} {endTime : Int} (h : recentSession id s.db = some r) :
      Advances id .stored s s (.extending r endTime)
  | miss {s : Store} : Advances id .stored s s .starting
  | extend {s s' : Store} {r : ActivitySession} {endTime : Int}
      (h : s'.db = (s.db.updateSession r.id (extended r endTime s.now) fun _ => rfl).getD s.db) :
      Advances id (.extending r endTime) s s' .ended
  | start {s : Store} {db : Database} {row : ActivitySession}
      (h : s.db.createSession id row = some db) (hone : row.heartbeatCount = 1) :
      Advances id .starting s { s with db } .ended
  | finish {s s' : Store} (h : s'.db = s.db) : Advances id .ended s s' .ended

/-- The task follows the protocol from a phase on, and ends in phase `ended`. -/
abbrev Obeys {α : Type} (machines : Table Machine.id) (id : String) (P : α → Phase → Prop)
    (p : Task Store α) (a : Phase) : Prop :=
  p.Follows (fun s => s.db.machines = machines) (Advances id) P (· = .ended) a

variable {machines : Table Machine.id} {id key : String} {α : Type}

omit [Runtime] in
theorem obeys_emit {target : Target} {event : DateTime → Event} :
    Obeys machines id (fun _ a => a = .ended) (emit target event) .ended :=
  Task.Follows.effect fun _ _ => ⟨.ended, .finish rfl, rfl⟩

omit [Runtime] in
/-- A query before the history row is stored. -/
theorem obeys_query {f : Store → α} {v : α}
    (hv : ∀ s : Store, s.db.machines = machines → f s = v) :
    Obeys machines id (fun x a => x = v ∧ a = .arriving) (Tasks.Task.query f) .arriving :=
  Task.Follows.query fun s hs => ⟨.arriving, .wait, hv s hs, rfl⟩

omit [Runtime] in
/-- The history row. -/
theorem obeys_createHistory (row : ActivityHistory)
    {f : Database → DateTime → Option Database}
    (hf : ∀ db now, f db now = db.createHistory id row) (hexists : (machines.find id).isSome) :
    Obeys machines id (fun _ a => a = .stored) (write f) .arriving := by
  refine Task.Follows.op (fun s t x hs hft => ?_) fun s hs hft => ?_
  · obtain ⟨db, hdb, ⟨⟩⟩ := Option.map_eq_some_iff.mp hft
    exact ⟨.stored, .store ((hf s.db s.now).symm.trans hdb), rfl⟩
  · have hnone := (hf s.db s.now).symm.trans (Option.map_eq_none_iff.mp hft)
    rw [← hs] at hexists
    rw [Database.createHistory, Database.forMachine, if_pos hexists] at hnone
    cases hnone

/-- The phase after the query for the most recent session. -/
def planned (b : Beat) (endTime : Int) (recent : Option ActivitySession) : Phase :=
  match recent.filter b.continues with
  | some r => .extending r endTime
  | none => .starting

omit [Runtime] in
/-- The query for the most recent session. -/
theorem obeys_recentSession (b : Beat) (endTime : Int) :
    Obeys machines id (fun recent a => a = planned b endTime recent) (read (recentSession id))
      .stored := by
  refine Task.Follows.query fun s _ => ?_
  unfold planned
  cases hfilter : (recentSession id s.db).filter b.continues with
  | some r => exact ⟨_, .find (Option.filter_eq_some_iff.mp hfilter).1, rfl⟩
  | none => exact ⟨_, .miss, rfl⟩

omit [Runtime] in
/-- The session is extended, or another one started. -/
theorem obeys_record {b : Beat} {endTime : Int} (hreach : b.reach = some endTime)
    (hnew : ∀ now, ∃ row, b.newSession now = some row ∧ row.heartbeatCount = 1)
    (hexists : (machines.find id).isSome) (recent : Option ActivitySession) :
    Obeys machines id (fun _ a => a = .ended) (write (record id b recent))
      (planned b endTime recent) := by
  unfold planned record
  cases recent.filter b.continues with
  | some r =>
    simp only [hreach, Option.bind_eq_bind, Option.bind_some]
    refine Task.Follows.op (fun s t x _ hft => ?_) fun s _ hft => ?_
    · obtain ⟨db, hdb, ⟨⟩⟩ := Option.map_eq_some_iff.mp hft
      exact ⟨.ended, .extend (congrArg (Option.getD · s.db) hdb).symm, rfl⟩
    · have hdb := Option.map_eq_none_iff.mp hft
      exact ⟨.ended, .extend (congrArg (Option.getD · s.db) hdb).symm, rfl⟩
  | none =>
    refine Task.Follows.op (fun s t x _ hft => ?_) fun s hs hft => ?_
    · obtain ⟨db, hdb, ⟨⟩⟩ := Option.map_eq_some_iff.mp hft
      obtain ⟨row, hrow, hone⟩ := hnew s.now
      simp only [hrow, Option.bind_eq_bind, Option.bind_some] at hdb
      exact ⟨.ended, .start hdb hone, rfl⟩
    · obtain ⟨row, hrow, -⟩ := hnew s.now
      have hnone := Option.map_eq_none_iff.mp hft
      rw [← hs] at hexists
      simp only [hrow, Option.bind_eq_bind, Option.bind_some, Database.createSession,
        Database.forMachine, hexists, if_true] at hnone
      cases hnone

omit [Runtime] in
/-- What a handler does once it has stored its history row. -/
theorem obeys_aggregation {b : Beat} {endTime : Int} (hreach : b.reach = some endTime)
    (hnew : ∀ now, ∃ row, b.newSession now = some row ∧ row.heartbeatCount = 1)
    (hexists : (machines.find id).isSome) {k : Task Store α}
    (hk : Obeys machines id (fun _ a => a = .ended) k .ended) :
    Obeys machines id (fun _ a => a = .ended)
      (read (recentSession id) >>= fun recent => write (record id b recent) >>= fun _ => k)
      .stored := by
  refine Task.Follows.bind ?_ (obeys_recentSession b endTime)
  rintro recent _ rfl
  refine Task.Follows.bind ?_ (obeys_record hreach hnew hexists recent)
  rintro _ _ rfl
  exact hk

omit [Runtime] in
theorem text_of {v : Value} {text : String} (h : v = some (.str text) ∧ text ≠ "") :
    textArg v = some (some text) := by
  rw [h.1]
  rfl

/-- The socket's handler, behind the status check. -/
theorem obeys_storeActivity {socket : String} {data activity : Value}
    (hacc : Accepted id key (.socket socket (.machineActivity data)))
    (hactivity : prop data "activity" = some activity) (hexists : (machines.find id).isSome) :
    Obeys machines id (fun _ a => a = .ended) (storeActivity id activity) .arriving := by
  cases hacc with
  | @socket _ window process _ _ a time duration _ hactivity' hread htime hwindow hprocess hduration
      husername =>
    cases hactivity.symm.trans hactivity'
    obtain ⟨username, husername⟩ := Option.isSome_iff_exists.mp husername
    have hint : intArg a.duration = some (some duration) := by
      rw [hduration.1]
      rfl
    have hrequired : requiredInt a.duration = some duration := by
      rw [hduration.1]
      rfl
    have hadd : addInt (time / 1000) a.duration = some (time / 1000 + duration) := by
      rw [hduration.1]
      rfl
    have hrow : ∃ row, a.historyRow id = some row := by
      unfold Activity.historyRow
      simp only [htime, hint, text_of hwindow, text_of hprocess, husername, Option.bind_eq_bind,
        Option.bind_some]
      exact ⟨_, rfl⟩
    have hnew : ∀ now, ∃ row, a.sessionRow id (time / 1000) now = some row ∧
        row.heartbeatCount = 1 := by
      intro now
      unfold Activity.sessionRow
      simp only [hadd, hrequired, text_of hwindow, text_of hprocess, husername,
        Option.bind_eq_bind, Option.bind_some]
      exact ⟨_, rfl, rfl⟩
    obtain ⟨row, hrow⟩ := hrow
    unfold storeActivity
    simp only [hread, Tasks.Task.get_some, Tasks.Task.done_bind]
    refine Task.Follows.bind ?_ (obeys_createHistory row (fun db now => ?_) hexists)
    · rintro _ _ rfl
      simp only [htime, Tasks.Task.get_some, Tasks.Task.done_bind, aggregate_eq]
      exact obeys_aggregation (b := ofActivity id a (time / 1000)) hadd hnew hexists obeys_emit
    · rw [createActivityHistory, hrow]
      rfl

/-- The REST route, behind the authentication. -/
theorem obeys_postActivity {m : Machine} {body : Value}
    (hacc : Accepted m.id key (.request (.activity (some key) body)))
    (hexists : (machines.find m.id).isSome) :
    Obeys machines m.id (fun _ a => a = .ended) (postActivity m body) .arriving := by
  cases hacc with
  | @request window process _ h hread htime hwindow hprocess husername =>
    obtain ⟨username, husername⟩ := Option.isSome_iff_exists.mp husername
    have hrow : ∀ date, ∃ row, h.historyRow m.id date = some row := by
      intro date
      unfold Heartbeat.historyRow
      simp only [text_of hwindow, text_of hprocess, husername, Option.bind_eq_bind,
        Option.bind_some]
      exact ⟨_, rfl⟩
    have hnew : ∀ seconds now, ∃ row, h.sessionRow m.id seconds now = some row ∧
        row.heartbeatCount = 1 := by
      intro seconds now
      unfold Heartbeat.sessionRow
      simp only [text_of hwindow, text_of hprocess, husername, Option.bind_eq_bind,
        Option.bind_some]
      exact ⟨_, rfl, rfl⟩
    unfold postActivity
    refine Task.Follows.handle (fun a ha => ha) ?_
    simp only [hread, Tasks.Task.get_some, Tasks.Task.done_bind]
    -- the clock is read before the history row is stored
    refine Task.Follows.bind (P := fun _ a => a = .arriving) ?_
      (Task.Follows.look fun s _ => ⟨.arriving, .wait, rfl⟩)
    rintro now _ rfl
    obtain ⟨date, seconds, hdate⟩ := htime now
    obtain ⟨row, hrow⟩ := hrow date
    simp only [hdate, Tasks.Task.get_some, Tasks.Task.done_bind]
    refine Task.Follows.bind ?_ (obeys_createHistory row (fun db now => ?_) hexists)
    · rintro _ _ rfl
      simp only [requiredInt, Tasks.Task.get_some, Tasks.Task.done_bind, updateSessions_eq]
      exact obeys_aggregation (b := ofHeartbeat m.id h seconds) rfl (hnew seconds) hexists rfl
    · rw [createHeartbeat, hrow]
      rfl

/-- The socket's handler, from its arrival on. -/
theorem obeys_machineActivity {m : Machine} {socket : String} {data : Value}
    (hacc : Accepted id key (.socket socket (.machineActivity data))) (hid : id ≠ "")
    (hfind : machines.find id = some m) (hactive : m.status = .active) :
    Obeys machines id (fun _ a => a = .ended) (machineActivity data) .arriving := by
  have hacc' := hacc
  cases hacc with
  | @socket _ _ _ _ activity _ _ _ hid' hactivity =>
    have htruthy : truthy (some (.str id)) = true := by simpa [truthy] using hid
    have hstatus : (machines.find id).map (·.status) = some .active := by
      rw [hfind, Option.map_some, hactive]
    unfold machineActivity whenActive
    refine Task.Follows.handle (fun a ha => ha) ?_
    simp only [hid', hactivity, Tasks.Task.get_some, Tasks.Task.done_bind, htruthy, if_true,
      requiredText]
    refine Task.Follows.bind ?_ (obeys_query (v := some .active) fun t ht => ?_)
    · rintro _ _ ⟨rfl, rfl⟩
      exact obeys_storeActivity hacc' hactivity (by simp [hfind])
    · show (t.db.machines.find id).map (·.status) = _
      rw [ht]
      exact hstatus

/-- The REST route, with the authentication before it. -/
theorem obeys_activity {m : Machine} {body : Value}
    (hacc : Accepted m.id key (.request (.activity (some key) body))) (hkey : key ≠ "")
    (hrow : machines.rows.find? (fun m => m.apiKey = key) = some m)
    (hexists : (machines.find m.id).isSome) :
    Obeys machines m.id (fun _ a => a = .ended)
      (authenticateMachine (some key) (postActivity · body)) .arriving := by
  unfold authenticateMachine
  rw [show (some key).filter (· ≠ "") = some key by simp [Option.filter, hkey]]
  refine Task.Follows.bind (P := fun found a => found = some (some m) ∧ a = .arriving) ?_ ?_
  · rintro _ _ ⟨rfl, rfl⟩
    exact obeys_postActivity hacc hexists
  · -- the lookup does not fail, so the `catch` is not reached
    refine Task.Follows.handle (F := fun _ => False) (fun _ h => h.elim) ?_
    refine Task.Follows.bind (P := fun found a => found = some m ∧ a = .arriving) ?_ ?_
    · rintro _ _ ⟨rfl, rfl⟩
      exact ⟨rfl, rfl⟩
    · refine Task.Follows.query fun t ht => ⟨.arriving, .wait, ?_, rfl⟩
      show t.db.machines.rows.find? _ = _
      rw [ht]
      exact hrow

/-- **Every handler follows the protocol**, from its arrival on. -/
theorem obeys_handler {s : Store} (hserves : Serves s id key) {w : Channels.Origin}
    (hacc : Accepted id key w) :
    Obeys s.db.machines id (fun _ a => a = .ended) (Channels.handler w) .arriving := by
  obtain ⟨hid, m, hauth, rfl, hactive⟩ := hserves
  have hfind : s.db.machines.find m.id = some m := Collection.find_of_authenticated hauth
  have hacc' := hacc
  cases hacc with
  | socket => exact obeys_machineActivity hacc' hid hfind hactive
  | request =>
    obtain ⟨key', hkey, hrow⟩ := Option.bind_eq_some_iff.mp hauth
    obtain ⟨hkey, hne⟩ := Option.filter_eq_some_iff.mp hkey
    cases hkey
    refine Task.Follows.bind (P := fun _ a => a = .ended) ?_
      (obeys_activity hacc' (by simpa using hne) hrow (by simp [hfind]))
    rintro _ _ rfl
    rfl

/-! ## The books -/

/-- The history row is stored. -/
def Phase.isStored : Phase → Bool
  | .arriving => false
  | _ => true

def Phase.isEnded : Phase → Bool
  | .ended => true
  | _ => false

/-- The count that has been read and not yet written. -/
def Phase.held : Phase → Option (Nat × Int)
  | .extending r _ => some (r.id, r.heartbeatCount)
  | _ => none

/-- The sessions of a machine as counters, and what its handlers hold of them. -/
def counters (id : String) (db : Database) (phases : List Phase) : Counters.State Nat Nat where
  cells := (db.rowsOf id).activitySessions.map fun r => (r.id, r.heartbeatCount)
  held i := phases[i]?.bind Phase.held

/-- What a step of handler `i` does to the counters. -/
inductive Change (c c' : Counters.State Nat Nat) (i : Nat) : Phase → Phase → Prop
  | same {a b : Phase} (hsame : c' = c) (hended : b.isEnded = a.isEnded)
      (hidle : ∀ r endTime, a ≠ .extending r endTime) : Change c c' i a b
  | read {r : ActivitySession} {endTime : Int} (hcell : (r.id, r.heartbeatCount) ∈ c.cells)
      (hread : c' = c.read i r.id r.heartbeatCount) : Change c c' i .stored (.extending r endTime)
  | increment {r : ActivitySession} {endTime : Int}
      (hheld : c.held i = some (r.id, r.heartbeatCount))
      (hincrement : c' = c.increment i r.id r.heartbeatCount) :
      Change c c' i (.extending r endTime) .ended
  | add {k : Nat} (hk : k ∉ c.keys) (hadd : c' = c.add i k) : Change c c' i .starting .ended

variable {s s' : Store} {db : Database} {phases : List Phase} {i k : Nat} {v : Int} {a b : Phase}

omit [Runtime] in
theorem mem_cells : (k, v) ∈ (counters id db phases).cells ↔
    ∃ r ∈ db.activitySessions.rows, r.machineId = id ∧ r.id = k ∧ r.heartbeatCount = v := by
  simp [counters, Database.rowsOf, and_assoc]

omit [Runtime] in
theorem mem_keys : k ∈ (counters id db phases).keys ↔
    ∃ r ∈ db.activitySessions.rows, r.machineId = id ∧ r.id = k := by
  simp [Counters.State.keys, counters, Database.rowsOf, and_assoc]

omit [Runtime] in
theorem keys_nodup : (counters id db phases).keys.Nodup := by
  have hkeys : (counters id db phases).keys =
      (db.activitySessions.rows.filter (·.machineId = id)).map ActivitySession.id := by
    rw [Counters.State.keys, counters, List.map_map]
    rfl
  rw [hkeys]
  exact db.activitySessions.nodup.sublist (List.filter_sublist.map _)

omit [Runtime] in
/-- A handler's phase decides what it holds. -/
theorem held_set (hi : phases[i]? = some a) (b : Phase) :
    (fun j => (phases.set i b)[j]?.bind Phase.held) =
      Function.update (fun j => phases[j]?.bind Phase.held) i b.held := by
  have hlt : i < phases.length := (List.getElem?_eq_some_iff.mp hi).1
  funext j
  by_cases hj : j = i
  · subst hj
    rw [Function.update_self, List.getElem?_set_self hlt]
    rfl
  · rw [Function.update_of_ne hj, List.getElem?_set_ne (Ne.symm hj)]

omit [Runtime] in
/-- A step that leaves the sessions alone, from a phase that holds nothing to another. -/
theorem counters_same (hi : phases[i]? = some a) (ha : a.held = none) (hb : b.held = none)
    (hsessions : s'.db.activitySessions = s.db.activitySessions) :
    counters id s'.db (phases.set i b) = counters id s.db phases := by
  have hheld : (counters id s.db phases).held i = none := by
    show phases[i]?.bind Phase.held = none
    rw [hi]
    exact ha
  unfold counters
  rw [held_set hi, hb, Database.rowsOf, Database.rowsOf, hsessions, ← hheld]
  exact congrArg _ (Function.update_eq_self i _)

omit [Runtime] in
/-- Extending a session is writing its counter. -/
theorem cells_extended (id : String) (r : ActivitySession) (endTime : Int) (now : DateTime) :
    ∀ rows : List ActivitySession,
      ((rows.map fun x => if x.id = r.id then extended r endTime now x else x).filter
          (·.machineId = id)).map (fun x => (x.id, x.heartbeatCount)) =
        ((rows.filter (·.machineId = id)).map fun x => (x.id, x.heartbeatCount)).map
          fun x => if x.1 = r.id then (r.id, r.heartbeatCount + 1) else x := by
  intro rows
  induction rows with
  | nil => rfl
  | cons x rows ih =>
    have hmachine : (if x.id = r.id then extended r endTime now x else x).machineId =
        x.machineId := by
      split <;> rfl
    rw [List.map_cons, List.filter_cons, List.filter_cons, hmachine]
    by_cases hx : x.machineId = id
    · have hdec : decide (x.machineId = id) = true := decide_eq_true hx
      rw [if_pos hdec, if_pos hdec, List.map_cons, List.map_cons, List.map_cons, ih]
      by_cases hid : x.id = r.id
      · rw [if_pos hid, if_pos hid, ← hid]
        rfl
      · rw [if_neg hid, if_neg hid]
    · have hdec : ¬ decide (x.machineId = id) = true := by simpa using hx
      rw [if_neg hdec, if_neg hdec, ih]

omit [Runtime] in
theorem total_counters : (counters id db phases).total = heartbeats id db := by
  rw [Counters.State.total, counters, List.map_map]
  rfl

omit [Runtime] in
/-- **Each phase of a handler is one operation on the counters.** -/
theorem change_of_advances (hi : phases[i]? = some a) (h : Advances id a s s' b)
    (hkeys : ∀ k v, (counters id s.db phases).held i = some (k, v) →
      k ∈ (counters id s.db phases).keys) :
    Change (counters id s.db phases) (counters id s'.db (phases.set i b)) i a b := by
  cases h with
  | wait => exact .same (counters_same hi rfl rfl rfl) rfl (by rintro _ _ ⟨⟩)
  | store h =>
    obtain ⟨-, rfl⟩ := Database.forMachine_eq_some.mp h
    exact .same (counters_same hi rfl rfl rfl) rfl (by rintro _ _ ⟨⟩)
  | find h =>
    refine .read ?_ ?_
    · obtain ⟨hmem, hmachine⟩ := Reports.mem_of_recentSession h
      exact mem_cells.mpr ⟨_, hmem, hmachine, rfl, rfl⟩
    · unfold counters Counters.State.read
      rw [held_set hi]
      rfl
  | miss => exact .same (counters_same hi rfl rfl rfl) rfl (by rintro _ _ ⟨⟩)
  | @extend _ _ r endTime hdb =>
    have hheld : (counters id s.db phases).held i = some (r.id, r.heartbeatCount) := by
      show phases[i]?.bind Phase.held = _
      rw [hi]
      rfl
    refine .increment hheld ?_
    -- the session is still there: sessions are never deleted
    obtain ⟨row, hrow, -, hid⟩ := mem_keys.mp (hkeys _ _ hheld)
    have hfind : s.db.activitySessions.find r.id = some row := Table.find_eq_some.mpr ⟨hrow, hid⟩
    have hupdate : (s.db.updateSession r.id (extended r endTime s.now) fun _ => rfl) = some
        { s.db with activitySessions :=
            s.db.activitySessions.update r.id (extended r endTime s.now) fun _ => rfl } :=
      if_pos (by rw [hfind]; rfl)
    have hdb := hdb.trans (congrArg (Option.getD · s.db) hupdate)
    have hcells := cells_extended id r endTime s.now s.db.activitySessions.rows
    unfold counters Counters.State.increment
    rw [held_set hi, hdb]
    exact congrArg (fun cells => Counters.State.mk cells _) hcells
  | @start _ db row h hone =>
    obtain ⟨-, rfl⟩ := Database.forMachine_eq_some.mp h
    refine .add (k := s.db.activitySessions.next) ?_ ?_
    · intro hk
      obtain ⟨row, hrow, -, hid⟩ := mem_keys.mp hk
      have hlt := s.db.activitySessions.below row hrow
      omega
    · unfold counters Counters.State.add
      rw [held_set hi]
      simp [Database.rowsOf, hone]
      rfl
  | finish hdb => exact .same (counters_same hi rfl rfl (by rw [hdb])) rfl (by rintro _ _ ⟨⟩)

/-! ## Which session a handler is about to extend -/

variable {q : Task Store Unit} {endTime : Int} {r : ActivitySession}

/-- The handlers of machine `id` follow the protocol, and end in its last phase. -/
abbrev Handles (machines : Table Machine.id) (id : String) (q : Task Store Unit) (a : Phase) :
    Prop :=
  Obeys machines id (fun _ a => a = .ended) q a

omit [Runtime] in
/-- A handler that has not come to its end has a next step. -/
theorem live_of_handles (hq : Handles machines id q a) (ha : a ≠ .ended) : q.Live := by
  by_contra hlive
  rcases Task.Follows.ended hq hlive with ⟨-, hend⟩ | hend
  · exact ha hend
  · exact ha hend

omit [Runtime] in
theorem extends_of_handles (hq : Handles machines id q (.extending r endTime)) :
    Extends machines r endTime q := by
  refine ⟨live_of_handles hq (by rintro ⟨⟩), fun s s' q' hs hm => ?_⟩
  obtain ⟨b, hstep, -⟩ := Task.Follows.moves hq hs hm
  cases hstep with
  | extend hdb => exact hdb

/-- A table with one session, of which more heartbeats are counted than have been read. -/
def ahead (r : ActivitySession) : Sequence ActivitySession.id where
  rows := [{ r with heartbeatCount := r.heartbeatCount + 2 }]
  nodup := by simp
  next := r.id + 1
  below := by simp

omit [Runtime] in
/-- A handler extends one session only, as it has read it. -/
theorem extending_of_extends (hs : s.db.machines = machines) (hq : Handles machines id q a)
    (hx : Extends machines r endTime q) :
    ∃ r₀ endTime₀, a = .extending r₀ endTime₀ ∧ r₀.id = r.id ∧
      r₀.heartbeatCount = r.heartbeatCount := by
  obtain ⟨hlive, hx⟩ := hx
  -- what the next step does to the one session of `ahead r` tells
  obtain ⟨t, ht⟩ : ∃ t : Store, t = { s with db := { s.db with activitySessions := ahead r } } :=
    ⟨_, rfl⟩
  have htm : t.db.machines = machines := by rw [ht]; exact hs
  have hts : t.db.activitySessions = ahead r := by rw [ht]
  obtain ⟨t', q', hm⟩ := hlive.moves t
  have hfound : t.db.activitySessions.find r.id =
      some { r with heartbeatCount := r.heartbeatCount + 2 } :=
    Table.find_eq_some.mpr ⟨by rw [hts]; exact List.mem_cons_self, rfl⟩
  have hwrite : ∀ r₀ : ActivitySession, ∀ e₀ : Int, r₀.id = r.id →
      ((t.db.updateSession r₀.id (extended r₀ e₀ t.now) fun _ => rfl).getD
          t.db).activitySessions.rows =
        [extended r₀ e₀ t.now { r with heartbeatCount := r.heartbeatCount + 2 }] := by
    intro r₀ e₀ hid
    unfold Database.updateSession
    rw [if_pos (by rw [hid, hfound]; rfl)]
    show t.db.activitySessions.rows.map _ = _
    rw [hts]
    exact congrArg (fun x => [x]) (if_pos hid.symm)
  have hrows : t'.db.activitySessions.rows =
      [extended r endTime t.now { r with heartbeatCount := r.heartbeatCount + 2 }] :=
    (congrArg (fun db : Database => db.activitySessions.rows) (hx t t' q' htm hm)).trans
      (hwrite r endTime rfl)
  have hcount : ∀ x : ActivitySession, t'.db.activitySessions.rows = [x] →
      x.heartbeatCount = r.heartbeatCount + 1 := by
    intro x hxrows
    rw [hrows] at hxrows
    cases hxrows
    rfl
  have hchanged : t'.db.activitySessions ≠ t.db.activitySessions := by
    intro hsame
    have hlast := hcount { r with heartbeatCount := r.heartbeatCount + 2 } (by
      rw [hsame, hts]
      rfl)
    simp only at hlast
    omega
  obtain ⟨b, hstep, -⟩ := Task.Follows.moves hq htm hm
  cases hstep with
  | wait => exact absurd rfl hchanged
  | store h =>
    obtain ⟨-, rfl⟩ := Database.forMachine_eq_some.mp h
    exact absurd rfl hchanged
  | find h => exact absurd rfl hchanged
  | miss => exact absurd rfl hchanged
  | @extend _ _ r₀ endTime₀ hdb =>
    by_cases hid : r₀.id = r.id
    · have hlast := hcount _ ((congrArg (fun db : Database => db.activitySessions.rows) hdb).trans
        (hwrite r₀ endTime₀ hid))
      have hlast : r₀.heartbeatCount + 1 = r.heartbeatCount + 1 := hlast
      exact ⟨r₀, endTime₀, rfl, hid, by omega⟩
    · have hnone : t.db.activitySessions.find r₀.id = none := by
        refine Table.find_eq_none.mpr fun x hx => ?_
        rw [hts] at hx
        cases List.mem_singleton.mp hx
        exact Ne.symm hid
      refine absurd ?_ hchanged
      have hskip : (t.db.updateSession r₀.id (extended r₀ endTime₀ t.now) fun _ => rfl) = none :=
        if_neg (by rw [hnone]; exact nofun)
      exact congrArg Database.activitySessions (hdb.trans (congrArg (Option.getD · t.db) hskip))
  | start h hone =>
    obtain ⟨-, rfl⟩ := Database.forMachine_eq_some.mp h
    have hlength := congrArg List.length hrows
    rw [Sequence.rows_create, hts] at hlength
    exact absurd hlength (by simp [ahead])
  | finish hdb => exact absurd (by rw [hdb]) hchanged

/-! ## Every run -/

variable {start : Store} {p p' : Pool Channels.Origin Store} {turn : Turn}

/-- What a run from `start` keeps, with the handlers in the given phases. -/
structure Kept (start : Store) (id : String) (p : Pool Channels.Origin Store)
    (phases : List Phase) : Prop where
  machines : p.store.db.machines = start.db.machines
  length : phases.length = p.tasks.length
  handles : ∀ (i : Nat) w q a, p.tasks[i]? = some (w, q) → phases[i]? = some a →
    Handles start.db.machines id q a
  history : historyRows id p.store.db = historyRows id start.db + phases.countP Phase.isStored

/-- The heartbeats there would be, if none was lost. -/
def due (start : Store) (id : String) (phases : List Phase) : Int :=
  heartbeats id start.db + phases.countP Phase.isEnded

omit [Runtime] in
theorem countP_set (f : Phase → Bool) (hi : phases[i]? = some a) (b : Phase) :
    ((phases.set i b).countP f : Int) =
      phases.countP f - (if f a then 1 else 0) + (if f b then 1 else 0) := by
  have hset := Permits.countP_set f hi b
  cases ha : f a <;> cases hb : f b <;>
    simp only [ha, hb, if_true, Bool.false_eq_true, if_false] at hset ⊢ <;> omega

omit [Runtime] in
theorem due_set (hi : phases[i]? = some a) (b : Phase) :
    due start id (phases.set i b) =
      due start id phases - (if a.isEnded then 1 else 0) + (if b.isEnded then 1 else 0) := by
  unfold due
  rw [countP_set Phase.isEnded hi]
  omega

omit [Runtime] in
/-- The machines stay; only the step from arrival stores a history row. -/
theorem history_of_advances (hi : phases[i]? = some a) (h : Advances id a s s' b) :
    s'.db.machines = s.db.machines ∧
      historyRows id s'.db - historyRows id s.db =
        (phases.set i b).countP Phase.isStored - phases.countP Phase.isStored := by
  have hset := countP_set Phase.isStored hi b
  have hsame : ∀ db : Database, db.machines = s.db.machines →
      db.activityHistory = s.db.activityHistory → b.isStored = a.isStored →
      db.machines = s.db.machines ∧ historyRows id db - historyRows id s.db =
        (phases.set i b).countP Phase.isStored - phases.countP Phase.isStored := by
    intro db hmachines hhistory hab
    have hrows : historyRows id db = historyRows id s.db := by
      unfold historyRows Database.rowsOf
      rw [hhistory]
    refine ⟨hmachines, ?_⟩
    rw [hset, hab, hrows]
    omega
  cases h with
  | wait => exact hsame _ rfl rfl rfl
  | store h =>
    obtain ⟨-, rfl⟩ := Database.forMachine_eq_some.mp h
    refine ⟨rfl, ?_⟩
    rw [hset]
    simp [historyRows, Database.rowsOf, Phase.isStored]
  | find h => exact hsame _ rfl rfl rfl
  | miss => exact hsame _ rfl rfl rfl
  | extend hdb =>
    rw [hdb]
    unfold Database.updateSession
    split
    · exact hsame _ rfl rfl rfl
    · exact hsame _ rfl rfl rfl
  | start h hone =>
    obtain ⟨-, rfl⟩ := Database.forMachine_eq_some.mp h
    exact hsame _ rfl rfl rfl
  | finish hdb => exact hsame _ (by rw [hdb]) (by rw [hdb]) rfl

/-- **A step of the system** is a tick, or a step of one handler from its phase to another. -/
theorem kept_step (hk : Kept start id p phases) (hs : step p turn = some p') :
    (∃ now, turn = .tick now ∧ p' = { p with store := { p.store with now } }) ∨
      ∃ i w q a b, turn = .advance i ∧ p.tasks[i]? = some (w, q) ∧ phases[i]? = some a ∧
        Advances id a p.store p'.store b ∧ Kept start id p' (phases.set i b) := by
  cases turn with
  | tick now =>
    cases hs
    exact Or.inl ⟨now, rfl, rfl⟩
  | advance i =>
    right
    have hs : p.step Channels.handler (fun now s => { s with now })
      (.advance i : Label Channels.Origin DateTime) = some p' := hs
    rcases Pool.step_cases hs with ⟨_, ⟨⟩, _⟩ | ⟨_, w, q, q', s', ⟨⟩, hget, hm, rfl⟩ |
      ⟨_, _, _, _, ⟨⟩, _⟩ | ⟨_, ⟨⟩, _⟩
    have hlt : i < phases.length := by
      rw [hk.length]
      exact (List.getElem?_eq_some_iff.mp hget).1
    obtain ⟨a, ha⟩ : ∃ a, phases[i]? = some a := ⟨phases[i], List.getElem?_eq_getElem hlt⟩
    obtain ⟨b, hstep, hq'⟩ := Task.Follows.moves (hk.handles i w q a hget ha) hk.machines hm
    obtain ⟨hmachines, hhistory⟩ := history_of_advances ha hstep
    refine ⟨i, w, q, a, b, rfl, hget, ha, hstep, ?_⟩
    constructor
    · exact hmachines.trans hk.machines
    · rw [List.length_set, List.length_set]
      exact hk.length
    · intro j w' r c hj hc
      by_cases hji : j = i
      · subst hji
        rw [List.getElem?_set_self (List.getElem?_eq_some_iff.mp hget).1] at hj
        rw [List.getElem?_set_self hlt] at hc
        cases hj
        cases hc
        exact hq'
      · rw [List.getElem?_set_ne (Ne.symm hji)] at hj hc
        exact hk.handles j w' r c hj hc
    · have hbefore := hk.history
      show historyRows id s'.db = _
      omega

omit [Runtime] in
/-- A handler that moves is fresh if what it holds, if anything, is what the counters say. -/
theorem fresh_iff {w : Channels.Origin} (hk : Kept start id p phases)
    (hget : p.tasks[i]? = some (w, q)) (ha : phases[i]? = some a)
    (hkeys : ∀ k v, (counters id p.store.db phases).held i = some (k, v) →
      k ∈ (counters id p.store.db phases).keys) :
    Fresh p (.advance i) ↔ ∀ r endTime, a = .extending r endTime →
      (r.id, r.heartbeatCount) ∈ (counters id p.store.db phases).cells := by
  have hq := hk.handles i w q a hget ha
  have hkey : ∀ r endTime, a = .extending r endTime →
      ∃ row ∈ p.store.db.activitySessions.rows, row.machineId = id ∧ row.id = r.id := by
    rintro r endTime rfl
    refine mem_keys.mp (hkeys r.id r.heartbeatCount ?_)
    show phases[i]?.bind Phase.held = _
    rw [ha]
    rfl
  constructor
  · rintro hfresh r endTime rfl
    obtain ⟨row, hrow, hmachine, hid⟩ := hkey r endTime rfl
    have hx : Extends p.store.db.machines r endTime q := by
      rw [hk.machines]
      exact extends_of_handles hq
    exact mem_cells.mpr ⟨row, hrow, hmachine, hid, hfresh w q r endTime hget hx row hrow hid⟩
  · intro hcell w' q' r endTime hget' hx row hrow hid
    cases hget.symm.trans hget'
    rw [hk.machines] at hx
    obtain ⟨r₀, endTime₀, rfl, hid₀, hcount⟩ := extending_of_extends hk.machines hq hx
    obtain ⟨row₀, hrow₀, -, hrid, hrcount⟩ := mem_cells.mp (hcell r₀ endTime₀ rfl)
    have hsame : row = row₀ := Table.eq_of_key hrow hrow₀ (by omega)
    rw [hsame, hrcount, hcount]

/-- The run has come to `p`, and the books of the sessions are in state `B`. -/
def Mode (B : Counters.State Nat Nat → Int → Prop) (start : Store) (id : String)
    (p : Pool Channels.Origin Store) : Prop :=
  ∃ phases, Kept start id p phases ∧ B (counters id p.store.db phases) (due start id phases)

section Books

variable {c c' : Counters.State Nat Nat} {n : Int}

omit [Runtime] in
/-- Exact books stay exact, where the handler is fresh. -/
theorem Change.exact (h : Change c c' i a b) (hc : c.Exact n) (hnodup : c.keys.Nodup)
    (hcell : ∀ r endTime, a = .extending r endTime → (r.id, r.heartbeatCount) ∈ c.cells) :
    c'.Exact (n - (if a.isEnded then 1 else 0) + (if b.isEnded then 1 else 0)) := by
  cases h with
  | same hsame hended hidle =>
    subst hsame
    rw [hended, Int.sub_add_cancel]
    exact hc
  | read hfound hread =>
    subst hread
    simpa [Phase.isEnded] using hc.read hfound
  | increment hheld hincrement =>
    subst hincrement
    simpa [Phase.isEnded] using hc.increment hnodup (hcell _ _ rfl)
  | add hk hadd =>
    subst hadd
    simpa [Phase.isEnded] using hc.add hk

omit [Runtime] in
/-- A handler that is not fresh leaves them short. -/
theorem Change.stale (h : Change c c' i a b) (hc : c.Exact n) (hnodup : c.keys.Nodup)
    (hcell : ¬ ∀ r endTime, a = .extending r endTime → (r.id, r.heartbeatCount) ∈ c.cells) :
    c'.Short (n - (if a.isEnded then 1 else 0) + (if b.isEnded then 1 else 0)) := by
  cases h with
  | same hsame hended hidle => exact absurd (fun r endTime ha => absurd ha (hidle r endTime)) hcell
  | read hread' hread => exact absurd (by rintro _ _ ⟨⟩) hcell
  | @increment r endTime hheld hincrement =>
    subst hincrement
    have hnot : (r.id, r.heartbeatCount) ∉ c.cells := by
      intro hmem
      refine hcell ?_
      rintro _ _ ⟨⟩
      exact hmem
    simpa [Phase.isEnded] using hc.stale hnodup hheld hnot
  | add hk hadd => exact absurd (by rintro _ _ ⟨⟩) hcell

omit [Runtime] in
/-- Short books stay short. -/
theorem Change.short (h : Change c c' i a b) (hc : c.Short n) (hnodup : c.keys.Nodup) :
    c'.Short (n - (if a.isEnded then 1 else 0) + (if b.isEnded then 1 else 0)) := by
  cases h with
  | same hsame hended hidle =>
    subst hsame
    rw [hended, Int.sub_add_cancel]
    exact hc
  | read hcell hread =>
    subst hread
    simpa [Phase.isEnded] using hc.read hnodup hcell
  | increment hheld hincrement =>
    subst hincrement
    simpa [Phase.isEnded] using hc.increment hnodup hheld
  | add hk hadd =>
    subst hadd
    simpa [Phase.isEnded] using hc.add hk

end Books

/-- One step: what it does to the counters takes books in state `B` to state `B'`. -/
theorem mode_step {B B' : Counters.State Nat Nat → Int → Prop} (hmode : Mode B start id p)
    (hs : step p turn = some p')
    (htick : ∀ now, turn = .tick now → ∀ c n, B c n → B' c n)
    (hheld : ∀ c n, B c n → ∀ i k v, c.held i = some (k, v) → k ∈ c.keys)
    (hchange : ∀ c c' n i a b, Change c c' i a b → c.keys.Nodup → turn = .advance i →
      (Fresh p turn ↔ ∀ r endTime, a = .extending r endTime →
        (r.id, r.heartbeatCount) ∈ c.cells) → B c n →
      B' c' (n - (if a.isEnded then 1 else 0) + (if b.isEnded then 1 else 0))) :
    Mode B' start id p' := by
  obtain ⟨phases, hk, hbooks⟩ := hmode
  rcases kept_step hk hs with ⟨now, rfl, rfl⟩ | ⟨i, w, q, a, b, rfl, hget, ha, hstep, hk'⟩
  · exact ⟨phases, ⟨hk.machines, hk.length, hk.handles, hk.history⟩, htick now rfl _ _ hbooks⟩
  · have hkeys := hheld _ _ hbooks i
    refine ⟨phases.set i b, hk', ?_⟩
    rw [due_set ha]
    exact hchange _ _ _ i a b (change_of_advances ha hstep hkeys) keys_nodup rfl
      (fresh_iff hk hget ha hkeys) hbooks

/-- The handlers start with exact books. -/
theorem mode_initial {activities : List Channels.Origin} (hserves : Serves start id key)
    (hacc : ∀ w ∈ activities, Accepted id key w) :
    Mode Counters.State.Exact start id (initial start activities) := by
  have hphases : ∀ (i : Nat) a, (activities.map fun _ => Phase.arriving)[i]? = some a →
      a = .arriving := by
    intro i a ha
    rw [List.getElem?_map] at ha
    obtain ⟨w, -, rfl⟩ := Option.map_eq_some_iff.mp ha
    rfl
  have hcount : ∀ f : Phase → Bool, f .arriving = false →
      (activities.map fun _ => Phase.arriving).countP f = 0 := by
    intro f hf
    rw [List.countP_eq_zero]
    intro a ha
    obtain ⟨w, -, rfl⟩ := List.mem_map.mp ha
    simp [hf]
  refine ⟨activities.map fun _ => .arriving, ⟨rfl, by simp [initial], ?_, ?_⟩, ?_⟩
  · intro i w q a hget ha
    obtain rfl := hphases i a ha
    simp only [initial, List.getElem?_map] at hget
    obtain ⟨w', hw', heq⟩ := Option.map_eq_some_iff.mp hget
    cases heq
    exact obeys_handler hserves (hacc w (List.mem_of_getElem? hw'))
  · rw [hcount Phase.isStored rfl]
    simp [initial]
  · have hdue : due start id (activities.map fun _ => .arriving) =
        (counters id start.db (activities.map fun _ => .arriving)).total := by
      rw [due, hcount Phase.isEnded rfl, total_counters]
      omega
    rw [hdue]
    refine Counters.State.exact_init keys_nodup fun i => ?_
    show (activities.map fun _ => Phase.arriving)[i]?.bind Phase.held = none
    cases ha : (activities.map fun _ => Phase.arriving)[i]? with
    | none => rfl
    | some a =>
      rw [hphases i a ha]
      rfl

omit [Runtime] in
/-- When all handlers have ended, each has stored a row and written a session. -/
theorem due_finished (hk : Kept start id p phases) (hfinished : Finished p) :
    due start id phases - heartbeats id start.db =
      historyRows id p.store.db - historyRows id start.db := by
  have hended : ∀ a ∈ phases, a = .ended := by
    intro a ha
    obtain ⟨i, hi⟩ := List.mem_iff_getElem?.mp ha
    have hlt : i < p.tasks.length := by
      rw [← hk.length]
      exact (List.getElem?_eq_some_iff.mp hi).1
    have hget : p.tasks[i]? = some (p.tasks[i].1, p.tasks[i].2) := List.getElem?_eq_getElem hlt
    by_contra hne
    exact hfinished _ (List.mem_of_getElem? hget)
      (live_of_handles (hk.handles i _ _ a hget hi) hne)
  have hcount : ∀ f : Phase → Bool, f .ended = true → phases.countP f = phases.length := by
    intro f hf
    rw [List.countP_eq_length]
    intro a ha
    rw [hended a ha, hf]
  have hhistory := hk.history
  rw [hcount Phase.isStored rfl] at hhistory
  rw [due, hcount Phase.isEnded rfl]
  omega

end Heartbeats

/-! ## Two handlers on one session -/

/-- Ten seconds of one window of one program. -/
def report : Channels.Origin := .socket "a" (.machineActivity (payload 1709294410000 10))

theorem accepted_report : @Accepted Channels.numericRuntime "PC-1" "4f1c" report :=
  @Accepted.socket Channels.numericRuntime "PC-1" "4f1c" "a" "Report" "winword" _ _ _ _ _ rfl rfl
    rfl rfl ⟨rfl, by decide⟩ ⟨rfl, by decide⟩ ⟨rfl, by decide⟩ rfl

/-- A session of the same window. -/
def openSession : Sequence ActivitySession.id :=
  Sequence.empty.create (fun n =>
    { id := n, machineId := "PC-1", startTime := 1709294400, endTime := 1709294410,
      durationSeconds := 10, processName := some "winword", activeWindow := some "Report",
      username := none, createdAt := 0, updatedAt := 0 }) fun _ => rfl

/-- The server with one adopted machine, in that session. -/
def inSession : Store :=
  { Store.adopted with db := { Store.adopted.db with activitySessions := openSession } }

/-- The handler of one report has run alone. -/
def alone : Pool Channels.Origin Store :=
  (Runs.run (@step Channels.numericRuntime) (@initial Channels.numericRuntime inSession [report])
    (List.replicate 5 (.advance 0))).getD { store := inSession, tasks := [] }

end Server.Heartbeats
