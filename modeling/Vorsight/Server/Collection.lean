/-
  WHAT IS COLLECTED FROM A MACHINE THAT IS NOT ACTIVE.

  Each entry point of the machine side asks for the machine's status by itself, or does not.

  1. **The claim of the design** (`NothingCollected`): a handler leaves what is collected from
     pending and archived machines as it is: history, sessions, audit events, screenshots, and the
     part of the state that the machine reports.

  2. **Where it fails.**  The REST routes ask only for the key, so `POST /activity` and
     `POST /configuration/applied` store what any machine sends (`Collects`).

  3. **The exact condition** (`nothingCollected_iff`), over every message and request: what passes a
     status check is confined to an active machine (`sparing_of_confined`), and what asks for no
     status writes nothing that counts, except in these two routes.
-/
import Vorsight.Server.Channels

namespace Server.Collection

open Js Tables Tasks Channels

section Collection

variable [Runtime]

/-! ## What is collected -/

/-- The columns of a state row that the machine reports. -/
structure Reported where
  lastActivityTime : Option DateTime
  activeWindow : Option String
  screenshotCount : Int
  uploadCount : Int
  healthStatus : Option Text
  appliedSettings : Option Text

def reported (r : MachineState) : Reported where
  lastActivityTime := r.lastActivityTime
  activeWindow := r.activeWindow
  screenshotCount := r.screenshotCount
  uploadCount := r.uploadCount
  healthStatus := r.healthStatus
  appliedSettings := r.appliedSettings

/-- What is collected from one machine. -/
@[ext] structure Collected where
  activityHistory : List ActivityHistory
  activitySessions : List ActivitySession
  auditEvents : List AuditEvent
  screenshots : List Screenshot
  reported : Option Reported

def collectedOf (db : Database) (id : String) : Collected where
  activityHistory := (db.rowsOf id).activityHistory
  activitySessions := (db.rowsOf id).activitySessions
  auditEvents := (db.rowsOf id).auditEvents
  screenshots := (db.rowsOf id).screenshots
  reported := (db.rowsOf id).state.map reported

/-- Nothing is added to or changed in what is collected from machines that are not active. -/
def NothingCollected (s s' : Store) : Prop :=
  ∀ id m, s.db.machines.find id = some m → m.status ≠ .active →
    collectedOf s'.db id = collectedOf s.db id

/-! ## The condition -/

/-- The machine whose key a request carries. -/
def authenticated (s : Store) (apiKey : Option String) : Option Machine :=
  (apiKey.filter (· ≠ "")).bind fun key => s.db.machines.rows.find? fun m => m.apiKey = key

/-- The history row that a body of `POST /activity` is stored as. -/
def historyRowOf (id : String) (body : Value) (now : DateTime) : Option ActivityHistory := do
  let h ← readHeartbeat body
  let time ← heartbeatTime h.timestamp now
  h.historyRow id time.1

/-- The body of a report changes the applied settings of a machine that has a state row. -/
def ChangesApplied (db : Database) (id : String) (body : Value) : Prop :=
  ∃ settings r, prop body "settings" = some settings ∧ truthy settings ∧
    db.machineStates.find id = some r ∧ textOrJson settings ≠ r.appliedSettings

/-- The request is one of the two that store data without asking for the status, and it comes from
    a machine that is not active. -/
def Collects (s : Store) : Origin → Prop
  | .request (.activity apiKey body) => ∃ m, authenticated s apiKey = some m ∧
      m.status ≠ .active ∧ (historyRowOf m.id body s.now).isSome
  | .request (.applied apiKey body) => ∃ m, authenticated s apiKey = some m ∧
      m.status ≠ .active ∧ ChangesApplied s.db m.id body
  | _ => False

/-! ## Steps that spare machines that are not active -/

/-- What a step may do: statuses stay, and nothing is collected. -/
def Spares (s s' : Store) : Prop :=
  ∀ id m, s.db.machines.find id = some m → ∃ m', s'.db.machines.find id = some m' ∧
    m'.status = m.status ∧ (m.status ≠ .active → collectedOf s'.db id = collectedOf s.db id)

variable {id : String} {s s' : Store}

omit [Runtime] in
theorem Spares.refl (s : Store) : Spares s s := fun _ m hm => ⟨m, hm, rfl, fun _ => rfl⟩

omit [Runtime] in
theorem Spares.trans {a b c : Store} (hab : Spares a b) (hbc : Spares b c) : Spares a c := by
  intro id m hm
  obtain ⟨m', hm', hstatus, hcollected⟩ := hab id m hm
  obtain ⟨m'', hm'', hstatus', hcollected'⟩ := hbc id m' hm'
  refine ⟨m'', hm'', hstatus'.trans hstatus, fun hne => ?_⟩
  exact (hcollected' (hstatus ▸ hne)).trans (hcollected hne)

omit [Runtime] in
theorem Spares.nothingCollected (h : Spares s s') : NothingCollected s s' := by
  intro id m hm hne
  obtain ⟨-, -, -, hcollected⟩ := h id m hm
  exact hcollected hne

omit [Runtime] in
theorem spares_of_db (h : s'.db = s.db) : Spares s s' := by
  intro id m hm
  exact ⟨m, h ▸ hm, rfl, fun _ => by rw [h]⟩

omit [Runtime] in
/-- A step for one machine spares all, if that one is active or what is collected from it stays. -/
theorem spares_of_writes (h : Reports.Writes id s s')
    (hid : ∀ m, s.db.machines.find id = some m → m.status ≠ .active →
      collectedOf s'.db id = collectedOf s.db id) : Spares s s' := by
  intro other m hm
  by_cases hother : other = id
  · subst hother
    obtain ⟨m', hm', hstatus⟩ := h.status m hm
    exact ⟨m', hm', hstatus, hid m hm⟩
  · have hrows : s'.db.rowsOf other = s.db.rowsOf other := h.touches.others other hother
    have hm' : s'.db.machines.find other = some m :=
      (congrArg Database.MachineRows.machine hrows).trans hm
    exact ⟨m, hm', rfl, fun _ => by rw [collectedOf, hrows]; rfl⟩

/-! ## Tasks run alone -/

/-- The task, run alone from `s`, spares machines that are not active; it may throw. -/
abbrev Sparing {α : Type} (Q : α → Store → Prop) (p : Task Store α) (s : Store) : Prop :=
  p.Guar Eq Spares Q (fun _ => True) s

section Rules

variable {α β : Type}

omit [Runtime] in
theorem sparing_done {a : α} : Sparing (fun _ _ => True) (Tasks.Task.done a) s := fun _ _ => trivial

omit [Runtime] in
theorem sparing_bind {Q : α → Store → Prop} {p : Task Store α} {k : α → Task Store β}
    {Q' : β → Store → Prop} (hp : Sparing Q p s) (hk : ∀ a t, Q a t → Sparing Q' (k a) t) :
    Sparing Q' (p >>= k) s :=
  Task.Guar.bind (fun _ => rfl) hk hp

omit [Runtime] in
theorem sparing_handle {Q : α → Store → Prop} {p c : Task Store α} (hp : Sparing Q p s)
    (hc : ∀ t, Sparing Q c t) : Sparing Q (p.handle c) s :=
  Task.Guar.handle (fun _ => rfl) (fun t _ => hc t) hp

omit [Runtime] in
theorem sparing_weaken {Q : α → Store → Prop} {p : Task Store α} (hp : Sparing Q p s) :
    Sparing (fun _ _ => True) p s :=
  hp.mono (fun _ _ _ => trivial) fun _ h => h

omit [Runtime] in
theorem sparing_get {o : Option α} : Sparing (fun _ u => u = s) (Tasks.Task.get o) s :=
  Task.Guar.get (fun _ _ _ hs => hs.symm) fun _ => trivial

omit [Runtime] in
theorem sparing_look {f : Store → α} : Sparing (fun _ u => u = s) (Tasks.Task.look f) s :=
  Task.Guar.look Spares.refl fun _ _ hst htu => (hst.trans htu).symm

omit [Runtime] in
theorem sparing_read {f : Database → α} : Sparing (fun a u => a = f s.db ∧ u = s) (read f) s := by
  refine Task.Guar.query Spares.refl (fun t u hst htu => ?_) fun _ => trivial
  subst hst htu
  exact ⟨rfl, rfl⟩

omit [Runtime] in
/-- Synchronous code that leaves the database alone. -/
theorem sparing_effect {upd : Store → Store} (h : ∀ t, (upd t).db = t.db) :
    Sparing (fun _ _ => True) (Tasks.Task.effect upd) s :=
  Task.Guar.effect (fun t _ => spares_of_db (h t)) fun _ _ _ _ => trivial

omit [Runtime] in
theorem sparing_emit {target : Target} {event : DateTime → Event} :
    Sparing (fun _ _ => True) (emit target event) s :=
  sparing_effect fun _ => rfl

omit [Runtime] in
theorem sparing_write {f : Database → DateTime → Option Database}
    (hf : ∀ t db, f t.db t.now = some db → Spares t { t with db }) :
    Sparing (fun _ _ => True) (write f) s := by
  refine Task.Guar.op Spares.refl (fun t _ _ _ hfu => ?_) fun _ => trivial
  obtain ⟨db, hdb, ⟨⟩⟩ := Option.map_eq_some_iff.mp hfu
  exact ⟨hf t db hdb, fun _ _ => trivial⟩

omit [Runtime] in
/-- **What is confined to an active machine** spares the others. -/
theorem sparing_of_confined {Q : α → Store → Prop} {p : Task Store α}
    (hp : Reports.Confined id Q p s)
    (hactive : ∃ m, s.db.machines.find id = some m ∧ m.status = .active) : Sparing Q p s := by
  refine hp.weaken (J := fun t => ∃ m, t.db.machines.find id = some m ∧ m.status = .active)
    ?_ ?_ ?_ ?_ hactive
  · rintro a b rfl
    exact .refl a
  · rintro a b hJ rfl
    exact hJ
  · rintro a b ⟨m, hm, hstatus⟩ h
    obtain ⟨m', hm', hstatus'⟩ := h.status m hm
    exact ⟨m', hm', hstatus'.trans hstatus⟩
  · rintro a b ⟨m, hm, hstatus⟩ h
    refine spares_of_writes h fun m' hm' hne => ?_
    rw [hm] at hm'
    cases hm'
    exact absurd hstatus hne

end Rules

/-! ## Operations that collect nothing -/

omit [Runtime] in
theorem spares_updateMachine {f : Machine → Machine} {hf : ∀ m, (f m).id = m.id} {db : Database}
    (h : s.db.updateMachine id f hf = some db) (hkey : ∀ m, (f m).apiKey = m.apiKey)
    (hstatus : ∀ m, (f m).status = m.status) : Spares s { s with db } := by
  refine spares_of_writes (Reports.writes_updateMachine h hkey hstatus) fun _ _ _ => ?_
  obtain ⟨-, rfl⟩ := Database.forMachine_eq_some.mp h
  rfl

omit [Runtime] in
theorem spares_createConnectionEvent {row : ConnectionEvent} {db : Database}
    (h : s.db.createConnectionEvent id row = some db) : Spares s { s with db } := by
  obtain ⟨-, rfl⟩ := Database.forMachine_eq_some.mp h
  exact fun _ m hm => ⟨m, hm, rfl, fun _ => rfl⟩

omit [Runtime] in
theorem spares_createLogs {rows : List MachineLog} {db : Database}
    (h : s.db.createLogs id rows = some db) : Spares s { s with db } := by
  obtain ⟨-, rfl⟩ := Database.forMachine_eq_some.mp h
  exact fun _ m hm => ⟨m, hm, rfl, fun _ => rfl⟩

omit [Runtime] in
theorem spares_createMachine {row : Machine} {db : Database}
    (h : s.db.createMachine row = some db) : Spares s { s with db } := by
  unfold Database.createMachine at h
  split at h
  · cases h
  · obtain ⟨machines, hcreate, rfl⟩ := Option.map_eq_some_iff.mp h
    intro id m hm
    have hne : id ≠ row.id := by
      rintro rfl
      rw [(Table.create_eq_some.mp hcreate).1] at hm
      cases hm
    refine ⟨m, ?_, rfl, fun _ => rfl⟩
    show machines.find id = some m
    rw [Table.find_create hcreate, if_neg hne]
    exact hm

/-! ## The socket handlers -/

omit [Runtime] in
theorem sparing_touch : Sparing (fun _ _ => True) (touch id) s :=
  sparing_write fun _ _ h => spares_updateMachine h (fun _ => rfl) fun _ => rfl

omit [Runtime] in
theorem sparing_broadcast {target : Target} :
    Sparing (fun _ _ => True) (broadcastMachineList target) s :=
  sparing_handle (sparing_bind sparing_read fun _ _ _ => sparing_emit) fun _ => sparing_done

omit [Runtime] in
/-- A status that has been read is a machine's. -/
theorem active_of_status
    (h : (some MachineStatus.active) = (s.db.machines.find id).map (·.status)) :
    ∃ m, s.db.machines.find id = some m ∧ m.status = .active := by
  obtain ⟨m, hm, hstatus⟩ := Option.map_eq_some_iff.mp h.symm
  exact ⟨m, hm, hstatus⟩

omit [Runtime] in
/-- The frame of the handlers for active machines. -/
theorem sparing_whenActive {data : Value} {field : String}
    {store : String → Value → Task Store Unit}
    (hstore : ∀ id payload t, Reports.Confined id (fun _ _ => True) (store id payload) t) :
    Sparing (fun _ _ => True) (whenActive data field store) s := by
  refine sparing_handle (sparing_bind sparing_get fun machineId t _ => sparing_bind sparing_get
    fun payload u _ => ?_) fun _ => sparing_done
  split
  · refine sparing_bind sparing_get fun id v _ => sparing_bind sparing_read ?_
    rintro status x ⟨hstatus, rfl⟩
    split
    · exact sparing_of_confined (hstore id payload _) (active_of_status hstatus)
    · exact sparing_done
  · exact sparing_done

theorem sparing_machineHeartbeat {data : Value} :
    Sparing (fun _ _ => True) (machineHeartbeat data) s := by
  refine sparing_handle (sparing_bind sparing_get fun machineId t _ => sparing_bind sparing_get
    fun state u _ => ?_) fun _ => sparing_done
  split
  · refine sparing_bind sparing_get fun id v _ => sparing_bind sparing_read ?_
    rintro status x ⟨hstatus, rfl⟩
    split
    · exact sparing_of_confined Reports.confined_storeHeartbeat (active_of_status hstatus)
    -- a pending machine is only marked as seen
    · exact sparing_touch
    · exact sparing_done
  · exact sparing_done

omit [Runtime] in
theorem sparing_announce {socket : String} {machineId : Value} {found : Machine} :
    Sparing (fun _ _ => True) (announce socket machineId found) s := by
  refine sparing_bind sparing_get fun id t _ => sparing_bind sparing_look fun address u _ => ?_
  refine sparing_bind (sparing_write fun _ _ h =>
    spares_updateMachine h (fun _ => rfl) fun _ => rfl) fun _ v _ => ?_
  refine sparing_bind (sparing_write fun _ _ h => spares_createConnectionEvent h) fun _ x _ => ?_
  split
  · exact sparing_bind sparing_emit fun _ _ _ => sparing_emit
  · exact sparing_bind sparing_emit fun _ _ _ => sparing_bind sparing_broadcast fun _ _ _ =>
      sparing_emit

theorem sparing_machineConnect {socket : String} {data : Value} :
    Sparing (fun _ _ => True) (machineConnect socket data) s := by
  refine sparing_handle (sparing_bind sparing_get fun machineId t _ => sparing_bind sparing_get
    fun apiKey u _ => ?_) fun _ => sparing_emit
  split
  · exact sparing_emit
  · refine sparing_bind (Q := fun _ _ => True) ?_ fun found v _ => ?_
    · exact sparing_bind sparing_get fun _ _ _ => sparing_bind sparing_get fun _ _ _ =>
        sparing_weaken sparing_read
    · split
      · exact sparing_bind (sparing_effect fun _ => rfl) fun _ _ _ => sparing_announce
      · exact sparing_emit

omit [Runtime] in
theorem sparing_disconnect {socket : String} :
    Sparing (fun _ _ => True) (disconnect socket) s := by
  refine sparing_bind (sparing_effect fun _ => rfl) fun _ t _ =>
    sparing_bind sparing_look fun machineId u _ => ?_
  split
  · refine sparing_handle (sparing_bind sparing_get fun id v _ => ?_) fun _ => sparing_done
    exact sparing_bind (sparing_write fun _ _ h => spares_createConnectionEvent h) fun _ _ _ =>
      sparing_bind sparing_emit fun _ _ _ => sparing_broadcast
  · exact sparing_done

/-- A socket makes no handler collect from a machine that is not active. -/
theorem sparing_message (socket : String) (message : Message) :
    Sparing (fun _ _ => True) (onMessage socket message) s := by
  cases message with
  | webSubscribe => exact sparing_handle sparing_broadcast fun _ => sparing_done
  | webWatch machineId =>
    show Sparing _ (webWatch socket machineId) s
    unfold webWatch
    split
    · exact sparing_done
    · exact sparing_effect fun _ => rfl
  | webUnwatch machineId =>
    show Sparing _ (webUnwatch socket machineId) s
    unfold webUnwatch
    split
    · exact sparing_done
    · exact sparing_effect fun _ => rfl
  | machineConnect data => exact sparing_machineConnect
  | machineHeartbeat data => exact sparing_machineHeartbeat
  | machineActivity data => exact sparing_whenActive fun _ _ _ => Reports.confined_storeActivity
  | machineAudit data => exact sparing_whenActive fun _ _ _ => Reports.confined_storeAudit
  | machineScreenshot data =>
    exact sparing_whenActive fun _ _ _ => Reports.confined_storeScreenshot
  | disconnect => exact sparing_disconnect

/-! ## The routes that collect nothing -/

theorem sparing_postRegister {body : Value} {key : String} :
    Sparing (fun _ _ => True) (postRegister body key) s := by
  refine sparing_handle (sparing_bind sparing_get fun machineId _ _ => sparing_bind sparing_get
    fun name _ _ => sparing_bind sparing_get fun hostname _ _ => ?_) fun _ => sparing_done
  split
  · exact sparing_done
  · refine sparing_bind (Q := fun _ _ => True) ?_ fun r _ _ => ?_
    · refine sparing_bind sparing_get fun id _ _ => sparing_bind sparing_read fun byId _ _ => ?_
      split
      · exact sparing_done
      · refine sparing_bind (Q := fun _ _ => True) ?_ fun byName _ _ => ?_
        · unfold findByName
          split
          · exact sparing_bind sparing_get fun _ _ _ => sparing_weaken sparing_read
          · exact sparing_done
        · split
          · exact sparing_done
          · refine sparing_bind (sparing_write fun _ _ h => ?_) fun _ _ _ => sparing_done
            obtain ⟨_, -, h⟩ := Option.bind_eq_some_iff.mp h
            obtain ⟨_, -, h⟩ := Option.bind_eq_some_iff.mp h
            exact spares_createMachine h
    · split
      split
      · exact sparing_bind sparing_emit fun _ _ _ => sparing_done
      · exact sparing_done

omit [Runtime] in
theorem sparing_putMachine {id : String} {body : Value} :
    Sparing (fun _ _ => True) (putMachine id body) s := by
  refine sparing_handle (sparing_bind sparing_get fun name _ _ => sparing_bind sparing_get
    fun hostname _ _ => ?_) fun _ => sparing_done
  refine sparing_bind (sparing_write fun t db h => ?_) fun _ _ _ => sparing_done
  obtain ⟨update, -, h⟩ := Option.bind_eq_some_iff.mp h
  exact spares_updateMachine h (fun _ => rfl) fun _ => rfl

omit [Runtime] in
theorem sparing_getSchedule {machine : Machine} :
    Sparing (fun _ _ => True) (getSchedule machine) s := by
  refine sparing_handle (sparing_bind sparing_read fun settings t _ => ?_) fun _ => sparing_done
  split <;> exact sparing_done

theorem sparing_postLogs {machine : Machine} {body : Value} :
    Sparing (fun _ _ => True) (postLogs machine body) s := by
  refine sparing_handle ?_ fun _ => sparing_done
  split
  · exact sparing_done
  · refine sparing_bind (sparing_write fun _ _ h => ?_) fun _ _ _ => sparing_done
    obtain ⟨_, -, h⟩ := Option.bind_eq_some_iff.mp h
    exact spares_createLogs h
  · exact sparing_done

omit [Runtime] in
theorem sparing_authenticated {apiKey : Option String}
    {route : Machine → Task Store (Response Json)}
    (hroute : ∀ m t, Sparing (fun _ _ => True) (route m) t) :
    Sparing (fun _ _ => True) (authenticateMachine apiKey route) s := by
  unfold authenticateMachine
  split
  · exact sparing_done
  · refine sparing_bind (Q := fun _ _ => True) ?_ fun found t _ => ?_
    · exact sparing_handle (sparing_bind sparing_read fun _ _ _ => sparing_done)
        fun _ => sparing_done
    · split
      · exact sparing_done
      · exact sparing_done
      · exact hroute _ t

/-! ## The two routes that ask for no status -/

omit [Runtime] in
/-- A guarded route runs for the machine whose key the request carries. -/
theorem exec_authenticateMachine (apiKey : Option String)
    (route : Machine → Task Store (Response Json)) (s : Store) :
    ((authenticateMachine apiKey route).exec s).1 = match authenticated s apiKey with
      | some m => ((route m).exec s).1
      | none => s := by
  unfold authenticateMachine authenticated
  cases apiKey.filter (· ≠ "") with
  | none => rfl
  | some key =>
    have hread : (Task.handle (some <$> read fun db => db.machines.rows.find? fun m =>
        m.apiKey = key) (pure none) : Task Store (Option (Option Machine))).exec s =
          (s, some (some (s.db.machines.rows.find? fun m => m.apiKey = key))) := rfl
    simp only [Option.bind_some]
    rw [Task.exec_bind_of hread]
    cases s.db.machines.rows.find? fun m => m.apiKey = key with
    | none => rfl
    | some m => rfl

omit [Runtime] in
theorem find_of_authenticated {apiKey : Option String} {m : Machine}
    (h : authenticated s apiKey = some m) : s.db.machines.find m.id = some m := by
  obtain ⟨key, -, hfound⟩ := Option.bind_eq_some_iff.mp h
  exact Table.find_eq_some.mpr ⟨List.mem_of_find?_eq_some hfound, rfl⟩

omit [Runtime] in
theorem machineId_applied (settings : Value) (now : DateTime) (r : MachineState) :
    { r with appliedSettings := textOrJson settings, updatedAt := now }.machineId = r.machineId :=
  rfl

/-- What a report of applied settings leaves. -/
def reportApplied (db : Database) (id : String) (settings : Value) (now : DateTime) : Database :=
  { db with
    machineStates := db.machineStates.update id
      (fun r => { r with appliedSettings := textOrJson settings, updatedAt := now })
      (machineId_applied settings now) }

omit [Runtime] in
theorem find_reportApplied (db : Database) (id other : String) (settings : Value)
    (now : DateTime) : (reportApplied db id settings now).machineStates.find other =
      if other = id then (db.machineStates.find id).map fun r => { r with
        appliedSettings := textOrJson settings, updatedAt := now }
      else db.machineStates.find other := by
  simp only [reportApplied, Table.find_update]

omit [Runtime] in
/-- The route writes only for a machine that has a state row. -/
theorem exec_postApplied (m : Machine) (body : Value) (s : Store) :
    (((postApplied m body).exec s).1 = s ∧ ¬ ChangesApplied s.db m.id body) ∨
      ∃ settings r, prop body "settings" = some settings ∧ truthy settings ∧
        s.db.machineStates.find m.id = some r ∧
        ((postApplied m body).exec s).1 =
          { s with db := reportApplied s.db m.id settings s.now } := by
  unfold postApplied
  simp only [Tasks.Task.pure_eq, Task.exec_handle_done]
  cases hprop : prop body "settings" with
  | none =>
    left
    refine ⟨rfl, ?_⟩
    rintro ⟨settings, r, hsettings, -⟩
    rw [hprop] at hsettings
    cases hsettings
  | some settings =>
    simp only [Tasks.Task.get_some, Tasks.Task.done_bind]
    cases htruthy : truthy settings with
    | false =>
      left
      refine ⟨rfl, ?_⟩
      rintro ⟨settings', r, hsettings, htruthy', -⟩
      rw [hprop] at hsettings
      cases hsettings
      rw [htruthy] at htruthy'
      cases htruthy'
    | true =>
      rw [if_pos rfl]
      cases hfind : s.db.machineStates.find m.id with
      | none =>
        left
        refine ⟨?_, ?_⟩
        · have hwrite : s.db.updateState m.id (fun r => { r with
              appliedSettings := textOrJson settings, updatedAt := s.now }) (fun _ => rfl) =
                none := by
            rw [Database.updateState, hfind]
            rfl
          rw [Task.exec_bind, write, Task.exec_op, hwrite]
          rfl
        · rintro ⟨settings', r, -, -, hr, -⟩
          rw [hfind] at hr
          cases hr
      | some r =>
        right
        refine ⟨settings, r, rfl, htruthy, rfl, ?_⟩
        have hwrite : s.db.updateState m.id (fun r => { r with
            appliedSettings := textOrJson settings, updatedAt := s.now }) (fun _ => rfl) =
              some (reportApplied s.db m.id settings s.now) := by
          rw [Database.updateState, hfind]
          rfl
        rw [Task.exec_bind_of (exec_write_some hwrite)]
        rfl

omit [Runtime] in
theorem exec_sparing {α : Type} {Q : α → Store → Prop} {p : Task Store α} (h : Sparing Q p s) :
    Spares s (p.exec s).1 :=
  (h.exec (fun _ => rfl) Spares.refl fun _ _ _ => Spares.trans).1

omit [Runtime] in
/-- `POST /configuration/applied` collects exactly what changes the applied settings. -/
theorem nothingCollected_postApplied {m : Machine} {body : Value}
    (hm : s.db.machines.find m.id = some m) :
    NothingCollected s ((postApplied m body).exec s).1 ↔
      ¬ (m.status ≠ .active ∧ ChangesApplied s.db m.id body) := by
  by_cases hactive : m.status = .active
  · have hspares := exec_sparing (sparing_of_confined
      (Reports.confined_postApplied m body) ⟨m, hm, hactive⟩)
    exact ⟨fun _ h => h.1 hactive, fun _ => hspares.nothingCollected⟩
  · rcases exec_postApplied m body s with ⟨hexec, hnot⟩ | ⟨settings, r, hprop, htruthy, hr, hexec⟩
    · rw [hexec]
      exact ⟨fun _ h => hnot h.2, fun _ => (Spares.refl s).nothingCollected⟩
    · -- what is collected changes in one column
      rw [hexec]
      have hreported : (collectedOf (reportApplied s.db m.id settings s.now) m.id).reported =
          some { reported r with appliedSettings := textOrJson settings } := by
        show ((reportApplied s.db m.id settings s.now).machineStates.find m.id).map reported = _
        rw [find_reportApplied, if_pos rfl, hr]
        rfl
      have hbefore : (collectedOf s.db m.id).reported = some (reported r) := by
        show ((s.db.machineStates.find m.id).map reported) = _
        rw [hr]
        rfl
      constructor
      · rintro hnothing ⟨-, settings', r', hprop', -, hr', hne⟩
        rw [hprop] at hprop'
        rw [hr] at hr'
        cases hprop'
        cases hr'
        have hsame := congrArg Collected.reported (hnothing m.id m hm hactive)
        rw [hreported, hbefore] at hsame
        exact hne (congrArg Reported.appliedSettings (Option.some.inj hsame))
      · intro hnot
        have hsame : textOrJson settings = r.appliedSettings := by
          by_contra hne
          exact hnot ⟨hactive, settings, r, hprop, htruthy, hr, hne⟩
        intro id m' hm' _
        by_cases hid : id = m.id
        · subst hid
          refine Collected.ext rfl rfl rfl rfl ?_
          rw [hreported, hbefore, hsame]
          rfl
        · have hstate : (reportApplied s.db m.id settings s.now).machineStates.find id =
              s.db.machineStates.find id := by
            rw [find_reportApplied, if_neg hid]
          exact Collected.ext rfl rfl rfl rfl (congrArg (Option.map reported) hstate)

/-- A task that writes only sessions leaves the history alone. -/
theorem history_of_sessions {h : Heartbeat} {timeSeconds : Int} {recent : Option ActivitySession}
    (s : Store) : ((updateSessions id h timeSeconds recent).exec s).1.db.activityHistory =
      s.db.activityHistory := by
  have hexec : ∀ f : Database → DateTime → Option Database,
      (∀ db now db', f db now = some db' → db'.activityHistory = db.activityHistory) →
        ((write f).exec s).1.db.activityHistory = s.db.activityHistory := by
    intro f hf
    cases hdb : f s.db s.now with
    | none => rw [write, Task.exec_op, hdb]; rfl
    | some db => rw [exec_write_some hdb]; exact hf _ _ _ hdb
  unfold updateSessions
  split
  · refine hexec _ fun db now db' h => ?_
    unfold extendTo Database.updateSession at h
    split at h
    · cases h
      rfl
    · cases h
  · refine hexec _ fun db now db' h => ?_
    obtain ⟨row, -, h⟩ := Option.bind_eq_some_iff.mp h
    obtain ⟨-, rfl⟩ := Database.forMachine_eq_some.mp h
    rfl

/-- The rest of `POST /activity` after its history row. -/
def afterHistory (id : String) (h : Heartbeat) (time : Value) : Task Store (Response Json) := do
  let recent ← read (recentSession id)
  let timeSeconds ← .get (requiredInt time)
  updateSessions id h timeSeconds recent
  pure (ok [])

theorem history_afterHistory {h : Heartbeat} {time : Value} (s : Store) :
    ((afterHistory id h time).exec s).1.db.activityHistory = s.db.activityHistory := by
  unfold afterHistory
  rw [Task.exec_bind_of (exec_read _ s)]
  cases requiredInt time with
  | none => rfl
  | some timeSeconds =>
    simp only [Tasks.Task.get_some, Tasks.Task.done_bind]
    rw [Task.exec_bind]
    split
    · exact history_of_sessions s
    · exact history_of_sessions s

/-- `POST /activity` stores a history row for every body that makes one. -/
theorem exec_postActivity {m : Machine} (body : Value) {s : Store}
    (hm : s.db.machines.find m.id = some m) :
    (((postActivity m body).exec s).1 = s ∧ historyRowOf m.id body s.now = none) ∨
      ((historyRowOf m.id body s.now).isSome ∧
        (collectedOf ((postActivity m body).exec s).1.db m.id).activityHistory.length =
          (collectedOf s.db m.id).activityHistory.length + 1) := by
  unfold postActivity historyRowOf
  simp only [Tasks.Task.pure_eq, Task.exec_handle_done]
  cases readHeartbeat body with
  | none => exact .inl ⟨rfl, rfl⟩
  | some h =>
    simp only [Tasks.Task.get_some, Tasks.Task.done_bind]
    rw [Task.exec_bind_of (Tasks.Task.exec_look (fun s => s.now) s)]
    cases htime : heartbeatTime h.timestamp s.now with
    | none =>
      left
      simp only [Option.bind_eq_bind, Option.bind_some, htime]
      exact ⟨rfl, rfl⟩
    | some time =>
      simp only [Tasks.Task.get_some, Tasks.Task.done_bind, Option.bind_eq_bind, Option.bind_some,
        htime]
      cases hrow : h.historyRow m.id time.1 with
      | none =>
        left
        refine ⟨?_, rfl⟩
        have hwrite : createHeartbeat m.id h time.1 s.db s.now = none := by
          rw [createHeartbeat, hrow]
          rfl
        rw [Task.exec_bind, write, Task.exec_op, hwrite]
        rfl
      | some row =>
        right
        refine ⟨rfl, ?_⟩
        obtain ⟨db, hwrite, hrows⟩ : ∃ db, createHeartbeat m.id h time.1 s.db s.now = some db ∧
            db.activityHistory.rows = s.db.activityHistory.rows ++
              [{ row with id := s.db.activityHistory.next, machineId := m.id }] := by
          rw [createHeartbeat, hrow]
          refine ⟨_, Database.forMachine_eq_some.mpr ⟨?_, rfl⟩, rfl⟩
          rw [hm]
          rfl
        rw [Task.exec_bind_of (exec_write_some hwrite)]
        show (((afterHistory m.id h time.2).exec { s with db }).1.db.activityHistory.rows.filter
          (·.machineId = m.id)).length = (s.db.activityHistory.rows.filter _).length + 1
        rw [history_afterHistory, hrows, List.filter_append, List.length_append]
        simp

/-- `POST /activity` collects exactly what makes a history row. -/
theorem nothingCollected_postActivity {m : Machine} {body : Value}
    (hm : s.db.machines.find m.id = some m) :
    NothingCollected s ((postActivity m body).exec s).1 ↔
      ¬ (m.status ≠ .active ∧ (historyRowOf m.id body s.now).isSome) := by
  by_cases hactive : m.status = .active
  · have hspares := exec_sparing (sparing_of_confined
      (Reports.confined_postActivity m body) ⟨m, hm, hactive⟩)
    exact ⟨fun _ h => h.1 hactive, fun _ => hspares.nothingCollected⟩
  · rcases exec_postActivity body hm with ⟨hexec, hnone⟩ | ⟨hsome, hlength⟩
    · rw [hexec, hnone]
      exact ⟨fun _ h => absurd h.2 (by simp), fun _ => (Spares.refl s).nothingCollected⟩
    · constructor
      · intro hnothing
        rw [hnothing m.id m hm hactive] at hlength
        omega
      · intro hnot
        exact absurd ⟨hactive, hsome⟩ hnot

omit [Runtime] in
/-- A guarded route collects what it collects for the machine whose key the request carries. -/
theorem nothingCollected_authenticated {apiKey : Option String}
    {route : Machine → Task Store (Response Json)} {P : Machine → Prop}
    (hroute : ∀ m, s.db.machines.find m.id = some m →
      (NothingCollected s ((route m).exec s).1 ↔ ¬ P m)) :
    NothingCollected s ((authenticateMachine apiKey route).exec s).1 ↔
      ¬ ∃ m, authenticated s apiKey = some m ∧ P m := by
  rw [exec_authenticateMachine]
  cases hauth : authenticated s apiKey with
  | none =>
    refine ⟨fun _ => ?_, fun _ => (Spares.refl s).nothingCollected⟩
    rintro ⟨m, hm, -⟩
    cases hm
  | some m =>
    rw [hroute m (find_of_authenticated hauth)]
    constructor
    · rintro hnot ⟨m', hm', hP⟩
      cases hm'
      exact hnot hP
    · intro hnot hP
      exact hnot ⟨m, rfl, hP⟩

/-! ## Every entry point -/

/-- **No collection outside `active`**: for every state of the server and every message or request,
    its handler collects nothing from a machine that is not active, except for the two requests of
    `Collects`. -/
theorem nothingCollected_iff (s : Store) (w : Origin) :
    NothingCollected s ((handler w).exec s).1 ↔ ¬ Collects s w := by
  have hspared : Sparing (fun _ _ => True) (handler w) s → ¬ Collects s w →
      (NothingCollected s ((handler w).exec s).1 ↔ ¬ Collects s w) := fun h hnot =>
    ⟨fun _ => hnot, fun _ => (exec_sparing h).nothingCollected⟩
  have hanswer : ∀ p : Task Store (Response Json),
      ((do let _ ← p; pure () : Task Store Unit).exec s).1 = (p.exec s).1 := by
    intro p
    rw [Task.exec_bind]
    split
    · rfl
    · rfl
  have hrequest : ∀ {p : Task Store (Response Json)}, Sparing (fun _ _ => True) p s →
      Sparing (fun _ _ => True) (do let _ ← p; pure ()) s :=
    fun h => sparing_bind h fun _ _ _ => sparing_done
  cases w with
  | socket id message => exact hspared (sparing_message id message) fun h => h
  | request r =>
    cases r with
    | register body key => exact hspared (hrequest sparing_postRegister) fun h => h
    | put apiKey id body =>
      exact hspared (hrequest (sparing_authenticated fun _ _ => sparing_putMachine)) fun h => h
    | schedule apiKey =>
      exact hspared (hrequest (sparing_authenticated fun _ _ => sparing_getSchedule)) fun h => h
    | logs apiKey body =>
      exact hspared (hrequest (sparing_authenticated fun _ _ => sparing_postLogs)) fun h => h
    | upload apiKey =>
      exact hspared (hrequest (sparing_authenticated fun _ _ => sparing_done)) fun h => h
    | applied apiKey body =>
      show NothingCollected s ((do let _ ← onRequest (.applied apiKey body); pure () :
        Task Store Unit).exec s).1 ↔ _
      rw [hanswer]
      exact nothingCollected_authenticated fun m hm => nothingCollected_postApplied hm
    | activity apiKey body =>
      show NothingCollected s ((do let _ ← onRequest (.activity apiKey body); pure () :
        Task Store Unit).exec s).1 ↔ _
      rw [hanswer]
      exact nothingCollected_authenticated fun m hm => nothingCollected_postActivity hm

end Collection

/-! ## An archived machine -/

def archived : Store where
  db := { Database.empty with machines :=
    ⟨[{ id := "PC-1", name := "Reception", registrationDate := 0, status := .archived,
        apiKey := "4f1c", createdAt := 0 }], by decide⟩ }
  now := 1709294400000
  sockets := .empty

/-- Its activity is recorded all the same. -/
theorem not_nothingCollected_archived :
    ¬ NothingCollected archived ((@handler numericRuntime (.request (.activity (some "4f1c")
      (some (.obj [("timestamp", .num 1709294400), ("processName", .str "chrome")]))))).exec
        archived).1 := by
  intro h
  have hsame := h "PC-1" _ rfl (by decide)
  exact absurd (congrArg (fun c => c.activityHistory.length) hsame) (by decide)

end Server.Collection
