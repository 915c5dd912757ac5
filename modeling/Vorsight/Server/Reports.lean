/-
  WHAT THE HANDLERS WRITE FOR THE MACHINE THEY SERVE.

  Behind its check, each handler works for one machine.  `Writes id` says what one of its steps may
  do: nothing that is stored about another machine changes, no machine changes its status, and no
  connect is recorded.  `Confined id` says it of every step of a task, while the others do whatever
  the database's changes preserve.

  Who may send a report, and when one is taken at all, is not asked here: `Confined` is what remains
  of a handler when its checks are passed, and the results about checks build on it.
-/
import Vorsight.Server.MachineRoutes

namespace Server.Reports

open Js Tables Tasks

variable [Runtime]

/-- The others make changes of the database. -/
def Drifts (s s' : Store) : Prop := s.db.Evolves s'.db

/-- A step for machine `id`. -/
structure Writes (id : String) (s s' : Store) : Prop where
  touches : s.db.Touches id s'.db
  status : ∀ m, s.db.machines.find id = some m →
    ∃ m', s'.db.machines.find id = some m' ∧ m'.status = m.status
  connects : s'.connects = s.connects

/-- Every step of the task is one for machine `id`; it may throw at any point. -/
abbrev Confined {α : Type} (id : String) (Q : α → Store → Prop) (p : Task Store α) (s : Store) :
    Prop :=
  p.Guar Drifts (Writes id) Q (fun _ => True) s

variable {id : String} {s s' : Store}

omit [Runtime] in
theorem Drifts.refl (s : Store) : Drifts s s := Database.Evolves.refl _

omit [Runtime] in
theorem Drifts.trans {a b c : Store} (hab : Drifts a b) (hbc : Drifts b c) : Drifts a c :=
  Database.Evolves.trans hab hbc

omit [Runtime] in
theorem Writes.drifts (h : Writes id s s') : Drifts s s' := h.touches.toEvolves

omit [Runtime] in
/-- A step that leaves the database alone. -/
theorem writes_of_db (hdb : s'.db = s.db) (hconnects : s'.connects = s.connects) :
    Writes id s s' := by
  refine ⟨⟨hdb ▸ .refl _, fun _ _ => by rw [hdb]⟩, fun m hm => ⟨m, ?_, rfl⟩, hconnects⟩
  rw [hdb]
  exact hm

omit [Runtime] in
theorem Writes.refl (s : Store) : Writes id s s := writes_of_db rfl rfl

omit [Runtime] in
/-- An operation for machine `id` that is not about its own row. -/
theorem writes_of_touches {db : Database} (h : s.db.Touches id db)
    (hmachines : db.machines = s.db.machines) : Writes id s { s with db } := by
  refine ⟨h, fun m hm => ⟨m, ?_, rfl⟩, rfl⟩
  show db.machines.find id = some m
  rw [hmachines]
  exact hm

/-! ## Rules -/

section Rules

variable {α β : Type}

omit [Runtime] in
theorem confined_done {a : α} : Confined id (fun _ _ => True) (Tasks.Task.done a) s :=
  fun _ _ => trivial

omit [Runtime] in
theorem confined_bind {Q : α → Store → Prop} {p : Task Store α} {k : α → Task Store β}
    {Q' : β → Store → Prop} (hp : Confined id Q p s) (hk : ∀ a t, Q a t → Confined id Q' (k a) t) :
    Confined id Q' (p >>= k) s :=
  Task.Guar.bind Drifts.refl hk hp

omit [Runtime] in
theorem confined_handle {Q : α → Store → Prop} {p c : Task Store α} (hp : Confined id Q p s)
    (hc : ∀ t, Confined id Q c t) : Confined id Q (p.handle c) s :=
  Task.Guar.handle Drifts.refl (fun t _ => hc t) hp

omit [Runtime] in
theorem confined_weaken {Q : α → Store → Prop} {p : Task Store α} (hp : Confined id Q p s) :
    Confined id (fun _ _ => True) p s :=
  hp.mono (fun _ _ _ => trivial) fun _ h => h

omit [Runtime] in
theorem confined_get {o : Option α} :
    Confined id (fun a u => o = some a ∧ Drifts s u) (Tasks.Task.get o) s :=
  Task.Guar.get (fun _ _ ho hs => ⟨ho, hs⟩) fun _ => trivial

omit [Runtime] in
theorem confined_look {f : Store → α} : Confined id (fun _ u => Drifts s u) (Tasks.Task.look f) s :=
  Task.Guar.look Writes.refl fun _ _ hst htu => hst.trans htu

omit [Runtime] in
theorem confined_read {f : Database → α} :
    Confined id (fun a u => ∃ t, Drifts s t ∧ Drifts t u ∧ a = f t.db) (read f) s :=
  Task.Guar.query Writes.refl (fun t _ hst htu => ⟨t, hst, htu, rfl⟩) fun _ => trivial

omit [Runtime] in
theorem confined_emit {target : Target} {event : DateTime → Event} :
    Confined id (fun _ u => Drifts s u) (emit target event) s := by
  refine Task.Guar.effect (fun t _ => writes_of_db rfl rfl) fun t u hst htu => ?_
  exact hst.trans htu

omit [Runtime] in
/-- A write for the machine. -/
theorem confined_write {f : Database → DateTime → Option Database}
    (hf : ∀ t db, Drifts s t → f t.db t.now = some db → Writes id t { t with db }) :
    Confined id (fun _ u => Drifts s u) (write f) s := by
  refine Task.Guar.op Writes.refl (fun t _ _ hst hfu => ?_) fun _ => trivial
  obtain ⟨db, hdb, ⟨⟩⟩ := Option.map_eq_some_iff.mp hfu
  have hwrites : Writes id t { t with db } := hf t db hst hdb
  exact ⟨hwrites, fun u hu => hst.trans (hwrites.drifts.trans hu)⟩

end Rules

/-! ## Database operations -/

omit [Runtime] in
theorem writes_updateMachine {f : Machine → Machine} {hf : ∀ m, (f m).id = m.id} {db : Database}
    (h : s.db.updateMachine id f hf = some db) (hkey : ∀ m, (f m).apiKey = m.apiKey)
    (hstatus : ∀ m, (f m).status = m.status) : Writes id s { s with db } := by
  refine ⟨Database.touches_updateMachine h hkey, fun m hm => ⟨f m, ?_, hstatus m⟩, rfl⟩
  obtain ⟨-, rfl⟩ := Database.forMachine_eq_some.mp h
  show (s.db.machines.update id f hf).find id = some (f m)
  rw [Table.find_update, if_pos rfl, hm, Option.map_some]

omit [Runtime] in
/-- The row of a machine is written only by `machine.update` and `machine.create`. -/
theorem machines_of_forMachine {db db' d : Database} (h : db.forMachine id d = some db')
    (hd : d.machines = db.machines) : db'.machines = db.machines := by
  obtain ⟨-, rfl⟩ := Database.forMachine_eq_some.mp h
  exact hd

omit [Runtime] in
theorem writes_updateState {f : MachineState → MachineState}
    {hf : ∀ r, (f r).machineId = r.machineId} {db : Database}
    (h : s.db.updateState id f hf = some db) : Writes id s { s with db } := by
  refine writes_of_touches (Database.touches_updateState h) ?_
  unfold Database.updateState at h
  split at h
  · cases h
    rfl
  · cases h

omit [Runtime] in
theorem writes_upsertState {create : MachineState} {update : MachineState → MachineState}
    {hf : ∀ r, (update r).machineId = r.machineId} {db : Database}
    (h : s.db.upsertState id create update hf = some db) : Writes id s { s with db } := by
  unfold Database.upsertState at h
  split at h
  · exact writes_updateState h
  · rename_i hfind
    have hupsert : s.db.upsertState id create update hf = some db := by
      rw [Database.upsertState, hfind]
      exact h
    obtain ⟨states, -, h⟩ := Option.bind_eq_some_iff.mp h
    exact writes_of_touches (Database.touches_upsertState hupsert) (machines_of_forMachine h rfl)

omit [Runtime] in
theorem writes_updateSession {session : Nat} {f : ActivitySession → ActivitySession}
    {hf : ∀ r, (f r).id = r.id} {db : Database} (h : s.db.updateSession session f hf = some db)
    (howns : s.db.Owns id session) (hkeep : ∀ r, (f r).machineId = r.machineId) :
    Writes id s { s with db } := by
  refine writes_of_touches (Database.touches_updateSession h howns hkeep) ?_
  unfold Database.updateSession at h
  split at h
  · cases h
    rfl
  · cases h

/-! ## The parts of the socket handlers behind their checks -/

omit [Runtime] in
/-- The most recent session is one of the machine's own. -/
theorem mem_of_recentSession {db : Database} {r : ActivitySession}
    (h : recentSession id db = some r) : r ∈ db.activitySessions.rows ∧ r.machineId = id := by
  have hmem := List.mem_of_mem_head? h
  rw [List.mem_insertionSort, List.mem_filter] at hmem
  exact ⟨hmem.1, by simpa using hmem.2⟩

omit [Runtime] in
/-- No session of the machine ends after the most recent one. -/
theorem endTime_le_of_recentSession {db : Database} {r r' : ActivitySession}
    (h : recentSession id db = some r) (hr' : r' ∈ db.activitySessions.rows)
    (hmachine : r'.machineId = id) : r'.endTime ≤ r.endTime := by
  obtain ⟨rest, hsorted⟩ := List.head?_eq_some_iff.mp h
  have hmem : r' ∈ (db.activitySessions.rows.filter (·.machineId = id)).insertionSort
      fun a b => b.endTime ≤ a.endTime := by
    rw [List.mem_insertionSort, List.mem_filter]
    exact ⟨hr', by simpa using hmachine⟩
  have : Std.Total fun a b : ActivitySession => b.endTime ≤ a.endTime :=
    ⟨fun a b => by omega⟩
  have : IsTrans ActivitySession fun a b => b.endTime ≤ a.endTime := ⟨fun a b c => by omega⟩
  have hpairwise := List.pairwise_insertionSort
    (fun a b : ActivitySession => b.endTime ≤ a.endTime)
    (db.activitySessions.rows.filter (·.machineId = id))
  rw [hsorted] at hmem hpairwise
  rcases List.mem_cons.mp hmem with rfl | hmem
  · exact Int.le_refl _
  · exact (List.pairwise_cons.mp hpairwise).1 r' hmem

omit [Runtime] in
theorem recentSession_owns {db : Database} {r : ActivitySession}
    (h : recentSession id db = some r) : db.Owns id r.id := by
  obtain ⟨hmem, hmachine⟩ := mem_of_recentSession h
  exact hmachine ▸ Database.owns_of_mem hmem

omit [Runtime] in
theorem confined_touch : Confined id (fun _ u => Drifts s u) (touch id) s :=
  confined_write fun _ _ _ h => writes_updateMachine h (fun _ => rfl) fun _ => rfl

theorem confined_storeHeartbeat {state : Value} :
    Confined id (fun _ _ => True) (storeHeartbeat id state) s := by
  refine confined_bind confined_read fun settings t _ => ?_
  refine confined_bind (confined_write fun u db _ h => ?_) fun _ u _ => ?_
  · obtain ⟨_, -, h⟩ := Option.bind_eq_some_iff.mp h
    exact writes_upsertState h
  · exact confined_bind confined_touch fun _ _ _ => confined_weaken confined_emit

omit [Runtime] in
/-- Changing the session found by `recentSession`, or adding one. -/
theorem confined_aggregate {a : Activity} {timeSeconds : Int} {recent : Option ActivitySession}
    (howns : ∀ r ∈ recent, s.db.Owns id r.id) :
    Confined id (fun _ u => Drifts s u) (aggregate id a timeSeconds recent) s := by
  unfold aggregate
  split
  · rename_i r hr
    have hrec : recent = some r := (Option.filter_eq_some_iff.mp hr).1
    refine confined_write fun t db hst h => ?_
    obtain ⟨_, -, h⟩ := Option.bind_eq_some_iff.mp h
    exact writes_updateSession h ((howns r hrec).stable hst) fun _ => rfl
  · refine confined_write fun t db _ h => ?_
    obtain ⟨_, -, h⟩ := Option.bind_eq_some_iff.mp h
    exact writes_of_touches (Database.touches_createSession h) (machines_of_forMachine h rfl)

theorem confined_storeActivity {activity : Value} :
    Confined id (fun _ _ => True) (storeActivity id activity) s := by
  refine confined_bind confined_get fun a t _ => ?_
  refine confined_bind (confined_write fun u db _ h => ?_) fun _ u _ => ?_
  · obtain ⟨_, -, h⟩ := Option.bind_eq_some_iff.mp h
    exact writes_of_touches (Database.touches_createHistory h) (machines_of_forMachine h rfl)
  · refine confined_bind confined_read ?_
    rintro recent v ⟨v', -, hv, rfl⟩
    refine confined_bind confined_get ?_
    rintro time x ⟨-, hx⟩
    refine confined_bind (confined_aggregate fun r hr => ?_) fun _ _ _ =>
      confined_weaken confined_emit
    exact (recentSession_owns hr).stable (hv.trans hx)

theorem confined_storeAudit {auditEvent : Value} :
    Confined id (fun _ _ => True) (storeAudit id auditEvent) s := by
  refine confined_bind confined_get fun eventId t _ => confined_bind confined_get fun select u _ =>
    confined_bind confined_read fun existing v _ => ?_
  split
  · refine confined_bind (confined_write fun x db _ h => ?_) fun _ _ _ => ?_
    · obtain ⟨_, -, h⟩ := Option.bind_eq_some_iff.mp h
      exact writes_of_touches (Database.touches_createAudit h) (machines_of_forMachine h rfl)
    · exact confined_bind confined_emit fun _ _ _ => confined_weaken confined_emit
  · exact confined_done

theorem confined_storeScreenshot {screenshot : Value} :
    Confined id (fun _ _ => True) (storeScreenshot id screenshot) s := by
  refine confined_bind (confined_write fun x db _ h => ?_) fun _ _ _ =>
    confined_weaken confined_emit
  obtain ⟨_, -, h⟩ := Option.bind_eq_some_iff.mp h
  have htouches := Database.touches_createScreenshot h
  obtain ⟨shots, -, h⟩ := Option.bind_eq_some_iff.mp h
  exact writes_of_touches htouches (machines_of_forMachine h rfl)

/-! ## The routes behind their key -/

omit [Runtime] in
theorem confined_postApplied (machine : Machine) (body : Value) :
    Confined machine.id (fun _ _ => True) (postApplied machine body) s := by
  refine confined_handle (confined_bind confined_get fun settings t _ => ?_) fun _ => confined_done
  split
  · exact confined_bind (confined_write fun _ _ _ h => writes_updateState h) fun _ _ _ =>
      confined_done
  · exact confined_done

omit [Runtime] in
theorem confined_getSchedule {machine : Machine} :
    Confined id (fun _ _ => True) (getSchedule machine) s := by
  refine confined_handle (confined_bind confined_read fun settings t _ => ?_) fun _ => confined_done
  split <;> exact confined_done

theorem confined_postLogs {machine : Machine} {body : Value} :
    Confined machine.id (fun _ _ => True) (postLogs machine body) s := by
  refine confined_handle ?_ fun _ => confined_done
  split
  · exact confined_done
  · refine confined_bind (confined_write fun _ _ _ h => ?_) fun _ _ _ => confined_done
    obtain ⟨_, -, h⟩ := Option.bind_eq_some_iff.mp h
    exact writes_of_touches (Database.touches_createLogs h) (machines_of_forMachine h rfl)
  · exact confined_done

theorem confined_updateSessions {h : Heartbeat} {timeSeconds : Int}
    {recent : Option ActivitySession} (howns : ∀ r ∈ recent, s.db.Owns id r.id) :
    Confined id (fun _ u => Drifts s u) (updateSessions id h timeSeconds recent) s := by
  unfold updateSessions
  split
  · rename_i r hr
    have hrec : recent = some r := (Option.filter_eq_some_iff.mp hr).1
    exact confined_write fun t db hst h =>
      writes_updateSession h ((howns r hrec).stable hst) fun _ => rfl
  · refine confined_write fun t db _ h => ?_
    obtain ⟨_, -, h⟩ := Option.bind_eq_some_iff.mp h
    exact writes_of_touches (Database.touches_createSession h) (machines_of_forMachine h rfl)

theorem confined_postActivity (machine : Machine) (body : Value) :
    Confined machine.id (fun _ _ => True) (postActivity machine body) s := by
  refine confined_handle (confined_bind confined_get fun h t _ => ?_) fun _ => confined_done
  refine confined_bind confined_look fun now u _ => confined_bind confined_get fun time v _ => ?_
  refine confined_bind (confined_write fun _ _ _ h => ?_) fun _ x _ => ?_
  · obtain ⟨_, -, h⟩ := Option.bind_eq_some_iff.mp h
    exact writes_of_touches (Database.touches_createHistory h) (machines_of_forMachine h rfl)
  · refine confined_bind confined_read ?_
    rintro recent y ⟨y', -, hy, rfl⟩
    refine confined_bind confined_get ?_
    rintro timeSeconds z ⟨-, hz⟩
    refine confined_bind (confined_updateSessions fun r hr => ?_) fun _ _ _ => confined_done
    exact (recentSession_owns hr).stable (hy.trans hz)

end Server.Reports
