/-
  WHO WRITES THE SETTINGS COLUMN while heartbeats, ping checks, reports of applied settings, saves
  and adoptions overlap.

  A heartbeat and a ping check read the settings first and carry what they have read into the
  `create` branch of an upsert.  That branch runs only while the machine has no state row, and no
  state row is ever removed; so what a save or an adoption has written stays until the next save or
  adoption writes.

  1. **Who writes** (`AboutToStore`, `Stores`): a save or an adoption that stands at its upsert.

  2. **The crux (`standing_moves`)** — a task of the pool is quiet (it changes no settings of a
     machine that has a row), or it is one of the few stages of a save or an adoption; one step of
     it keeps this, and changes the settings only from the stage before the upsert.

  3. **Every run** (`settingsOf_after`): from the write on, the value stays.
-/
import Vorsight.Server.Channels
import Vorsight.Server.MachineService
import Vorsight.Server.PingMonitor

namespace Server.BackgroundWriters

open Js Tables Tasks MachineService

section Writers

variable [Runtime]

/-! ## The system -/

/-- What a task is run for: any payload, any machine. -/
inductive Origin
  | heartbeat (data : Value)
  | ping (probes : PingMonitor.Probes)
  | applied (apiKey : Option String) (body : Value)
  | save (body : Value)
  | adopt (data : AdoptRequest)

def handler : Origin → Task Store Unit
  | .heartbeat data => machineHeartbeat data
  | .ping probes => PingMonitor.checkOfflineMachines probes
  | .applied apiKey body => do
    let _ ← onRequest (.applied apiKey body)
    pure ()
  | .save body => do
    let _ ← postSettings body
    pure ()
  | .adopt data => Task.handle (do
    let _ ← adopt data
    pure ()) (pure ())

/-- The server; an outside change sets the clock. -/
def step : Pool Origin Store → Label Origin DateTime → Option (Pool Origin Store) :=
  Pool.step handler fun now s => { s with now }

/-- An adoption after its read. -/
def adopting (data : AdoptRequest) (machine : Machine) : Task Store Unit :=
  Task.handle (do
    let _ ← (do
      activate data
      storeInitial data machine)
    pure ()) (pure ())

/-- An adoption that has made the machine active. -/
def storing (data : AdoptRequest) (machine : Machine) : Task Store Unit :=
  Task.handle (do
    let _ ← storeInitial data machine
    pure ()) (pure ())

/-- The task stands at the upsert of a save or an adoption of machine `id`, with `v` to write. -/
inductive AboutToStore (id : String) (v : Obj Json) : Origin → Task Store Unit → Prop
  | save {body : Value} : AboutToStore id v (.save body) (SettingsRoute.saving id v)
  | adopt {data : AdoptRequest} {machine : Machine} (hid : data.machineId = id)
      (hv : data.stored = v) : AboutToStore id v (.adopt data) (storing data machine)

/-- The step writes `v` as the machine's settings. -/
def Stores (machine : String) (p : Pool Origin Store) (l : Label Origin DateTime) (v : Obj Json) :
    Prop :=
  ∃ i w q, l = .advance i ∧ p.tasks[i]? = some (w, q) ∧ AboutToStore machine v w q ∧
    (saveSettings machine v p.store.db p.store.now).isSome

/-! ## Operations that leave the settings alone -/

/-- A machine that has a state row keeps it, with its settings. -/
def SettingsKept (machine : String) (s s' : Store) : Prop :=
  ∀ r, s.db.machineStates.find machine = some r →
    ∃ r', s'.db.machineStates.find machine = some r' ∧ r'.settings = r.settings

variable {machine : String} {s s' : Store}

omit [Runtime] in
theorem SettingsKept.of_states (h : s'.db.machineStates = s.db.machineStates) :
    SettingsKept machine s s' := by
  intro r hr
  exact ⟨r, h ▸ hr, rfl⟩

omit [Runtime] in
theorem SettingsKept.refl (s : Store) : SettingsKept machine s s := .of_states rfl

omit [Runtime] in
/-- An operation for another machine. -/
theorem SettingsKept.of_touches {id : String} {db : Database} (h : s.db.Touches id db)
    (hne : machine ≠ id) : SettingsKept machine s { s with db } := by
  intro r hr
  have hrows := congrArg Database.MachineRows.state (h.others machine hne)
  exact ⟨r, hrows.trans hr, rfl⟩

omit [Runtime] in
theorem settingsKept_updateState {id : String} {db : Database} {f : MachineState → MachineState}
    {hf : ∀ r, (f r).machineId = r.machineId} (h : s.db.updateState id f hf = some db)
    (hkeep : ∀ r, (f r).settings = r.settings) : SettingsKept machine s { s with db } := by
  intro r hr
  unfold Database.updateState at h
  split at h
  · cases h
    by_cases hid : machine = id
    · subst hid
      refine ⟨f r, ?_, hkeep r⟩
      show (s.db.machineStates.update machine f hf).find machine = some (f r)
      rw [Table.find_update, if_pos rfl, hr, Option.map_some]
    · refine ⟨r, ?_, rfl⟩
      show (s.db.machineStates.update id f hf).find machine = some r
      rw [Table.find_update, if_neg hid, hr]
  · cases h

omit [Runtime] in
/-- An upsert whose update leaves the settings alone: for a machine that has a row, its `create`
    branch does not run. -/
theorem settingsKept_upsertState {id : String} {db : Database} {create : MachineState}
    {update : MachineState → MachineState} {hf : ∀ r, (update r).machineId = r.machineId}
    (h : s.db.upsertState id create update hf = some db)
    (hkeep : ∀ r, (update r).settings = r.settings) : SettingsKept machine s { s with db } := by
  by_cases hid : machine = id
  · subst hid
    intro r hr
    simp only [Database.upsertState, hr] at h
    exact settingsKept_updateState h hkeep r hr
  · exact .of_touches (Database.touches_upsertState h) hid

omit [Runtime] in
theorem settingsKept_updateMachine {id : String} {db : Database} {f : Machine → Machine}
    {hf : ∀ m, (f m).id = m.id} (h : s.db.updateMachine id f hf = some db) :
    SettingsKept machine s { s with db } := by
  obtain ⟨-, rfl⟩ := Database.forMachine_eq_some.mp h
  exact .of_states rfl

/-! ## Tasks that leave the settings alone -/

/-- Whatever the others do, no step of the task changes the settings of a machine that has a
    row. -/
abbrev Quiet {α : Type} (machine : String) (p : Task Store α) : Prop :=
  ∀ s, p.Guar (fun _ _ => True) (SettingsKept machine) (fun _ _ => True) (fun _ => True) s

section Quiet

variable {α β : Type}

omit [Runtime] in
theorem quiet_done {a : α} : Quiet machine (.done a : Task Store α) := fun _ _ _ => trivial

omit [Runtime] in
theorem quiet_bind {p : Task Store α} {k : α → Task Store β} (hp : Quiet machine p)
    (hk : ∀ a, Quiet machine (k a)) : Quiet machine (p >>= k) := by
  intro s
  exact Task.Guar.bind (fun _ => trivial) (fun a t _ => hk a t) (hp s)

omit [Runtime] in
theorem quiet_handle {p c : Task Store α} (hp : Quiet machine p) (hc : Quiet machine c) :
    Quiet machine (p.handle c) := by
  intro s
  exact Task.Guar.handle (fun _ => trivial) (fun t _ => hc t) (hp s)

omit [Runtime] in
theorem quiet_get {o : Option α} : Quiet machine (Tasks.Task.get o : Task Store α) := by
  intro s
  exact Task.Guar.get (fun _ _ _ _ => trivial) fun _ => trivial

omit [Runtime] in
theorem quiet_read {f : Database → α} : Quiet machine (read f) := by
  intro s
  exact Task.Guar.query SettingsKept.refl (fun _ _ _ _ => trivial) fun _ => trivial

omit [Runtime] in
theorem quiet_emit {target : Target} {event : DateTime → Event} :
    Quiet machine (emit target event) := by
  intro s
  exact Task.Guar.effect (fun _ _ => .of_states rfl) fun _ _ _ _ => trivial

omit [Runtime] in
theorem quiet_write {f : Database → DateTime → Option Database}
    (hf : ∀ s db, f s.db s.now = some db → SettingsKept machine s { s with db }) :
    Quiet machine (write f) := by
  intro s
  refine Task.Guar.op SettingsKept.refl (fun t _ _ _ hfu => ?_) fun _ => trivial
  obtain ⟨db, hdb, ⟨⟩⟩ := Option.map_eq_some_iff.mp hfu
  exact ⟨hf t db hdb, fun _ _ => trivial⟩

omit [Runtime] in
theorem quiet_touch {id : String} : Quiet machine (touch id) :=
  quiet_write fun _ _ h => settingsKept_updateMachine h

theorem quiet_storeHeartbeat {id : String} {state : Value} :
    Quiet machine (storeHeartbeat id state) := by
  refine quiet_bind quiet_read fun existing => quiet_bind (quiet_write fun s db h => ?_) fun _ =>
    quiet_bind quiet_touch fun _ => quiet_emit
  obtain ⟨fields, -, h⟩ := Option.bind_eq_some_iff.mp h
  exact settingsKept_upsertState h fun _ => rfl

theorem quiet_machineHeartbeat {data : Value} : Quiet machine (machineHeartbeat data) := by
  refine quiet_handle (quiet_bind quiet_get fun machineId => quiet_bind quiet_get fun state => ?_)
    quiet_done
  split
  · refine quiet_bind quiet_get fun id => quiet_bind quiet_read fun status => ?_
    split
    · exact quiet_storeHeartbeat
    · exact quiet_touch
    · exact quiet_done
  · exact quiet_done

omit [Runtime] in
theorem quiet_checkMachine {probes : PingMonitor.Probes} {id target : String} :
    Quiet machine (PingMonitor.checkMachine probes id target) := by
  refine quiet_bind (fun s => ?_) fun result => quiet_bind quiet_read fun settings =>
    quiet_write fun s db h => ?_
  · -- the probe
    refine Task.Guar.op SettingsKept.refl (fun t _ _ _ hf => ?_) fun _ => trivial
    obtain ⟨_, -, ⟨⟩⟩ := Option.map_eq_some_iff.mp hf
    exact ⟨.refl t, fun _ _ => trivial⟩
  · obtain ⟨latency, -, h⟩ := Option.bind_eq_some_iff.mp h
    exact settingsKept_upsertState h fun _ => rfl

omit [Runtime] in
theorem quiet_checkMachines {probes : PingMonitor.Probes} (machines : List Machine) :
    Quiet machine (PingMonitor.checkMachines probes machines) := by
  induction machines with
  | nil => exact quiet_done
  | cons m rest ih =>
    rw [PingMonitor.checkMachines]
    split
    · exact ih
    · exact quiet_bind (quiet_handle quiet_checkMachine quiet_done) fun _ => ih

omit [Runtime] in
theorem quiet_checkOfflineMachines {probes : PingMonitor.Probes} :
    Quiet machine (PingMonitor.checkOfflineMachines probes) := by
  refine quiet_handle (quiet_bind (fun s => ?_) fun now => quiet_bind quiet_read fun machines =>
    quiet_checkMachines machines) quiet_done
  exact Task.Guar.look SettingsKept.refl fun _ _ _ _ => trivial

omit [Runtime] in
theorem quiet_authenticateMachine {apiKey : Option String}
    {route : Machine → Task Store (Response Json)} (hroute : ∀ m, Quiet machine (route m)) :
    Quiet machine (authenticateMachine apiKey route) := by
  unfold authenticateMachine
  split
  · exact quiet_done
  · refine quiet_bind (quiet_handle (quiet_bind quiet_read fun _ => quiet_done) quiet_done)
      fun found => ?_
    split
    · exact quiet_done
    · exact quiet_done
    · exact hroute _

omit [Runtime] in
theorem quiet_postApplied {m : Machine} {body : Value} : Quiet machine (postApplied m body) := by
  refine quiet_handle (quiet_bind quiet_get fun settings => ?_) quiet_done
  split
  · exact quiet_bind (quiet_write fun s db h => settingsKept_updateState h fun _ => rfl) fun _ =>
      quiet_done
  · exact quiet_done

end Quiet

/-! ## The stages of a save and of an adoption -/

/-- Where a task of the pool can stand. -/
inductive Standing (machine : String) : Origin → Task Store Unit → Prop
  | quiet {w : Origin} {q : Task Store Unit} (h : Quiet machine q) : Standing machine w q
  | start {w : Origin} {q : Task Store Unit} (h : q = handler w) : Standing machine w q
  | adopting {data : AdoptRequest} {m : Machine} {q : Task Store Unit} (h : q = adopting data m) :
      Standing machine (.adopt data) q
  | about {id : String} {v : Obj Json} {w : Origin} {q : Task Store Unit}
      (h : AboutToStore id v w q) : Standing machine w q

omit [Runtime] in
/-- A save ends at once, or it reads the settings and then stands at its upsert. -/
theorem save_eq (machine : String) (body : Value) :
    (∃ q, (do let _ ← postSettings body; pure ()) = q ∧ Quiet machine q) ∨
      ∃ id, (do let _ ← postSettings body; pure () : Task Store Unit) = .await (fun s => s)
        (fun s => SettingsRoute.saving id
          (mergedSettings (s.db.settingsOf id) (newSettings body))) (.done ()) := by
  unfold postSettings
  cases prop body "machineId" with
  | none => exact .inl ⟨_, rfl, quiet_done⟩
  | some machineId =>
    cases htruthy : truthy machineId with
    | false =>
      refine .inl ⟨_, rfl, ?_⟩
      simp only [Task.get_some, Task.done_bind, htruthy]
      exact quiet_done
    | true =>
      cases htext : requiredText machineId with
      | none =>
        refine .inl ⟨_, rfl, ?_⟩
        simp only [Task.get_some, Task.done_bind, htruthy, htext]
        exact quiet_done
      | some id =>
        refine .inr ⟨id, ?_⟩
        simp only [Task.get_some, Task.done_bind, htruthy, htext]
        rfl

/-- What an adoption does first: it looks for the machine. -/
theorem adopt_eq (data : AdoptRequest) :
    handler (.adopt data) = .await (fun s => s)
      (fun s => match s.db.machines.find data.machineId with
        | none => .done ()
        | some m => if m.status = .active then .done () else adopting data m) (.done ()) := by
  refine congrArg (Task.await _ · (.done ())) (funext fun s => ?_)
  cases hfind : s.db.machines.find data.machineId with
  | none =>
    simp only [hfind]
    rfl
  | some m =>
    by_cases hactive : m.status = .active
    · simp only [hfind, Tasks.Task.bind, if_pos hactive]
      rfl
    · simp only [hfind, Tasks.Task.bind, if_neg hactive]
      rfl

omit [Runtime] in
/-- What it does next: it makes the machine active. -/
theorem adopting_eq (machine : String) (data : AdoptRequest) (m : Machine) : ∃ upd next,
    adopting data m = .await upd next (.done ()) ∧
      ∀ s, (next s = storing data m ∨ next s = .done ()) ∧ SettingsKept machine s (upd s) := by
  refine ⟨_, _, rfl, fun s => ?_⟩
  cases hupd : s.db.updateMachine data.machineId (fun m => { m with
      status := .active, displayName := data.displayName.filter (· ≠ "") }) fun _ => rfl with
  | none =>
    simp only [hupd]
    exact ⟨.inr rfl, .refl s⟩
  | some db =>
    simp only [hupd]
    exact ⟨.inl rfl, settingsKept_updateMachine hupd⟩

/-- What the upsert of settings leaves. -/
def upserted (id : String) (v : Obj Json) (s : Store) : Store :=
  match saveSettings id v s.db s.now with
  | some db => { s with db }
  | none => s

omit [Runtime] in
/-- At its upsert, a save or an adoption changes the store by that alone, and is quiet
    afterwards. -/
theorem about_moves (machine : String) {id : String} {v : Obj Json} {w : Origin}
    {q q' : Task Store Unit} (h : AboutToStore id v w q) (hm : q.Moves s s' q') :
    s' = upserted id v s ∧ Quiet machine q' := by
  cases h with
  | save =>
    rw [SettingsRoute.saving_eq] at hm
    cases hm with
    | await =>
      refine ⟨rfl, ?_⟩
      beta_reduce
      split
      · exact fun t t' _ => ⟨.of_states rfl, fun _ _ => trivial⟩
      · exact quiet_done
  | @adopt data m hid hv =>
    have hnext : ∃ upd next, storing data m = .await upd next (.done ()) ∧
        ∀ s, upd s = upserted id v s ∧ next s = .done () := by
      refine ⟨_, _, rfl, fun s => ?_⟩
      subst hid hv
      unfold upserted
      cases hsave : saveSettings data.machineId data.stored s.db s.now with
      | none =>
        simp only [hsave]
        exact ⟨rfl, rfl⟩
      | some db =>
        simp only [hsave]
        exact ⟨rfl, rfl⟩
    obtain ⟨upd, next, heq, hspec⟩ := hnext
    rw [heq] at hm
    cases hm with
    | await =>
      obtain ⟨hupd, hdone⟩ := hspec s
      exact ⟨hupd, hdone ▸ quiet_done⟩

omit [Runtime] in
theorem about_fails {id : String} {v : Obj Json} {w : Origin} {q q' : Task Store Unit}
    (h : AboutToStore id v w q) (hf : q.Fails q') : q' = .done () := by
  cases h with
  | save =>
    rw [SettingsRoute.saving_eq] at hf
    cases hf
    rfl
  | adopt hid hv =>
    cases hf
    rfl

omit [Runtime] in
/-- The upsert of settings: it leaves the machine's alone, unless it is the machine's own and
    succeeds. -/
theorem upserted_spec (machine id : String) (v : Obj Json) (s : Store) :
    SettingsKept machine s (upserted id v s) ∨
      id = machine ∧ (saveSettings machine v s.db s.now).isSome := by
  unfold upserted
  cases hsave : saveSettings id v s.db s.now with
  | none => exact .inl (.refl s)
  | some db =>
    by_cases hid : id = machine
    · subst hid
      exact .inr ⟨rfl, by rw [hsave]; rfl⟩
    · exact .inl (.of_touches (Database.touches_upsertState hsave) (Ne.symm hid))

omit [Runtime] in
/-- A write that succeeds is found again. -/
theorem settingsOf_upserted {v : Obj Json} (h : (saveSettings machine v s.db s.now).isSome) :
    (upserted machine v s).db.settingsOf machine = some v := by
  obtain ⟨db, hsave⟩ := Option.isSome_iff_exists.mp h
  unfold upserted
  rw [hsave]
  unfold saveSettings Database.upsertState at hsave
  cases hfind : s.db.machineStates.find machine with
  | some r =>
    simp only [hfind, Database.updateState, Option.isSome_some, if_true, Option.some.injEq] at hsave
    subst hsave
    simp [Database.settingsOf, Table.find_update, hfind, MachineState.withSettings]
  | none =>
    simp only [hfind] at hsave
    obtain ⟨states, hcreate, hsave⟩ := Option.bind_eq_some_iff.mp hsave
    obtain ⟨-, rfl⟩ := Database.forMachine_eq_some.mp hsave
    simp [Database.settingsOf, Table.find_create hcreate]

omit [Runtime] in
/-- Quiet from one store on is quiet. -/
theorem quiet_of_guar {q : Task Store Unit}
    (h : q.Guar (fun _ _ => True) (SettingsKept machine) (fun _ _ => True) (fun _ => True) s) :
    Quiet machine q :=
  fun _ => h.stable (fun _ _ _ _ _ => trivial) trivial

/-- Before its first step a background writer is quiet; a save or an adoption first reads. -/
theorem handler_cases (machine : String) (w : Origin) : Quiet machine (handler w) ∨
    ∃ next, handler w = .await (fun s => s) next (.done ()) ∧ ∀ s, Standing machine w (next s) := by
  cases w with
  | heartbeat data => exact .inl quiet_machineHeartbeat
  | ping probes => exact .inl quiet_checkOfflineMachines
  | applied apiKey body =>
    exact .inl (quiet_bind (quiet_authenticateMachine fun _ => quiet_postApplied) fun _ =>
      quiet_done)
  | save body =>
    rcases save_eq machine body with ⟨q, hq, hquiet⟩ | ⟨id, heq⟩
    · left
      show Quiet machine (do let _ ← postSettings body; pure ())
      rw [hq]
      exact hquiet
    · exact .inr ⟨_, heq, fun s => .about .save⟩
  | adopt data =>
    refine .inr ⟨_, adopt_eq data, fun s => ?_⟩
    split
    · exact .quiet quiet_done
    · split
      · exact .quiet quiet_done
      · exact .adopting rfl

/-- **The crux.**  A step of a task leaves it at one of its stages, and changes the settings of a
    machine that has a row only as the upsert of a save or an adoption. -/
theorem standing_moves {w : Origin} {q q' : Task Store Unit} (h : Standing machine w q)
    (hm : q.Moves s s' q') : Standing machine w q' ∧ (SettingsKept machine s s' ∨
      ∃ v, AboutToStore machine v w q ∧ (saveSettings machine v s.db s.now).isSome) := by
  have hquiet : Quiet machine q → Standing machine w q' ∧ (SettingsKept machine s s' ∨
      ∃ v, AboutToStore machine v w q ∧ (saveSettings machine v s.db s.now).isSome) := by
    intro hq
    obtain ⟨hkept, hnext⟩ := (hq s).moves trivial hm
    exact ⟨.quiet (quiet_of_guar hnext), .inl hkept⟩
  cases h with
  | quiet hq => exact hquiet hq
  | start heq =>
    rcases handler_cases machine w with hq | ⟨next, hnext, hstanding⟩
    · exact hquiet (heq ▸ hq)
    · rw [heq, hnext] at hm
      cases hm with
      | await => exact ⟨hstanding s, .inl (.refl s)⟩
  | @adopting data m q heq =>
    obtain ⟨upd, next, heq', hspec⟩ := adopting_eq machine data m
    rw [heq, heq'] at hm
    cases hm with
    | await =>
      obtain ⟨hnext, hkept⟩ := hspec s
      rcases hnext with hnext | hnext
      · rw [hnext]
        exact ⟨.about (.adopt rfl rfl), .inl hkept⟩
      · rw [hnext]
        exact ⟨.quiet quiet_done, .inl hkept⟩
  | @about id v w q habout =>
    obtain ⟨hstore, hq⟩ := about_moves machine habout hm
    refine ⟨.quiet hq, ?_⟩
    rcases upserted_spec machine id v s with hkept | ⟨hid, hsome⟩
    · exact .inl (hstore ▸ hkept)
    · exact .inr ⟨v, hid ▸ habout, hsome⟩

/-- An operation that fails leaves its task at one of its stages. -/
theorem standing_fails {w : Origin} {q q' : Task Store Unit} (h : Standing machine w q)
    (hf : q.Fails q') : Standing machine w q' := by
  have hquiet : Quiet machine q → Standing machine w q' := fun hq =>
    .quiet (quiet_of_guar ((hq .adopted).fails hf))
  cases h with
  | quiet hq => exact hquiet hq
  | start heq =>
    rcases handler_cases machine w with hq | ⟨next, hnext, -⟩
    · exact hquiet (heq ▸ hq)
    · rw [heq, hnext] at hf
      cases hf
      exact .quiet quiet_done
  | @adopting data m q heq =>
    obtain ⟨upd, next, heq', -⟩ := adopting_eq machine data m
    rw [heq, heq'] at hf
    cases hf
    exact .quiet quiet_done
  | about habout =>
    rw [about_fails habout hf]
    exact .quiet quiet_done

/-! ## Every run -/

/-- Every task of the pool is at one of its stages. -/
def Inv (machine : String) (p : Pool Origin Store) : Prop :=
  ∀ t ∈ p.tasks, Standing machine t.1 t.2

variable {p p' : Pool Origin Store} {l : Label Origin DateTime}

theorem Inv.set (hi : Inv machine p) {i : Nat} {w : Origin} {q : Task Store Unit}
    (hq : Standing machine w q) (store : Store) :
    Inv machine { store, tasks := p.tasks.set i (w, q) } := by
  intro t ht
  rcases List.mem_or_eq_of_mem_set ht with ht | rfl
  · exact hi t ht
  · exact hq

/-- One step: the settings of a machine that has a row change only by a write of `Stores`. -/
theorem step_spec (hi : Inv machine p) (hs : step p l = some p') : Inv machine p' ∧
    (SettingsKept machine p.store p'.store ∨ ∃ v, Stores machine p l v) := by
  rcases Pool.step_cases hs with ⟨w, rfl, rfl⟩ | ⟨i, w, q, q', s', rfl, hget, hm, rfl⟩ |
    ⟨i, w, q, q', rfl, hget, hf, rfl⟩ | ⟨now, rfl, rfl⟩
  · refine ⟨fun t ht => ?_, .inl (.refl _)⟩
    rcases List.mem_append.mp ht with ht | ht
    · exact hi t ht
    · rw [List.mem_singleton.mp ht]
      exact .start rfl
  · have hstanding : Standing machine w q := hi _ (List.mem_of_getElem? hget)
    obtain ⟨hnext, hkept⟩ := standing_moves hstanding hm
    refine ⟨hi.set hnext s', hkept.imp id ?_⟩
    rintro ⟨v, habout, hsome⟩
    exact ⟨v, i, w, q, rfl, hget, habout, hsome⟩
  · have hstanding : Standing machine w q := hi _ (List.mem_of_getElem? hget)
    exact ⟨hi.set (standing_fails hstanding hf) p.store, .inl (.refl _)⟩
  · exact ⟨hi, .inl (.of_states rfl)⟩

omit [Runtime] in
theorem SettingsKept.settingsOf (h : SettingsKept machine s s') {v : Obj Json}
    (hv : s.db.settingsOf machine = some v) : s'.db.settingsOf machine = some v := by
  obtain ⟨r, hr, hset⟩ := Option.bind_eq_some_iff.mp hv
  obtain ⟨r', hr', hset'⟩ := h r hr
  rw [Database.settingsOf, hr', Option.bind_some, hset', hset]

/-- A write of `Stores` is found in the column. -/
theorem stores_spec {v : Obj Json} (h : Stores machine p l v) (hs : step p l = some p') :
    p'.store.db.settingsOf machine = some v := by
  obtain ⟨i, w, q, rfl, hget, habout, hsome⟩ := h
  rcases Pool.step_cases hs with ⟨w', hl, -⟩ | ⟨i', w', q₁, q', s', hl, hget', hm, rfl⟩ |
    ⟨i', w', q₁, q', hl, -⟩ | ⟨now, hl, -⟩
  · cases hl
  · cases hl
    rw [hget] at hget'
    cases hget'
    obtain ⟨hstore, -⟩ := about_moves machine habout hm
    show s'.db.settingsOf machine = some v
    rw [hstore]
    exact settingsOf_upserted hsome
  · cases hl
  · cases hl

theorem inv_run {start : Store} {labels : List (Label Origin DateTime)}
    (hrun : Runs.run step { store := start, tasks := [] } labels = some p) : Inv machine p := by
  refine Runs.inv_of_run (I := Inv machine) (fun p l p' hi hs => (step_spec hi hs).1) ?_ hrun
  intro t ht
  cases ht

/-- **Background writers never disturb saved settings.**  In every run, from the write of `v` by a
    save or an adoption on, the column holds `v` in every state until the next such write. -/
theorem settingsOf_after {machine : String} {v : Obj Json} {start : Store}
    {before after : List (Label Origin DateTime)} {p p' : Pool Origin Store}
    {l : Label Origin DateTime}
    (hrun : Runs.run step { store := start, tasks := [] } before = some p)
    (hstores : Stores machine p l v) (hstep : step p l = some p')
    (hlast : Runs.EachStep step (fun p l _ => ∀ u, ¬ Stores machine p l u) p' after) :
    Runs.EachState step (fun q => q.store.db.settingsOf machine = some v) p' after := by
  have hinv : Inv machine p' := (step_spec (inv_run hrun) hstep).1
  have hv : p'.store.db.settingsOf machine = some v := stores_spec hstores hstep
  refine ⟨hv, Runs.eachStep_of_guard
    (I := fun q => Inv machine q ∧ q.store.db.settingsOf machine = some v)
    (G := fun p l => ∀ u, ¬ Stores machine p l u) ?_ ?_ ⟨hinv, hv⟩ hlast⟩
  all_goals
    rintro q l q' ⟨hi, hq⟩ hnot hs
    obtain ⟨hi', hkept⟩ := step_spec hi hs
    rcases hkept with hkept | ⟨u, hu⟩
  · exact ⟨hi', hkept.settingsOf hq⟩
  · exact absurd hu (hnot u)
  · exact hkept.settingsOf hq
  · exact absurd hu (hnot u)

end Writers

/-! ## A save and a heartbeat -/

/-- A heartbeat is let in and checked while a save stands at its upsert. -/
def overlap : List (Label Origin DateTime) :=
  [.spawn (.save (SettingsRoute.saveKey "activity").body),
    .spawn (.heartbeat (some (.obj [("machineId", .str "PC-1"),
      ("state", .obj [("screenshotCount", .num 7)])]))),
    .advance 0, .advance 1, .advance 1]

/-- The heartbeat writes after the save, and the save's settings stay. -/
theorem settingsOf_after_heartbeat :
    ∃ p p', Runs.run (@step Channels.numericRuntime) { store := .adopted, tasks := [] } overlap =
        some p ∧
      @step Channels.numericRuntime p (.advance 0) = some p' ∧
      Runs.EachState (@step Channels.numericRuntime)
        (fun q => q.store.db.settingsOf "PC-1" = some (mergedSettings none
          (newSettings (SettingsRoute.saveKey "activity").body))) p' [.advance 1, .advance 1] := by
  refine ⟨_, _, rfl, rfl, ?_⟩
  refine @settingsOf_after Channels.numericRuntime "PC-1" _ .adopted overlap _ _ _ (.advance 0) rfl
    ?_ rfl ?_
  · exact ⟨0, _, _, rfl, rfl, .save, rfl⟩
  · -- the task that moves afterwards is the heartbeat's
    have hnot : ∀ data v (p : Pool Origin Store),
        p.tasks[1]?.map Prod.fst = some (.heartbeat data) →
          ¬ Stores "PC-1" p (.advance 1) v := by
      rintro data v p hw ⟨i, w, q, hl, hget, habout, -⟩
      cases hl
      rw [hget] at hw
      cases hw
      cases habout
    intro p hp
    cases hp
    refine ⟨fun v => hnot _ v _ rfl, fun p hp => ?_⟩
    cases hp
    exact ⟨fun v => hnot _ v _ rfl, trivial⟩

end Server.BackgroundWriters
