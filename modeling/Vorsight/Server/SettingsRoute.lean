/-
  SAVING SETTINGS (server/src/routes/web/settings.ts, `POST /settings`), and saves that overlap.

  A save reads the stored settings, spreads the keys of its body over them, and writes the result
  back; nothing keeps another save from writing in between.

  1. **What is stored at the end** (`settingsOf_run`): the saves on the last write's chain
     (`Rmw.survivors`), as if they alone had been executed, one after the other.

  2. **When that is an order of all of them** (`serialisable_iff`): exactly when the other saves, in
     some order, change nothing that no survivor writes.  They always do so when saves do not
     overlap (`serialisable_of_sequential`), and two that overlap with different keys do not
     (`not_serialisable_interleaved`).

  **The crux (`rel_step`)** — the pool of handlers refines `Rmw.Trace`: what is stored, and what a
  handler has read, is the merge along the chain the trace says.
-/
import Vorsight.Library.Run
import Vorsight.Library.Rmw
import Mathlib.Data.List.FinRange
import Vorsight.Server.Store

namespace Server

open Js Tables Tasks

/-! ## The route -/

/-- `const { machineId, ...newSettings } = req.body`. -/
def newSettings : Value → Obj Json
  | some (.obj fields) => .ofList (fields.filter (·.1 ≠ "machineId"))
  | _ => .empty

/-- `{ ...existingSettings, ...newSettings }`. -/
def mergedSettings (existing : Option (Obj Json)) (new : Obj Json) : Obj Json :=
  (existing.getD .empty).spread new

def MachineState.withSettings (settings : Obj Json) (now : DateTime) (r : MachineState) :
    MachineState :=
  { r with settings := some settings, updatedAt := now }

theorem MachineState.withSettings_machineId (settings : Obj Json) (now : DateTime)
    (r : MachineState) : (r.withSettings settings now).machineId = r.machineId := rfl

/-- Save to machine_state. -/
def saveSettings (id : String) (settings : Obj Json) (db : Database) (now : DateTime) :
    Option Database :=
  db.upsertState id { machineId := id, settings := some settings, updatedAt := now }
    (MachineState.withSettings settings now) (MachineState.withSettings_machineId settings now)

/-- The end of the route: the write, the notification and the answer. -/
def storeMerged (id : String) (merged : Obj Json) : Task Store (Response (Obj Json)) := do
  write (saveSettings id merged)
  emit (.room (machineRoom id)) fun _ => .settingsUpdate merged
  pure (.json merged)

/-- `POST /settings`. -/
def postSettings (body : Value) : Task Store (Response (Obj Json)) :=
  Task.handle (do
    let machineId ← .get (prop body "machineId")
    if !truthy machineId then pure (.error 400 "machineId required")
    else
      let id ← .get (requiredText machineId)
      let existingSettings ← findSettings id
      storeMerged id (mergedSettings existingSettings (newSettings body)))
    (pure (.error 500 "Failed to save settings"))

/-- A save for an existing machine succeeds, whether or not the machine has a state row. -/
theorem saveSettings_spec {id : String} {db : Database} (h : (db.machines.find id).isSome)
    (settings : Obj Json) (now : DateTime) :
    ∃ db', saveSettings id settings db now = some db' ∧ db'.machines = db.machines ∧
      db'.settingsOf id = some settings := by
  unfold saveSettings Database.upsertState
  cases hfind : db.machineStates.find id with
  | some r =>
    let states := db.machineStates.update id (MachineState.withSettings settings now)
      (MachineState.withSettings_machineId settings now)
    refine ⟨{ db with machineStates := states },
      by simp [Database.updateState, hfind, states], rfl, ?_⟩
    simp [Database.settingsOf, states, Table.find_update, hfind, MachineState.withSettings]
  | none =>
    let row : MachineState := { machineId := id, settings := some settings, updatedAt := now }
    obtain ⟨states, hcreate⟩ := Table.exists_create (r := row) hfind
    refine ⟨{ db with machineStates := states },
      by simp only [row] at hcreate; simp [hcreate, Database.forMachine, h], rfl, ?_⟩
    simp [Database.settingsOf, Table.find_create hcreate, row]

namespace SettingsRoute

/-- A request to save settings of a machine: a body that names it. -/
structure Save (machine : String) where
  fields : List (String × Json)
  names : fields.lookup "machineId" = some (.str machine)

variable {machine : String}

def Save.body (r : Save machine) : Value := some (.obj r.fields)

def Save.newSettings (r : Save machine) : Obj Json := Server.newSettings r.body

def handler (r : Save machine) : Task Store Unit := do
  let _ ← postSettings r.body
  pure ()

/-! ## One save at a time -/

/-- The handler after its read. -/
def saving (machine : String) (merged : Obj Json) : Task Store Unit := do
  let _ ← Task.handle (storeMerged machine merged) (pure (.error 500 "Failed to save settings"))
  pure ()

/-- The handler after its write. -/
def answering (machine : String) (merged : Obj Json) : Task Store Unit :=
  .act (fun s => s.emit (.room (machineRoom machine)) (.settingsUpdate merged)) fun _ => .done ()

/-- What a handler does first: it reads. -/
theorem handler_eq (hmachine : machine ≠ "") (r : Save machine) :
    handler r = .await id (fun s =>
      saving machine (mergedSettings (s.db.settingsOf machine) r.newSettings)) (.done ()) := by
  have hprop : prop r.body "machineId" = some (some (.str machine)) := by
    rw [Save.body, prop, r.names]
  have htruthy : truthy (some (.str machine)) = true := by simpa [truthy] using hmachine
  rw [handler, postSettings, hprop]
  simp only [Task.get_some, Task.done_bind, htruthy, Bool.not_true, Bool.false_eq_true, if_false,
    requiredText]
  rfl

/-- What it does next: it writes, if the machine exists. -/
theorem saving_eq (merged : Obj Json) :
    saving machine merged = .await
      (fun s => match saveSettings machine merged s.db s.now with
        | some db => { s with db }
        | none => s)
      (fun s => match saveSettings machine merged s.db s.now with
        | some _ => answering machine merged
        | none => .done ()) (.done ()) := by
  have hupd : (fun s : Store =>
      ((((saveSettings machine merged s.db s.now).map fun db => ({ s with db }, ())).map
        Prod.fst).getD s)) = fun s => match saveSettings machine merged s.db s.now with
        | some db => { s with db }
        | none => s := by
    funext s
    cases saveSettings machine merged s.db s.now <;> rfl
  rw [← hupd]
  refine congrArg (Task.await _ · (.done ())) (funext fun s => ?_)
  beta_reduce
  cases saveSettings machine merged s.db s.now <;> rfl

/-- The merge of one save. -/
def merge (existing : Option (Obj Json)) (r : Save machine) : Option (Obj Json) :=
  some (mergedSettings existing r.newSettings)

/-- The saves executed one after another. -/
def serially (order : List (Save machine)) (s : Store) : Store :=
  order.foldl (fun s r => ((handler r).exec s).1) s

/-- One save, alone, merges its keys over what is stored. -/
theorem exec_handler (hmachine : machine ≠ "") {s : Store}
    (hexists : (s.db.machines.find machine).isSome) (r : Save machine) :
    ((handler r).exec s).1.db.settingsOf machine = merge (s.db.settingsOf machine) r ∧
      (((handler r).exec s).1.db.machines.find machine).isSome := by
  obtain ⟨db, hsave, hmachines, hstored⟩ := saveSettings_spec hexists
    (mergedSettings (s.db.settingsOf machine) r.newSettings) s.now
  rw [handler_eq hmachine, Task.exec, saving_eq, Task.exec]
  simp only [id, hsave, answering, Task.exec, Store.emit_db]
  exact ⟨hstored, hmachines ▸ hexists⟩

theorem serially_spec (hmachine : machine ≠ "") :
    ∀ {order : List (Save machine)} {s : Store}, (s.db.machines.find machine).isSome →
      (serially order s).db.settingsOf machine = order.foldl merge (s.db.settingsOf machine)
  | [], _, _ => rfl
  | r :: order, s, hexists => by
    obtain ⟨hstored, hexists'⟩ := exec_handler hmachine hexists r
    rw [serially, List.foldl_cons, ← serially, serially_spec hmachine hexists', hstored,
      List.foldl_cons]

/-- Merging a list of saves that is not empty. -/
theorem foldl_merge {existing : Option (Obj Json)} :
    ∀ {order : List (Save machine)}, order ≠ [] → order.foldl merge existing =
      some ((existing.getD .empty).spreadAll (order.map Save.newSettings)) := by
  suffices h : ∀ (order : List (Save machine)) (settings : Obj Json),
      order.foldl merge (some settings) =
        some (settings.spreadAll (order.map Save.newSettings)) by
    rintro (_ | ⟨r, order⟩) hne
    · exact absurd rfl hne
    · exact h order _
  intro order
  induction order with
  | nil => exact fun _ => rfl
  | cons r order ih => exact fun settings => ih _

/-! ## Saves that overlap -/

/-- All requests before their first step. -/
def start (requests : List (Save machine)) (s : Store) : Pool (Save machine) Store where
  store := s
  tasks := requests.map fun r => (r, handler r)

/-- The handler of the `i`-th request takes its next step. -/
def step (requests : List (Save machine)) (p : Pool (Save machine) Store)
    (i : Fin requests.length) : Option (Pool (Save machine) Store) :=
  p.step (e := Empty) handler (fun e => nomatch e) (.advance i)

def Finished (p : Pool (Save machine) Store) : Prop := ∀ t ∈ p.tasks, t.2 = .done ()

/-- Some order of all requests, executed one after another, stores the same. -/
def Serialisable (requests : List (Save machine)) (s final : Store) : Prop :=
  ∃ order : List (Fin requests.length), order.Perm (List.finRange _) ∧
    (serially (order.map requests.get) s).db.settingsOf machine = final.db.settingsOf machine

section Overlap

variable {requests : List (Save machine)}

/-- What the saves of a chain have merged. -/
def merged (requests : List (Save machine)) (s : Store) (chain : List (Fin requests.length)) :
    Option (Obj Json) :=
  (chain.map requests.get).foldl merge (s.db.settingsOf machine)

theorem merged_concat (s : Store) (chain : List (Fin requests.length))
    (i : Fin requests.length) :
    merged requests s (chain ++ [i]) = merge (merged requests s chain) (requests.get i) := by
  simp [merged]

/-- Where the handler of a request stands in a phase. -/
def At (s : Store) (r : Save machine) (task : Task Store Unit) :
    Rmw.Phase (Fin requests.length) → Prop
  | .waiting => task = handler r
  | .holding read => task = saving machine (mergedSettings (merged requests s read) r.newSettings)
  | .finished => (∃ settings, task = answering machine settings) ∨ task = .done ()

/-- The pool stands where the trace says. -/
structure Rel (requests : List (Save machine)) (s : Store) (p : Pool (Save machine) Store)
    (c : Rmw.Trace (Fin requests.length)) : Prop where
  machineExists : (p.store.db.machines.find machine).isSome
  stored : p.store.db.settingsOf machine = merged requests s c.stored
  tasks : ∀ i : Fin requests.length, ∃ task, p.tasks[i.val]? = some (requests.get i, task) ∧
    At s (requests.get i) task (c.phase i)

theorem rel_start {s : Store} (hexists : (s.db.machines.find machine).isSome) :
    Rel requests s (start requests s) {} where
  machineExists := hexists
  stored := rfl
  tasks i := ⟨handler (requests.get i), by simp [start], rfl⟩

/-- Only the task that moves and its phase change. -/
theorem Rel.move {s : Store} {p : Pool (Save machine) Store}
    {c : Rmw.Trace (Fin requests.length)} (h : Rel requests s p c) {store : Store}
    {stored : List (Fin requests.length)} {i : Fin requests.length} {task : Task Store Unit}
    {phase : Rmw.Phase (Fin requests.length)}
    (hexists : (store.db.machines.find machine).isSome)
    (hstored : store.db.settingsOf machine = merged requests s stored)
    (hat : At s (requests.get i) task phase) :
    Rel requests s { store, tasks := p.tasks.set i (requests.get i, task) }
      { stored, phase := Function.update c.phase i phase } where
  machineExists := hexists
  stored := hstored
  tasks j := by
    by_cases hji : j = i
    · subst hji
      obtain ⟨old, hold, -⟩ := h.tasks j
      have hlt : j.val < p.tasks.length := (List.getElem?_eq_some_iff.mp hold).1
      exact ⟨task, by simp [hlt], by simpa using hat⟩
    · obtain ⟨other, hother, hat'⟩ := h.tasks j
      have hne : i.val ≠ j.val := fun he => hji (Fin.ext he.symm)
      exact ⟨other, by simpa [List.getElem?_set_ne hne] using hother, by simpa [hji] using hat'⟩

/-- **The crux.**  A step of the pool is a step of the trace. -/
theorem rel_step (hmachine : machine ≠ "") {s : Store} {p p' : Pool (Save machine) Store}
    {c : Rmw.Trace (Fin requests.length)} {i : Fin requests.length} (h : Rel requests s p c)
    (hstep : step requests p i = some p') : Rel requests s p' (c.advance i) := by
  obtain ⟨task, htask, hat⟩ := h.tasks i
  unfold Rmw.Trace.advance
  cases hphase : c.phase i with
  | waiting =>
    -- the read: the handler now holds what is stored
    rw [hphase] at hat
    obtain rfl : task = handler (requests.get i) := hat
    simp only [step, Pool.step, htask, handler_eq hmachine, Option.some.injEq] at hstep
    subst hstep
    exact h.move h.machineExists h.stored (by rw [h.stored]; rfl)
  | holding read =>
    -- the write: what the handler read, merged with its own keys
    rw [hphase] at hat
    obtain rfl : task = saving machine _ := hat
    obtain ⟨db, hsave, hmachines, hsettings⟩ := saveSettings_spec h.machineExists
      (mergedSettings (merged requests s read) (requests.get i).newSettings) p.store.now
    simp only [step, Pool.step, htask, saving_eq, hsave, Option.some.injEq] at hstep
    subst hstep
    refine h.move (by rw [hmachines]; exact h.machineExists) ?_ (.inl ⟨_, rfl⟩)
    rw [hsettings, merged_concat, merge]
  | finished =>
    rw [hphase] at hat
    rcases hat with ⟨settings, rfl⟩ | rfl
    -- the answer: the trace has nothing left to do for it
    · simp only [step, Pool.step, htask, answering, Option.some.injEq] at hstep
      subst hstep
      have hsame : { c with phase := Function.update c.phase i .finished } = c := by
        rw [← hphase, Function.update_eq_self]
      exact hsame ▸ h.move h.machineExists h.stored (.inr rfl)
    · simp [step, Pool.step, htask] at hstep

/-- The pool follows the trace through any schedule. -/
theorem rel_run (hmachine : machine ≠ "") {s : Store} :
    ∀ {schedule : List (Fin requests.length)} {p p' : Pool (Save machine) Store}
      {c : Rmw.Trace (Fin requests.length)}, Rel requests s p c →
        Runs.run (step requests) p schedule = some p' →
        Rel requests s p' (schedule.foldl .advance c)
  | [], _, _, _, h, hrun => Option.some.inj hrun ▸ h
  | i :: schedule, p, p', c, h, hrun => by
    obtain ⟨m, hm, hrun⟩ := Runs.run_cons_eq_some.mp hrun
    rw [List.foldl_cons]
    exact rel_run hmachine (rel_step hmachine h hm) hrun

/-- The saves that leave no trace: none of the chain that is stored at the end. -/
def lost (requests : List (Save machine)) (schedule : List (Fin requests.length)) :
    List (Fin requests.length) :=
  (List.finRange _).filter (· ∉ Rmw.survivors schedule)

/-- Some order of the lost saves changes no key, or only keys that a survivor writes. -/
def LostHarmless (requests : List (Save machine)) (schedule : List (Fin requests.length))
    (s : Store) : Prop :=
  ∃ order : List (Fin requests.length), order.Perm (lost requests schedule) ∧
    ∀ key, (∀ i ∈ Rmw.survivors schedule, (requests.get i).newSettings key = none) →
      ((s.db.settingsOf machine).getD .empty).spreadAll
          (order.map fun i => (requests.get i).newSettings) key =
        ((s.db.settingsOf machine).getD .empty) key

/-- What is stored at the end: the survivors, executed one after the other. -/
theorem settingsOf_run (hmachine : machine ≠ "") {s : Store}
    (hexists : (s.db.machines.find machine).isSome) {schedule : List (Fin requests.length)}
    {p : Pool (Save machine) Store}
    (hrun : Runs.run (step requests) (start requests s) schedule = some p) :
    p.store.db.settingsOf machine =
      (serially ((Rmw.survivors schedule).map requests.get) s).db.settingsOf machine := by
  rw [(rel_run hmachine (rel_start hexists) hrun).stored, serially_spec hmachine hexists]
  rfl

/-- At the end of a run every client of the trace has written. -/
theorem phase_of_finished (hmachine : machine ≠ "") {s : Store} {p : Pool (Save machine) Store}
    {c : Rmw.Trace (Fin requests.length)} (h : Rel requests s p c) (hend : Finished p)
    (i : Fin requests.length) : c.phase i = .finished := by
  obtain ⟨task, htask, hat⟩ := h.tasks i
  have hdone : task = .done () := hend _ (List.mem_of_getElem? htask)
  subst hdone
  cases hphase : c.phase i with
  | waiting => simp [hphase, At, handler_eq hmachine] at hat
  | holding read => simp [hphase, At, saving_eq] at hat
  | finished => rfl

theorem lost_append_survivors_perm (schedule : List (Fin requests.length)) :
    (lost requests schedule ++ Rmw.survivors schedule).Perm (List.finRange _) := by
  refine (List.perm_ext_iff_of_nodup ?_ (List.nodup_finRange _)).mpr fun i => ?_
  · refine List.nodup_append.mpr ⟨(List.nodup_finRange _).filter _, Rmw.survivors_nodup _, ?_⟩
    rintro i hi j hj rfl
    simp [lost] at hi
    exact hi hj
  · by_cases hi : i ∈ Rmw.survivors schedule <;> simp [lost, hi]

end Overlap

/-- What a save that comes next reads. -/
theorem getD_foldl_merge (existing : Option (Obj Json)) (order : List (Save machine)) :
    (order.foldl merge existing).getD .empty =
      (existing.getD .empty).spreadAll (order.map Save.newSettings) := by
  cases order with
  | nil => rfl
  | cons r order => rw [foldl_merge (by simp)]; rfl

theorem lostHarmless_of_serialisable (hmachine : machine ≠ "") {requests : List (Save machine)}
    {s : Store} (hexists : (s.db.machines.find machine).isSome)
    {schedule : List (Fin requests.length)} {p : Pool (Save machine) Store}
    (hrun : Runs.run (step requests) (start requests s) schedule = some p)
    (h : Serialisable requests s p.store) : LostHarmless requests schedule s := by
  obtain ⟨order, hperm, hsame⟩ := h
  refine ⟨order.filter (· ∉ Rmw.survivors schedule), hperm.filter _, fun key habs => ?_⟩
  have hread : ((s.db.settingsOf machine).getD .empty).spreadAll
      (order.map fun i => (requests.get i).newSettings) =
      ((s.db.settingsOf machine).getD .empty).spreadAll
        ((Rmw.survivors schedule).map fun i => (requests.get i).newSettings) := by
    rw [settingsOf_run hmachine hexists hrun, serially_spec hmachine hexists,
      serially_spec hmachine hexists] at hsame
    have hget := congrArg (·.getD Obj.empty) hsame
    simpa only [getD_foldl_merge, List.map_map, Function.comp_def] using hget
  -- leaving the survivors out of the order changes no key that they do not carry
  rw [Obj.spreadAll_filter, hread, Obj.spreadAll_of_absent]
  · intro b hb
    obtain ⟨i, hi, rfl⟩ := List.mem_map.mp hb
    exact habs i hi
  · intro i _ hi
    exact habs i (by simpa using hi)

theorem serialisable_of_lostHarmless (hmachine : machine ≠ "") {requests : List (Save machine)}
    {s : Store} (hexists : (s.db.machines.find machine).isSome)
    {schedule : List (Fin requests.length)} {p : Pool (Save machine) Store}
    (hrun : Runs.run (step requests) (start requests s) schedule = some p) (hend : Finished p)
    (h : LostHarmless requests schedule s) : Serialisable requests s p.store := by
  obtain ⟨order, hperm, hharmless⟩ := h
  -- the lost saves first, so that the survivors write over them
  refine ⟨order ++ Rmw.survivors schedule,
    (hperm.append_right _).trans (lost_append_survivors_perm schedule), ?_⟩
  rw [settingsOf_run hmachine hexists hrun, serially_spec hmachine hexists,
    serially_spec hmachine hexists]
  have hphase := phase_of_finished hmachine (rel_run hmachine (rel_start hexists) hrun) hend
  by_cases hnil : Rmw.survivors schedule = []
  · -- nobody has written, so nobody was there
    have hempty : order = [] :=
      List.eq_nil_iff_forall_not_mem.mpr fun i _ => Rmw.survivors_ne_nil (hphase i) hnil
    rw [hempty, hnil, List.nil_append]
  · rw [foldl_merge (by simpa using fun _ => hnil), foldl_merge (by simpa using hnil)]
    congr 1
    ext1 key
    rw [List.map_append, List.map_append, Obj.spreadAll_append]
    by_cases hpres : ∃ b ∈ ((Rmw.survivors schedule).map requests.get).map Save.newSettings,
        b key ≠ none
    · exact Obj.spreadAll_of_present hpres
    · have habs : ∀ i ∈ Rmw.survivors schedule, (requests.get i).newSettings key = none := by
        intro i hi
        by_contra hkey
        exact hpres ⟨_, List.mem_map_of_mem (List.mem_map_of_mem hi), hkey⟩
      have habs' : ∀ b ∈ ((Rmw.survivors schedule).map requests.get).map Save.newSettings,
          b key = none := by
        simpa using habs
      rw [Obj.spreadAll_of_absent habs', Obj.spreadAll_of_absent habs', List.map_map]
      exact hharmless key habs

/-- A key that one survivor carries and no other is stored as that one sent it. -/
theorem stored_of_survivor (hmachine : machine ≠ "") {requests : List (Save machine)}
    {s : Store} (hexists : (s.db.machines.find machine).isSome)
    {schedule : List (Fin requests.length)} {p : Pool (Save machine) Store}
    (hrun : Runs.run (step requests) (start requests s) schedule = some p)
    {i : Fin requests.length} (hi : i ∈ Rmw.survivors schedule) {key : String} {value : Json}
    (hvalue : (requests.get i).newSettings key = some value)
    (honly : ∀ j ∈ Rmw.survivors schedule, j ≠ i → (requests.get j).newSettings key = none) :
    (p.store.db.settingsOf machine).bind (· key) = some value := by
  obtain ⟨before, after, hchain⟩ := List.append_of_mem hi
  have hnodup := Rmw.survivors_nodup schedule
  rw [hchain] at hnodup
  have hafter : ∀ b ∈ (after.map requests.get).map Save.newSettings, b key = none := by
    intro b hb
    obtain ⟨r, hr, rfl⟩ := List.mem_map.mp hb
    obtain ⟨j, hj, rfl⟩ := List.mem_map.mp hr
    refine honly j (by simp [hchain, hj]) ?_
    rintro rfl
    exact (List.nodup_cons.mp (List.nodup_append.mp hnodup).2.1).1 hj
  rw [settingsOf_run hmachine hexists hrun, serially_spec hmachine hexists, hchain,
    foldl_merge (by simp), Option.bind_some, List.map_append, List.map_append,
    Obj.spreadAll_append, List.map_cons, List.map_cons, Obj.spreadAll_cons,
    Obj.spreadAll_of_absent hafter, Obj.spread_apply, hvalue, Option.some_or]

/-- **Overlapping saves.**  The survivors are stored as if executed one after the other, no key of
    one of them is lost to the others, and the whole is an order of all requests exactly when the
    lost ones change nothing else. -/
theorem serialisable_iff (hmachine : machine ≠ "") {requests : List (Save machine)} {s : Store}
    (hexists : (s.db.machines.find machine).isSome) {schedule : List (Fin requests.length)}
    {p : Pool (Save machine) Store}
    (hrun : Runs.run (step requests) (start requests s) schedule = some p) (hend : Finished p) :
    p.store.db.settingsOf machine =
        (serially ((Rmw.survivors schedule).map requests.get) s).db.settingsOf machine ∧
      (∀ i ∈ Rmw.survivors schedule, ∀ key value, (requests.get i).newSettings key = some value →
        (∀ j ∈ Rmw.survivors schedule, j ≠ i → (requests.get j).newSettings key = none) →
        (p.store.db.settingsOf machine).bind (· key) = some value) ∧
      (Serialisable requests s p.store ↔ LostHarmless requests schedule s) :=
  ⟨settingsOf_run hmachine hexists hrun,
    fun _ hi _ _ hvalue honly => stored_of_survivor hmachine hexists hrun hi hvalue honly,
    lostHarmless_of_serialisable hmachine hexists hrun,
    serialisable_of_lostHarmless hmachine hexists hrun hend⟩

/-- Saves that do not overlap are serialisable, in the order they were executed in. -/
theorem serialisable_of_sequential (hmachine : machine ≠ "") {requests : List (Save machine)}
    {s : Store} (hexists : (s.db.machines.find machine).isSome)
    {order : List (Fin requests.length)} (hperm : order.Perm (List.finRange _))
    {p : Pool (Save machine) Store}
    (hrun : Runs.run (step requests) (start requests s) (order.flatMap (List.replicate 3)) =
      some p) : Serialisable requests s p.store := by
  refine ⟨order, hperm, ?_⟩
  have hnodup : order.Nodup := hperm.nodup_iff.mpr (List.nodup_finRange _)
  rw [settingsOf_run hmachine hexists hrun, Rmw.survivors_sequential hnodup]

/-! ## Two saves with different keys -/

def saveKey (key : String) : Save "PC-1" where
  fields := [("machineId", .str "PC-1"), (key, .obj [("enabled", .bool true)])]
  names := rfl

def overlapping : List (Save "PC-1") := [saveKey "screenshots", saveKey "activity"]

/-- Both read before either writes. -/
def interleaved : List (Fin overlapping.length) := ([0, 1, 0, 1, 0, 1] : List (Fin 2))

theorem run_interleaved :
    ∃ p, Runs.run (step overlapping) (start overlapping .adopted) interleaved = some p ∧
      Finished p := by
  refine ⟨_, rfl, fun t ht => ?_⟩
  change t ∈ [(saveKey "screenshots", Task.done ()), (saveKey "activity", Task.done ())] at ht
  simp only [List.mem_cons, List.not_mem_nil, or_false] at ht
  rcases ht with rfl | rfl <;> rfl

theorem serialisable_iff_interleaved :
    ∃ p, Runs.run (step overlapping) (start overlapping .adopted) interleaved = some p ∧
      p.store.db.settingsOf "PC-1" =
        (serially ((Rmw.survivors interleaved).map overlapping.get) .adopted).db.settingsOf
          "PC-1" ∧
      (Serialisable overlapping .adopted p.store ↔
        LostHarmless overlapping interleaved .adopted) := by
  obtain ⟨p, hrun, hend⟩ := run_interleaved
  have h := serialisable_iff (by decide) rfl hrun hend
  exact ⟨p, hrun, h.1, h.2.2⟩

/-- The first save of the two is lost: no order of them leaves its key out. -/
theorem not_serialisable_interleaved :
    ∃ p, Runs.run (step overlapping) (start overlapping .adopted) interleaved = some p ∧
      Finished p ∧ ¬ Serialisable overlapping .adopted p.store := by
  obtain ⟨p, hrun, hend⟩ := run_interleaved
  refine ⟨p, hrun, hend, fun h => ?_⟩
  obtain ⟨order, hperm, hharmless⟩ := lostHarmless_of_serialisable (by decide) rfl hrun h
  have hlost : lost overlapping interleaved = ([0] : List (Fin 2)) := rfl
  rw [hlost] at hperm
  obtain rfl : order = ([0] : List (Fin 2)) := List.perm_singleton.mp hperm
  have hkey := hharmless "screenshots" (by decide)
  exact absurd (congrArg Option.isSome hkey) (by decide)

end SettingsRoute

end Server
