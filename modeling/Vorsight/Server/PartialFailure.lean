/-
  LIFECYCLE CALLS AND DATABASE FAILURES (server/src/services/machineService.ts).

  `adopt`, `archive` and `unarchive` have one shape (`Call.task_eq`): read the machine, refuse by
  its status, update its row, write a second table.  Nothing holds the two writes together: a
  failure of the second leaves the first, and then the method's own guard refuses the call when it
  is repeated (`throws_cases`).
-/
import Vorsight.Server.Lifecycle

namespace Server.MachineService

open Vorsight Js Tables Tasks

namespace PartialFailure

/-- A call of one of the three methods. -/
inductive Call
  | adopt (data : AdoptRequest)
  | archive (machineId : String)
  | unarchive (machineId : String)

namespace Call

/-- The method, without what it returns. -/
def task : Call → Task Store (Except String Unit)
  | .adopt data => do return (← MachineService.adopt data).map fun _ => ()
  | .archive machineId => do return (← MachineService.archive machineId).map fun _ => ()
  | .unarchive machineId => do return (← MachineService.unarchive machineId).map fun _ => ()

def machineId : Call → String
  | .adopt data => data.machineId
  | .archive machineId => machineId
  | .unarchive machineId => machineId

/-- The guard on the status, and the error it throws. -/
def refuses : Call → MachineStatus → Bool
  | .adopt _, status => status = .active
  | .archive _, status => status = .archived
  | .unarchive _, status => status ≠ .archived

def refusal : Call → String
  | .adopt _ => "Machine already adopted"
  | .archive _ => "Machine already archived"
  | .unarchive _ => "Machine is not archived"

/-- What the first write does to the row. -/
def apply : Call → Machine → Machine
  | .adopt data, m => { m with
      status := .active
      displayName := data.displayName.filter (· ≠ "") }
  | .archive _, m => { m with status := .archived }
  | .unarchive _, m => { m with status := .active }

theorem apply_id (call : Call) (m : Machine) : (call.apply m).id = m.id := by
  cases call <;> rfl

/-- The second write. -/
def second : Call → Database → DateTime → Option Database
  | .adopt data => saveSettings data.machineId data.stored
  | .archive machineId => fun db now => db.createConnectionEvent machineId
      { id := 0, machineId, eventType := "Archived", timestamp := now,
        metadata := some (.json (.obj [("archivedAt", .str (Time.toISOString now))])) }
  | .unarchive machineId => fun db now => db.createConnectionEvent machineId
      { id := 0, machineId, eventType := "Unarchived", timestamp := now,
        metadata := some (.json (.obj [("unarchivedAt", .str (Time.toISOString now))])) }

/-- The shape of the three methods. -/
def steps (call : Call) : Task Store (Except String Unit) := do
  match ← read fun db => db.machines.find call.machineId with
  | none => pure (.error "Machine not found")
  | some machine =>
    if call.refuses machine.status then pure (.error call.refusal)
    else
      write fun db _ => db.updateMachine call.machineId call.apply call.apply_id
      write call.second
      pure (.ok ())

theorem task_eq (call : Call) : call.task = call.steps := by
  have hread : ∀ {α β : Type} (f : Database → α) {k k' : α → Task Store β},
      (∀ a, k a = k' a) → (read f >>= k) = (read f >>= k') :=
    fun f k k' h => congrArg (read f >>= ·) (funext h)
  cases call with
  | adopt data =>
    rw [task, MachineService.adopt, Task.bind_assoc]
    refine hread _ fun found => ?_
    cases found with
    | none => rfl
    | some m =>
      by_cases hrefuse : m.status = .active
      · simp only [refuses, hrefuse, decide_true, if_true]
        rfl
      · simp only [refuses, hrefuse, decide_false, if_false, Bool.false_eq_true, storeInitial,
          Task.bind_assoc]
        rfl
  | archive machineId =>
    rw [task, MachineService.archive, Task.bind_assoc]
    refine hread _ fun found => ?_
    cases found with
    | none => rfl
    | some m =>
      by_cases hrefuse : m.status = .archived
      · simp only [refuses, hrefuse, decide_true, if_true]
        rfl
      · simp only [refuses, hrefuse, decide_false, if_false, Bool.false_eq_true, Task.bind_assoc]
        rfl
  | unarchive machineId =>
    rw [task, MachineService.unarchive, Task.bind_assoc]
    refine hread _ fun found => ?_
    cases found with
    | none => rfl
    | some m =>
      by_cases hrefuse : m.status ≠ .archived
      · simp only [refuses, hrefuse, decide_true, ne_eq, not_false_eq_true, if_true]
        rfl
      · simp only [refuses, hrefuse, decide_false, if_false, Bool.false_eq_true, Task.bind_assoc]
        rfl

/-- The method, run alone, with the faults of the database. -/
def run (call : Call) (faults : List Bool) (s : Store) : Store × Option (Except String Unit) :=
  let ended := call.task.execFaulty (faults, s)
  (ended.1.2, ended.2)

/-- It ends with an error of its own or of the database. -/
def Throws (result : Option (Except String Unit)) : Prop := result ≠ some (.ok ())

/-- The state the first write leaves. -/
def halfway (call : Call) (s : Store) : Store :=
  { s with db := { s.db with
      machines := s.db.machines.update call.machineId call.apply call.apply_id } }

section Halfway

variable {call : Call} {s : Store} {m : Machine}

theorem find_halfway (hm : s.db.machines.find call.machineId = some m) :
    (call.halfway s).db.machines.find call.machineId = some (call.apply m) := by
  rw [halfway, Table.find_update, if_pos rfl, hm]
  rfl

/-- The second write has what it needs. -/
theorem exists_second (hm : s.db.machines.find call.machineId = some m) :
    ∃ db, call.second (call.halfway s).db s.now = some db := by
  have hexists : ((call.halfway s).db.machines.find call.machineId).isSome := by
    rw [find_halfway hm]
    rfl
  cases call with
  | adopt data =>
    obtain ⟨db, hsave, -⟩ := saveSettings_spec hexists data.stored s.now
    exact ⟨db, hsave⟩
  | archive machineId => exact ⟨_, Database.forMachine_eq_some.mpr ⟨hexists, rfl⟩⟩
  | unarchive machineId => exact ⟨_, Database.forMachine_eq_some.mpr ⟨hexists, rfl⟩⟩

/-- The first write leads to a status that the guard refuses. -/
theorem refuses_apply (call : Call) (m : Machine) : call.refuses (call.apply m).status = true := by
  cases call <;> rfl

theorem exec_refused (hm : s.db.machines.find call.machineId = some m)
    (hrefuses : call.refuses m.status = true) :
    call.run [] s = (s, some (.error call.refusal)) := by
  simp only [run, task_eq, steps, Task.execFaulty_nil, Task.exec_bind, exec_read, hm, hrefuses,
    if_true]
  rfl

omit call m in
theorem execFaulty_read {α β : Type} (f : Database → α) (k : α → Task Store β)
    (faults : List Bool) : (read f >>= k).execFaulty (faults, s) =
      if faults.headD false then ((faults.tail, s), none)
      else (k (f s.db)).execFaulty (faults.tail, s) :=
  Task.execFaulty_op_bind _ k faults s

omit call m in
theorem execFaulty_write {β : Type} (f : Database → DateTime → Option Database)
    (k : Unit → Task Store β) (faults : List Bool) : (write f >>= k).execFaulty (faults, s) =
      if faults.headD false then ((faults.tail, s), none)
      else match f s.db s.now with
        | some db => (k ()).execFaulty (faults.tail, { s with db })
        | none => ((faults.tail, s), none) := by
  rw [write, Task.execFaulty_op_bind]
  cases f s.db s.now <;> rfl

/-- What the calls do under faults, step by step. -/
theorem run_eq (call : Call) (faults : List Bool) (s : Store) : call.run faults s =
    if faults.headD false then (s, none)
    else match s.db.machines.find call.machineId with
      | none => (s, some (.error "Machine not found"))
      | some m =>
        if call.refuses m.status then (s, some (.error call.refusal))
        else if faults.tail.headD false then (s, none)
        else if faults.tail.tail.headD false then (call.halfway s, none)
        else ((call.second (call.halfway s).db s.now).elim (call.halfway s)
          fun db => { s with db }, some (.ok ())) := by
  rw [run, task_eq, steps, execFaulty_read]
  split
  · rfl
  cases hm : s.db.machines.find call.machineId with
  | none => rfl
  | some m =>
    have hupdate : s.db.updateMachine call.machineId call.apply call.apply_id =
        some (call.halfway s).db := by
      refine Database.forMachine_eq_some.mpr ⟨?_, rfl⟩
      rw [hm]
      rfl
    obtain ⟨db, hsecond⟩ := exists_second hm
    by_cases hrefuses : call.refuses m.status
    · simp only [hrefuses, if_true]
      rfl
    simp only [hrefuses, if_false, Bool.false_eq_true, execFaulty_write, hupdate]
    split
    · rfl
    split
    · rfl
    · rw [hsecond]
      rfl

end Halfway

/-- The third step is the one that fails. -/
theorem take_three : ∀ {faults : List Bool}, faults.headD false = false →
    faults.tail.headD false = false → faults.tail.tail.headD false = true →
    faults.take 3 = [false, false, true]
  | false :: false :: true :: _, _, _, _ => rfl

/-- **Partial failure**: a call that throws leaves the state and the connection events of all
    machines alone.  It leaves everything as it was, unless the database fails at the second write;
    then the machine has its new status, and the same call is refused. -/
theorem throws_cases (call : Call) (faults : List Bool) (s : Store)
    (h : Throws (call.run faults s).2) :
    (call.run faults s).1.db.machineStates = s.db.machineStates ∧
      (call.run faults s).1.db.connectionEvents = s.db.connectionEvents ∧
      ((call.run faults s).1 = s ∨
        (faults.take 3 = [false, false, true] ∧
          ∃ m, s.db.machines.find call.machineId = some m ∧ call.refuses m.status = false ∧
            (call.run faults s).1 = call.halfway s ∧
            (call.halfway s).db.machines.find call.machineId = some (call.apply m) ∧
            call.run [] (call.halfway s) = (call.halfway s, some (.error call.refusal)))) := by
  rw [run_eq] at h ⊢
  by_cases hread : faults.headD false
  · rw [if_pos hread]
    exact ⟨rfl, rfl, .inl rfl⟩
  rw [if_neg hread] at h ⊢
  cases hm : s.db.machines.find call.machineId with
  | none => exact ⟨rfl, rfl, .inl rfl⟩
  | some m =>
    simp only [hm] at h ⊢
    by_cases hrefuses : call.refuses m.status
    · rw [if_pos hrefuses]
      exact ⟨rfl, rfl, .inl rfl⟩
    rw [if_neg hrefuses] at h ⊢
    by_cases hfirst : faults.tail.headD false
    · rw [if_pos hfirst]
      exact ⟨rfl, rfl, .inl rfl⟩
    rw [if_neg hfirst] at h ⊢
    by_cases hsecond : faults.tail.tail.headD false
    · rw [if_pos hsecond]
      have hfound := find_halfway hm
      refine ⟨rfl, rfl, .inr ⟨?_, m, rfl, by simpa using hrefuses, rfl, hfound,
        exec_refused hfound (refuses_apply call m)⟩⟩
      exact take_three (by simpa using hread) (by simpa using hfirst) hsecond
    · rw [if_neg hsecond] at h
      exact absurd rfl h

end Call

/-- A server with a machine that waits for adoption. -/
def discovered : Store :=
  { Store.adopted with db := { Database.empty with machines :=
      ⟨[{ id := "PC-1", name := "Reception", registrationDate := 0, apiKey := "4f1c",
          createdAt := 0 }], by decide⟩ } }

def adoption : Call := .adopt { machineId := "PC-1" }

/-- The status of the machine is written, its settings are not. -/
theorem throws_cases_adoption :
    (adoption.run [false, false, true] discovered).1.db.machineStates =
        discovered.db.machineStates ∧
      (adoption.run [false, false, true] discovered).1.db.connectionEvents =
        discovered.db.connectionEvents :=
  let h := Call.throws_cases adoption [false, false, true] discovered nofun
  ⟨h.1, h.2.1⟩

/-- An adoption that throws at its second write cannot be repeated. -/
theorem adopt_not_atomic :
    Call.Throws (adoption.run [false, false, true] discovered).2 ∧
      discovered.db.machines.rows.map (·.status) = [.pending] ∧
      (adoption.run [false, false, true] discovered).1.db.machines.rows.map (·.status) =
        [.active] ∧
      (adoption.run [] (adoption.run [false, false, true] discovered).1).2 =
        some (.error "Machine already adopted") :=
  ⟨nofun, rfl, rfl, rfl⟩

end PartialFailure

end Server.MachineService
