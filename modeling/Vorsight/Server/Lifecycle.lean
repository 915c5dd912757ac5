/-
  WHICH MACHINES BECOME ACTIVE, over any sequence of calls of the machine service.

  `register`, `adopt`, `archive` and `unarchive` move a machine between its three statuses; `adopt`
  alone asks whether the machine is to be observed, and writes settings.

  1. **The claim of the design** (`Sound`): an active machine has been adopted, and its settings are
     those of an adoption.

  2. **Where it fails.**  `archive` takes a pending machine, and `unarchive` makes it active.
     `Harmless` says of a call that it does not take a machine back that was never adopted.

  3. **The exact condition** (`sound_iff`), from one spec lemma for each method (`exec_register`,
     `exec_adopt`, `exec_archive`, `exec_unarchive`).
-/
import Vorsight.Server.Channels
import Vorsight.Server.MachineService

namespace Server.Lifecycle

open Js Tables Tasks MachineService

/-! ## The system -/

section Lifecycle

variable [Runtime]

/-- A call of the service.  The key is the random one a new machine gets. -/
inductive Call
  | register (machineId name hostname : Value) (apiKey : String)
  | adopt (data : AdoptRequest)
  | archive (machineId : String)
  | unarchive (machineId : String)

/-- The store, and the adoptions that have succeeded. -/
structure State where
  store : Store
  adoptions : List AdoptRequest := []

/-- One call, at the time `now`. -/
def step (s : State) : DateTime × Call → Option State
  | (now, call) =>
    let store := { s.store with now }
    match call with
    | .register machineId name hostname apiKey =>
      some { s with store := ((registerMachine machineId name hostname apiKey).exec store).1 }
    | .adopt data =>
      let (store, result) := (adopt data).exec store
      match result with
      | some (.ok _) => some { store, adoptions := s.adoptions ++ [data] }
      | _ => some { s with store }
    | .archive machineId => some { s with store := ((archive machineId).exec store).1 }
    | .unarchive machineId => some { s with store := ((unarchive machineId).exec store).1 }

def statusOf (db : Database) (id : String) : Option MachineStatus :=
  (db.machines.find id).map (·.status)

/-- The machine's settings are those of an adoption of it. -/
def Adopted (s : State) (id : String) : Prop :=
  ∃ data ∈ s.adoptions, data.machineId = id ∧ s.store.db.settingsOf id = some data.stored

/-- Only adopted machines are active. -/
def Sound (s : State) : Prop := ∀ id, statusOf s.store.db id = some .active → Adopted s id

/-- The call does not take back a machine that was archived without ever being adopted. -/
def Harmless (s : State) : DateTime × Call → Prop
  | (_, .unarchive id) =>
    statusOf s.store.db id = some .archived → ∃ data ∈ s.adoptions, data.machineId = id
  | _ => True

/-! ## The methods, one call at a time -/

omit [Runtime] in
/-- An update of a machine that is there. -/
theorem exec_updateMachine {id : String} (f : Machine → Machine) (hf : ∀ m, (f m).id = m.id)
    {s : Store} {m : Machine} (hfind : s.db.machines.find id = some m) :
    ∃ db, (write fun db _ => db.updateMachine id f hf).exec s = ({ s with db }, some ()) ∧
      db.machineStates = s.db.machineStates ∧ db.machines.find id = some (f m) ∧
      ∀ other, statusOf db other =
        if other = id then some (f m).status else statusOf s.db other := by
  have hwrite : s.db.updateMachine id f hf =
      some { s.db with machines := s.db.machines.update id f hf } := by
    refine Database.forMachine_eq_some.mpr ⟨?_, rfl⟩
    rw [hfind]
    rfl
  have hrow : (s.db.machines.update id f hf).find id = some (f m) := by
    rw [Table.find_update, if_pos rfl, hfind]
    rfl
  refine ⟨_, exec_write_some hwrite, rfl, hrow, fun other => ?_⟩
  by_cases hother : other = id
  · subst hother
    rw [if_pos rfl, statusOf, hrow]
    rfl
  · rw [if_neg hother, statusOf, Table.find_update, if_neg hother]
    rfl

omit [Runtime] in
theorem exec_recordEvent {id : String} (eventType key : String) {s : Store}
    (hexists : (s.db.machines.find id).isSome) :
    ∃ db, (recordEvent id eventType key).exec s = ({ s with db }, some ()) ∧
      db.machines = s.db.machines ∧ db.machineStates = s.db.machineStates :=
  ⟨_, exec_write_some (Database.forMachine_eq_some.mpr ⟨hexists, rfl⟩), rfl, rfl⟩

omit [Runtime] in
/-- The end of `archive` and `unarchive`: the machine gets the status, and settings stay. -/
theorem exec_move {id : String} (eventType key : String) (status : MachineStatus) {s : Store}
    {m : Machine} (hfind : s.db.machines.find id = some m) :
    ∃ db, ((do
        setStatus id status
        recordEvent id eventType key
        pure (.ok m) : Task Store (Except String Machine)).exec s).1 = { s with db } ∧
      db.machineStates = s.db.machineStates ∧
      ∀ other, statusOf db other = if other = id then some status else statusOf s.db other := by
  obtain ⟨db, hexec, hstates, hrow, hstatus⟩ := exec_updateMachine (fun m => { m with status })
    (fun _ => rfl) hfind
  have hexec : (setStatus id status).exec s = ({ s with db }, some ()) := hexec
  rw [Task.exec_bind_of hexec]
  have hexists : (db.machines.find id).isSome := by
    rw [hrow]
    rfl
  obtain ⟨db', hrecord, hmachines, hstates'⟩ := exec_recordEvent (s := { s with db }) eventType key
    hexists
  rw [Task.exec_bind_of hrecord]
  refine ⟨db', rfl, hstates'.trans hstates, fun other => ?_⟩
  rw [statusOf, hmachines]
  exact hstatus other

omit [Runtime] in
/-- `archive` takes a machine of any other status. -/
theorem exec_archive (id : String) (s : Store) :
    ((archive id).exec s).1 = s ∨ ∃ db, ((archive id).exec s).1 = { s with db } ∧
      db.machineStates = s.db.machineStates ∧
      ∀ other, statusOf db other = if other = id then some .archived else statusOf s.db other := by
  unfold archive
  rw [Task.exec_bind_of (exec_read _ s)]
  cases hfind : s.db.machines.find id with
  | none => exact .inl rfl
  | some m =>
    by_cases harchived : m.status = .archived
    · left
      simp only [if_pos harchived]
      rfl
    · right
      simp only [if_neg harchived]
      exact exec_move "Archived" "archivedAt" .archived hfind

omit [Runtime] in
/-- `unarchive` makes an archived machine active, whatever it was before. -/
theorem exec_unarchive (id : String) (s : Store) :
    (statusOf s.db id ≠ some .archived ∧ ((unarchive id).exec s).1 = s) ∨
      (statusOf s.db id = some .archived ∧ ∃ db, ((unarchive id).exec s).1 = { s with db } ∧
        db.machineStates = s.db.machineStates ∧
        ∀ other, statusOf db other = if other = id then some .active else statusOf s.db other) := by
  unfold unarchive
  rw [Task.exec_bind_of (exec_read _ s)]
  cases hfind : s.db.machines.find id with
  | none => exact .inl ⟨by simp [statusOf, hfind], rfl⟩
  | some m =>
    have hstatus : statusOf s.db id = some m.status := by rw [statusOf, hfind]; rfl
    by_cases harchived : m.status = .archived
    · right
      refine ⟨by rw [hstatus, harchived], ?_⟩
      simp only [ne_eq, harchived, not_true_eq_false, if_false]
      exact exec_move "Unarchived" "unarchivedAt" .active hfind
    · left
      refine ⟨by rw [hstatus]; exact fun h => harchived (Option.some.inj h), ?_⟩
      simp only [ne_eq, harchived, not_false_eq_true, if_true]
      rfl

omit [Runtime] in
/-- `adopt` refuses, or makes the machine active with the settings of the request. -/
theorem exec_adopt (data : AdoptRequest) (s : Store) :
    (∃ error, (adopt data).exec s = (s, some (.error error))) ∨
      ∃ db result, (adopt data).exec s = ({ s with db }, some (.ok result)) ∧
        db.settingsOf data.machineId = some data.stored ∧
        (∀ other, other ≠ data.machineId → db.settingsOf other = s.db.settingsOf other) ∧
        ∀ other, statusOf db other =
          if other = data.machineId then some .active else statusOf s.db other := by
  unfold adopt
  rw [Task.exec_bind_of (exec_read _ s)]
  cases hfind : s.db.machines.find data.machineId with
  | none => exact .inl ⟨_, rfl⟩
  | some m =>
    by_cases hactive : m.status = .active
    · left
      simp only [if_pos hactive]
      exact ⟨_, rfl⟩
    · right
      simp only [if_neg hactive]
      obtain ⟨db, hexec, hstates, hrow, hstatus⟩ := exec_updateMachine (fun m => { m with
        status := .active, displayName := data.displayName.filter (· ≠ "") })
        (fun _ => rfl) hfind
      have hexec : (activate data).exec s = ({ s with db }, some ()) := hexec
      have hexists : (db.machines.find data.machineId).isSome := by
        rw [hrow]
        rfl
      obtain ⟨db', hsave, hmachines, hsettings⟩ := saveSettings_spec hexists data.stored s.now
      refine ⟨db', (m, initialSettings data.toAdoptDTO), ?_, hsettings, fun other hne => ?_,
        fun other => ?_⟩
      · rw [Task.exec_bind_of hexec]
        unfold storeInitial
        rw [Task.exec_bind_of (exec_write_some (s := { s with db }) hsave)]
        rfl
      · have hother := congrArg Database.MachineRows.state
          ((Database.touches_upsertState hsave).others other hne)
        have hother : db'.machineStates.find other = db.machineStates.find other := hother
        rw [Database.settingsOf, hother, hstates]
        rfl
      · rw [statusOf, hmachines]
        exact hstatus other

/-- What `register` may do in one step: settings stay, and no machine becomes active. -/
def Registers (s s' : Store) : Prop :=
  s'.db.machineStates = s.db.machineStates ∧
    ∀ id, statusOf s'.db id = some .active → statusOf s.db id = some .active

omit [Runtime] in
theorem Registers.refl (s : Store) : Registers s s := ⟨rfl, fun _ h => h⟩

omit [Runtime] in
theorem Registers.trans {a b c : Store} (hab : Registers a b) (hbc : Registers b c) :
    Registers a c :=
  ⟨hbc.1.trans hab.1, fun id h => hab.2 id (hbc.2 id h)⟩

omit [Runtime] in
/-- A new machine is pending. -/
theorem registers_createMachine {s : Store} {m : Machine} {db : Database}
    (h : s.db.createMachine m = some db) (hstatus : m.status = .pending) :
    Registers s { s with db } := by
  unfold Database.createMachine at h
  split at h
  · cases h
  · obtain ⟨machines, hcreate, rfl⟩ := Option.map_eq_some_iff.mp h
    refine ⟨rfl, fun id hactive => ?_⟩
    rw [statusOf, Table.find_create hcreate] at hactive
    split at hactive
    · rw [Option.map_some, hstatus] at hactive
      cases hactive
    · exact hactive

theorem exec_register (machineId name hostname : Value) (apiKey : String) (s : Store) :
    Registers s ((registerMachine machineId name hostname apiKey).exec s).1 := by
  suffices h : (registerMachine machineId name hostname apiKey).Guar Eq Registers
      (fun _ _ => True) (fun _ => True) s from
    (h.exec (fun _ => rfl) Registers.refl fun _ _ _ => Registers.trans).1
  have hread : ∀ {α : Type} (f : Database → α) (t : Store),
      (read f).Guar Eq Registers (fun _ _ => True) (fun _ => True) t := fun f t =>
    Task.Guar.query Registers.refl (fun _ _ _ _ => trivial) fun _ => trivial
  have hget : ∀ {α : Type} (o : Option α) (t : Store),
      (Tasks.Task.get o).Guar Eq Registers (fun _ _ => True) (fun _ => True) t := fun o t =>
    Task.Guar.get (fun _ _ _ _ => trivial) fun _ => trivial
  refine Task.Guar.bind (fun _ => rfl) (fun id t _ => ?_) (hget _ s)
  refine Task.Guar.bind (fun _ => rfl) (fun byId t _ => ?_) (hread _ t)
  split
  · exact fun _ _ => trivial
  · refine Task.Guar.bind (Q := fun _ _ => True) (fun _ => rfl) (fun byName t _ => ?_) ?_
    · split
      · exact fun _ _ => trivial
      · refine Task.Guar.bind (Q := fun _ _ => True) (fun _ => rfl)
          (fun _ _ _ => Tasks.Task.Guar.done fun _ _ => trivial) ?_
        refine Task.Guar.op Registers.refl (fun u _ _ _ hf => ?_) fun _ => trivial
        obtain ⟨db, hdb, ⟨⟩⟩ := Option.map_eq_some_iff.mp hf
        obtain ⟨_, -, hdb⟩ := Option.bind_eq_some_iff.mp hdb
        obtain ⟨_, -, hdb⟩ := Option.bind_eq_some_iff.mp hdb
        exact ⟨registers_createMachine hdb rfl, fun _ _ => trivial⟩
    · unfold findByName
      split
      · exact Task.Guar.bind (fun _ => rfl) (fun f t _ => hread _ t) (hget _ _)
      · exact fun _ _ => trivial

/-! ## Every sequence of calls -/

/-- The adoptions that have succeeded left settings that are still there. -/
def Kept (s : State) : Prop := ∀ data ∈ s.adoptions, Adopted s data.machineId

/-- Only machines with an adoption on record are active, and its settings are there. -/
def Inv (s : State) : Prop :=
  (∀ id, statusOf s.store.db id = some .active → ∃ data ∈ s.adoptions, data.machineId = id) ∧
    Kept s

variable {s s' : State} {call : DateTime × Call}

omit [Runtime] in
theorem sound_of_inv (hi : Inv s) : Sound s := by
  intro id hactive
  obtain ⟨data, hdata, rfl⟩ := hi.1 id hactive
  exact hi.2 data hdata

omit [Runtime] in
/-- A call that changes no settings and adopts nothing keeps what is on record. -/
theorem Kept.of_states (hk : Kept s) {store : Store}
    (hstates : store.db.machineStates = s.store.db.machineStates) :
    Kept { s with store } := by
  intro data hdata
  obtain ⟨data', hdata', hid, hsettings⟩ := hk data hdata
  refine ⟨data', hdata', hid, ?_⟩
  rw [Database.settingsOf, hstates]
  exact hsettings

theorem inv_step (hi : Inv s) (hharm : Harmless s call) (hs : step s call = some s') :
    Inv s' := by
  obtain ⟨now, call⟩ := call
  cases call with
  | register machineId name hostname apiKey =>
    cases hs
    obtain ⟨hstates, hactive⟩ := exec_register machineId name hostname apiKey { s.store with now }
    exact ⟨fun id h => hi.1 id (hactive id h), hi.2.of_states hstates⟩
  | adopt data =>
    rcases exec_adopt data { s.store with now } with ⟨error, hexec⟩ |
      ⟨db, result, hexec, hsettings, hothers, hstatus⟩
    · simp only [step, hexec, Option.some.injEq] at hs
      subst hs
      exact ⟨hi.1, hi.2.of_states rfl⟩
    · simp only [step, hexec, Option.some.injEq] at hs
      subst hs
      refine ⟨fun id hactive => ?_, fun data' hdata' => ?_⟩
      · by_cases hid : id = data.machineId
        · exact ⟨data, by simp, hid.symm⟩
        · have hactive : statusOf db id = some .active := hactive
          rw [hstatus, if_neg hid] at hactive
          obtain ⟨data', hdata', hid'⟩ := hi.1 id hactive
          exact ⟨data', List.mem_append_left _ hdata', hid'⟩
      · -- the machine just adopted has the new settings, and the others keep theirs
        by_cases hid : data'.machineId = data.machineId
        · exact ⟨data, by simp, hid.symm, by rw [hid]; exact hsettings⟩
        · have hold : data' ∈ s.adoptions := by
            rcases List.mem_append.mp hdata' with h | h
            · exact h
            · exact absurd (congrArg AdoptRequest.machineId (List.mem_singleton.mp h)) hid
          obtain ⟨data'', hdata'', hid', hset⟩ := hi.2 data' hold
          exact ⟨data'', List.mem_append_left _ hdata'', hid', (hothers _ hid).trans hset⟩
  | archive id =>
    cases hs
    rcases exec_archive id { s.store with now } with hexec | ⟨db, hexec, hstates, hstatus⟩
    · rw [hexec]
      exact ⟨hi.1, hi.2.of_states rfl⟩
    · rw [hexec]
      refine ⟨fun other hactive => ?_, hi.2.of_states hstates⟩
      have hactive : statusOf db other = some .active := hactive
      rw [hstatus] at hactive
      split at hactive
      · cases hactive
      · exact hi.1 other hactive
  | unarchive id =>
    cases hs
    rcases exec_unarchive id { s.store with now } with ⟨-, hexec⟩ |
      ⟨harchived, db, hexec, hstates, hstatus⟩
    · rw [hexec]
      exact ⟨hi.1, hi.2.of_states rfl⟩
    · rw [hexec]
      refine ⟨fun other hactive => ?_, hi.2.of_states hstates⟩
      have hactive : statusOf db other = some .active := hactive
      rw [hstatus] at hactive
      split at hactive
      · rename_i hother
        obtain ⟨data, hdata, hid⟩ := hharm harchived
        exact ⟨data, hdata, hid.trans hother.symm⟩
      · exact hi.1 other hactive

/-- A call that is not harmless leaves an active machine that was never adopted. -/
theorem not_sound_of_harm (hharm : ¬ Harmless s call) (hs : step s call = some s') :
    ¬ Sound s' := by
  obtain ⟨now, call⟩ := call
  cases call with
  | unarchive id =>
    cases hs
    have harchived : statusOf s.store.db id = some .archived := by
      by_contra hne
      exact hharm fun h => absurd h hne
    have hnever : ¬ ∃ data ∈ s.adoptions, data.machineId = id := fun h => hharm fun _ => h
    rcases exec_unarchive id { s.store with now } with ⟨hne, -⟩ | ⟨-, db, hexec, -, hstatus⟩
    · exact absurd harchived hne
    · rw [hexec]
      intro hsound
      obtain ⟨data, hdata, hid, -⟩ := hsound id (by
        show statusOf db id = some .active
        rw [hstatus, if_pos rfl])
      exact hnever ⟨data, hdata, hid⟩
  | register machineId name hostname apiKey => exact absurd trivial hharm
  | adopt data => exact absurd trivial hharm
  | archive id => exact absurd trivial hharm

/-- **Only adopted machines become active** in a run exactly when no call of it takes back a
    machine that was archived without ever being adopted. -/
theorem sound_iff {start : Store} (hstart : ∀ id, statusOf start.db id ≠ some .active)
    (calls : List (DateTime × Call)) :
    Runs.EachState step Sound { store := start } calls ↔
      Runs.EachStep step (fun s call _ => Harmless s call) { store := start } calls := by
  refine Runs.eachState_iff (I := Inv) (fun _ _ _ => inv_step) (fun _ => sound_of_inv)
    (fun _ _ _ _ => not_sound_of_harm) ⟨fun id hactive => absurd hactive (hstart id), ?_⟩
  intro data hdata
  cases hdata

end Lifecycle

/-! ## A machine that was never adopted -/

/-- A machine registers, and is archived and taken back from the list of archived machines. -/
def neverAdopted : List (DateTime × Call) :=
  [(0, .register (some (.str "PC-2")) (some (.str "Workshop")) none "9d30"), (1, .archive "PC-2"),
    (2, .unarchive "PC-2")]

/-- A machine registers, is adopted, archived and taken back. -/
def adoptedFirst : List (DateTime × Call) :=
  [(0, .register (some (.str "PC-2")) (some (.str "Workshop")) none "9d30"),
    (1, .adopt { machineId := "PC-2" }), (2, .archive "PC-2"), (3, .unarchive "PC-2")]

def emptyStore : Store where
  db := .empty
  now := 0
  sockets := .empty

theorem sound_adoptedFirst :
    Runs.EachState (@step Channels.numericRuntime) Sound { store := emptyStore } adoptedFirst := by
  refine (@sound_iff Channels.numericRuntime emptyStore (fun id h => nomatch h) adoptedFirst).mpr ?_
  iterate 3
    refine fun s hs => ⟨trivial, ?_⟩
    cases hs
  exact fun s _ => ⟨fun _ => ⟨{ machineId := "PC-2" }, List.mem_cons_self, rfl⟩, trivial⟩

/-- The machine ends up active, and nobody has adopted it. -/
theorem not_sound_neverAdopted :
    ¬ Runs.EachState (@step Channels.numericRuntime) Sound { store := emptyStore }
      neverAdopted := by
  intro h
  obtain ⟨data, hdata, -⟩ := Runs.EachState.last h rfl "PC-2" rfl
  cases hdata

end Server.Lifecycle
