/-
  THE MACHINES OF THE DASHBOARD (client/src/context/MachineContext.tsx).

  Lists of machines come over the socket and as answers to requests.  `handleMachinesList` splits a
  list into pending machines and others; it belongs to the render whose `showArchived` it filters
  by, and so does the answer to the request that this render has sent.  `refreshMachines` stores
  its answer as it is.

  1. **The events** (`step`): an answer names the request that it is for, so that answers come in
     any order.

  2. `partitioned_iff`: the two lists stay partitioned exactly when no answer `Breaks` them: one
     that is stored as it is with a machine in it that should not be there, or with pending machines
     left from before, and one that is filtered for a render with another `showArchived`.
-/
import Mathlib.Tactic.ByContra
import Vorsight.Library.Run
import Vorsight.Server.Database

namespace Dashboard.MachineContext

open Server (MachineStatus)

inductive ConnectionStatus
  | online | unstable | offline | reachable
deriving DecidableEq, Repr

structure Machine where
  id : String
  name : String
  displayName : Option String := none
  hostname : Option String := none
  ipAddress : Option String := none
  isOnline : Bool
  connectionStatus : Option ConnectionStatus := none
  pingStatus : Option String := none
  statusText : Option String := none
  lastSeen : Option String := none
  status : Option MachineStatus := none
  settings : Option String := none
  appliedSettings : Option String := none
  pingLatency : Option Int := none
  lastPingSuccess : Option String := none
deriving DecidableEq, Repr

/-- `getAll(undefined, includeArchived)` of the server, where the machines are `rows`. -/
def getAll (includeArchived : Bool) (rows : List Machine) : List Machine :=
  if includeArchived then rows else rows.filter (·.status ≠ some .archived)

/-- A `GET /machines`, and the `showArchived` of the render that has sent it. -/
inductive Request
  /-- the effect's own, "in case socket isn't ready" -/
  | initial (showArchived : Bool)
  | refresh (showArchived : Bool)
deriving DecidableEq, Repr

/-- The state, the requests under way, and two facts about the past. -/
structure State where
  machines : List Machine := []
  pendingMachines : List Machine := []
  selectedMachine : Option Machine := none
  isLoading : Bool := true
  showArchived : Bool := false
  requests : List Request := []
  /-- the list processed last -/
  list : Option (List Machine) := none
  /-- one has been processed since `showArchived` was changed -/
  listed : Bool := false

/-! ## The handlers -/

/-- The machine that is selected when a list has come. -/
def reselect (activeMachines : List Machine) : Option Machine → Option Machine
  | some currentSelected =>
    match activeMachines.find? (·.id = currentSelected.id) with
    | some updatedMachine => some updatedMachine
    | none => some currentSelected
  | none => activeMachines.head?

/-- `handleMachinesList`, of a render with this `showArchived`. -/
def handleMachinesList (showArchived : Bool) (machinesList : List Machine) (s : State) : State :=
  let activeMachines := machinesList.filter (·.status ≠ some .pending)
  let activeMachines :=
    if showArchived then activeMachines else activeMachines.filter (·.status ≠ some .archived)
  { s with
    machines := activeMachines
    pendingMachines := machinesList.filter (·.status = some .pending)
    selectedMachine := reselect activeMachines s.selectedMachine
    isLoading := false
    list := some machinesList
    listed := true }

def setOnline (machineId : String) (isOnline : Bool) (now : String) (s : State) : State :=
  { s with machines := s.machines.map fun m =>
      if m.id = machineId then { m with isOnline, lastSeen := some now } else m }

def handleMachineOnline (machineId now : String) (s : State) : State :=
  if s.machines.any (·.id = machineId) then setOnline machineId true now s
  else s  -- a new machine: the full list is requested

def handleMachineOffline (machineId now : String) (s : State) : State :=
  setOnline machineId false now s

/-- `setMachines(res.data)` -/
def storeList (machinesList : List Machine) (s : State) : State :=
  { s with machines := machinesList, list := some machinesList, listed := true }

/-- What `refreshMachines` asks for. -/
def refreshRequests (isConnected : Bool) (showArchived : Bool) : List Request :=
  if isConnected then [] else [.refresh showArchived]

inductive Event
  | machinesList (machinesList : List Machine)
  | machineOnline (machineId now : String)
  | machineOffline (machineId now : String)
  /-- called by a component, or by the effect when the provider is mounted -/
  | refreshMachines (isConnected : Bool)
  | selectMachine (machineId : String)
  | setShowArchived (shown : Bool) (isConnected : Bool)
  /-- the answer, when the server has these machines -/
  | answer (request : Request) (rows : List Machine)
  | failure (request : Request)

def step (s : State) : Event → Option State
  | .machinesList machinesList => some (handleMachinesList s.showArchived machinesList s)
  | .machineOnline machineId now => some (handleMachineOnline machineId now s)
  | .machineOffline machineId now => some (handleMachineOffline machineId now s)
  | .refreshMachines isConnected =>
    some { s with requests := s.requests ++ refreshRequests isConnected s.showArchived }
  | .selectMachine machineId =>
    match s.machines.find? (·.id = machineId) with
    | some machine => some { s with selectedMachine := some machine }
    | none => some s
  | .setShowArchived shown isConnected =>
    if shown = s.showArchived then some s
    else some { s with
      showArchived := shown
      listed := false
      -- both effects run again
      requests := s.requests ++ .initial shown :: refreshRequests isConnected shown }
  | .answer request rows =>
    if request ∈ s.requests then
      let s := { s with requests := s.requests.erase request }
      match request with
      | .initial showArchived =>
        some (handleMachinesList showArchived (getAll showArchived rows) s)
      | .refresh showArchived => some (storeList (getAll showArchived rows) s)
    else none
  | .failure request =>
    if request ∈ s.requests then
      let s := { s with requests := s.requests.erase request }
      match request with
      | .initial _ => some { s with isLoading := false }
      | .refresh _ => some s
    else none

/-- The provider, mounted. -/
def start : State := { requests := [.initial false] }

/-! ## The partition -/

/-- **The machine lists are partitioned**, once a list has been processed. -/
def Partitioned (s : State) : Prop :=
  ∀ list, s.list = some list →
    (∀ m ∈ s.machines, m.status ≠ some .pending) ∧
    (s.listed = true → s.showArchived = false → ∀ m ∈ s.machines, m.status ≠ some .archived) ∧
    s.pendingMachines = list.filter (·.status = some .pending)

/-- An answer to the effect's request of a render that showed archived machines, with one of them,
    when they are not shown any more; or one that is stored as it is, with a pending machine, with
    an archived one that is not shown, or while other pending machines are listed. -/
def Breaks (s : State) : Event → Prop
  | .answer (.initial showArchived) rows =>
    showArchived = true ∧ s.showArchived = false ∧ ∃ m ∈ rows, m.status = some .archived
  | .answer (.refresh showArchived) rows =>
    (∃ m ∈ getAll showArchived rows, m.status = some .pending ∨
      s.showArchived = false ∧ m.status = some .archived) ∨ s.pendingMachines ≠ []
  | _ => False

variable {s s' : State} {event : Event} {list rows : List Machine} {showArchived : Bool}

/-- What a filtered list does. -/
theorem partitioned_handleMachinesList :
    Partitioned (handleMachinesList showArchived list s) ↔
      (showArchived = true → s.showArchived = false → ∀ m ∈ list, m.status ≠ some .archived) := by
  unfold Partitioned handleMachinesList
  cases showArchived with
  | false =>
    refine iff_of_true ?_ fun h => by cases h
    rintro _ ⟨⟩
    refine ⟨fun m hm => ?_, fun _ _ m hm => ?_, rfl⟩
    · have hactive := List.mem_of_mem_filter hm
      simpa using (List.mem_filter.mp hactive).2
    · simpa using (List.mem_filter.mp hm).2
  | true =>
    constructor
    · intro h _ hhidden m hm harchived
      obtain ⟨-, hnone, -⟩ := h list rfl
      refine hnone rfl hhidden m (List.mem_filter.mpr ⟨hm, ?_⟩) harchived
      simp [harchived]
    · rintro h _ ⟨⟩
      refine ⟨fun m hm => ?_, fun _ hhidden m hm => ?_, rfl⟩
      · simpa using (List.mem_filter.mp hm).2
      · exact h rfl hhidden m (List.mem_of_mem_filter hm)

/-- What a list does that is stored as it is. -/
theorem partitioned_storeList : Partitioned (storeList list s) ↔
    (∀ m ∈ list, m.status ≠ some .pending) ∧
      (s.showArchived = false → ∀ m ∈ list, m.status ≠ some .archived) ∧
      s.pendingMachines = [] := by
  have hnone : (∀ m ∈ list, m.status ≠ some .pending) →
      list.filter (·.status = some .pending) = [] := fun h =>
    List.filter_eq_nil_iff.mpr fun m hm => by simpa using h m hm
  constructor
  · intro h
    obtain ⟨hactive, harchived, hpending⟩ := h list rfl
    exact ⟨hactive, harchived rfl, hpending.trans (hnone hactive)⟩
  · rintro ⟨hactive, harchived, hpending⟩ _ ⟨⟩
    exact ⟨hactive, fun _ => harchived, hpending.trans (hnone hactive).symm⟩

/-- No list is processed, and no machine gets another status. -/
theorem partitioned_of_frame (h : Partitioned s) (hlist : s'.list = s.list)
    (hpending : s'.pendingMachines = s.pendingMachines)
    (hlisted : s'.listed = true → s.listed = true ∧ s'.showArchived = s.showArchived)
    (hmachines : ∀ m ∈ s'.machines, ∃ m₀ ∈ s.machines, m.status = m₀.status) : Partitioned s' := by
  intro list hsome
  obtain ⟨hactive, harchived, hsplit⟩ := h list (hlist ▸ hsome)
  refine ⟨fun m hm => ?_, fun hlisted' hhidden m hm => ?_, hpending.trans hsplit⟩
  · obtain ⟨m₀, hm₀, hstatus⟩ := hmachines m hm
    rw [hstatus]
    exact hactive m₀ hm₀
  · obtain ⟨hbefore, hsame⟩ := hlisted hlisted'
    obtain ⟨m₀, hm₀, hstatus⟩ := hmachines m hm
    rw [hstatus]
    exact harchived hbefore (hsame ▸ hhidden) m₀ hm₀

theorem partitioned_setOnline {machineId now : String} {isOnline : Bool} (h : Partitioned s) :
    Partitioned (setOnline machineId isOnline now s) := by
  refine partitioned_of_frame h rfl rfl (fun hlisted => ⟨hlisted, rfl⟩) fun m hm => ?_
  obtain ⟨m₀, hm₀, rfl⟩ := List.mem_map.mp hm
  refine ⟨m₀, hm₀, ?_⟩
  split
  · rfl
  · rfl

/-- An answer that is stored as it is. -/
theorem partitioned_refresh_iff (request : Request) :
    Partitioned (storeList (getAll showArchived rows)
        { s with requests := s.requests.erase request }) ↔
      ¬ Breaks s (.answer (.refresh showArchived) rows) := by
  rw [partitioned_storeList]
  unfold Breaks
  dsimp only
  constructor
  · rintro ⟨hactive, harchived, hpending⟩ (⟨m, hm, hstatus | ⟨hhidden, hstatus⟩⟩ | hleft)
    · exact hactive m hm hstatus
    · exact harchived hhidden m hm hstatus
    · exact hleft hpending
  · intro h
    refine ⟨fun m hm hstatus => ?_, fun hhidden m hm hstatus => ?_, ?_⟩
    · exact h (.inl ⟨m, hm, .inl hstatus⟩)
    · exact h (.inl ⟨m, hm, .inr ⟨hhidden, hstatus⟩⟩)
    · by_contra hleft
      exact h (.inr hleft)

/-- An answer that is filtered. -/
theorem partitioned_initial_iff (request : Request) :
    Partitioned (handleMachinesList showArchived (getAll showArchived rows)
        { s with requests := s.requests.erase request }) ↔
      ¬ Breaks s (.answer (.initial showArchived) rows) := by
  rw [partitioned_handleMachinesList]
  unfold Breaks
  dsimp only
  constructor
  · rintro h ⟨rfl, hhidden, m, hm, hstatus⟩
    exact h rfl hhidden m hm hstatus
  · rintro h rfl hhidden m hm hstatus
    exact h ⟨rfl, hhidden, m, hm, hstatus⟩

/-- **One step** keeps the partition exactly when it does not break it. -/
theorem partitioned_step_iff (h : Partitioned s) (hstep : step s event = some s') :
    Partitioned s' ↔ ¬ Breaks s event := by
  -- an event that breaks nothing, and processes no list
  have hframe : ∀ {s' : State}, s'.list = s.list → s'.pendingMachines = s.pendingMachines →
      (s'.listed = true → s.listed = true ∧ s'.showArchived = s.showArchived) →
      s'.machines = s.machines → (Partitioned s' ↔ ¬ False) := by
    intro s' hlist hpending hlisted hmachines
    refine iff_of_true ?_ not_false
    exact partitioned_of_frame h hlist hpending hlisted fun m hm => ⟨m, hmachines ▸ hm, rfl⟩
  cases event with
  | machinesList machinesList =>
    cases hstep
    refine iff_of_true (partitioned_handleMachinesList.mpr fun hshown hhidden => ?_) not_false
    rw [hshown] at hhidden
    cases hhidden
  | machineOnline machineId now =>
    cases hstep
    refine iff_of_true ?_ not_false
    unfold handleMachineOnline
    split
    · exact partitioned_setOnline h
    · exact h
  | machineOffline machineId now =>
    cases hstep
    exact iff_of_true (partitioned_setOnline h) not_false
  | refreshMachines isConnected =>
    cases hstep
    exact hframe rfl rfl (fun hlisted => ⟨hlisted, rfl⟩) rfl
  | selectMachine machineId =>
    rw [step] at hstep
    split at hstep
    · cases hstep
      exact hframe rfl rfl (fun hlisted => ⟨hlisted, rfl⟩) rfl
    · cases hstep
      exact iff_of_true h not_false
  | setShowArchived shown isConnected =>
    rw [step] at hstep
    split at hstep
    · cases hstep
      exact iff_of_true h not_false
    · cases hstep
      exact hframe rfl rfl (fun hlisted => by cases hlisted) rfl
  | answer request rows =>
    rw [step] at hstep
    split at hstep
    · cases request with
      | initial showArchived =>
        cases hstep
        exact partitioned_initial_iff (.initial showArchived)
      | refresh showArchived =>
        cases hstep
        exact partitioned_refresh_iff (.refresh showArchived)
    · cases hstep
  | failure request =>
    rw [step] at hstep
    split at hstep
    · cases request with
      | initial showArchived =>
        cases hstep
        exact hframe rfl rfl (fun hlisted => ⟨hlisted, rfl⟩) rfl
      | refresh showArchived =>
        cases hstep
        exact hframe rfl rfl (fun hlisted => ⟨hlisted, rfl⟩) rfl
    · cases hstep

/-- **The lists stay partitioned** in every state of a run, exactly when no answer breaks them. -/
theorem partitioned_iff {events : List Event} :
    Runs.EachState step Partitioned start events ↔
      Runs.EachStep step (fun s event _ => ¬ Breaks s event) start events := by
  have hstart : Partitioned start := fun list hlist => by cases hlist
  refine Runs.eachState_iff (I := Partitioned) (G := fun s event => ¬ Breaks s event) ?_ ?_ ?_
    hstart
  · exact fun s event s' h hbreaks hstep => (partitioned_step_iff h hstep).mpr hbreaks
  · exact fun s h => h
  · exact fun s event s' h hbreaks hstep hp => hbreaks ((partitioned_step_iff h hstep).mp hp)

/-- A machine that waits for its adoption. -/
def waiting : Machine :=
  { id := "desk", name := "Desk", isOnline := true, status := some .pending }

/-- The socket is not there yet when the page is loaded, and both requests are answered. -/
theorem not_partitioned_twoAnswers : ¬ ∀ events : List Event,
    Runs.EachState step Partitioned start events := by
  intro h
  obtain ⟨-, hsteps⟩ := h [.refreshMachines false, .answer (.initial false) [waiting],
    .answer (.refresh false) [waiting]]
  obtain ⟨-, hsteps⟩ := hsteps _ rfl
  obtain ⟨-, hsteps⟩ := hsteps _ rfl
  obtain ⟨hpartitioned, -⟩ := hsteps _ rfl
  obtain ⟨hactive, -⟩ := hpartitioned [waiting] rfl
  exact hactive waiting List.mem_cons_self rfl

end Dashboard.MachineContext
