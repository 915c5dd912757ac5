/-
  WHO MAY CHANGE A MACHINE'S ROWS through the machine-side channels.

  Any number of sockets and REST clients send anything in any order; the tasks of their handlers
  interleave at every database call, and web routes and jobs change the store in between.

  1. **The claim of the design** (`Authorized`): a step changes rows of a machine only for a socket
     that has completed `machine:connect` with that machine's id and key, or for a request that
     carries the machine's key.

  2. **Where it fails.**  The socket handlers believe the id in the payload, `PUT /machines/:id` the
     id in the URL, and `machine:connect` accepts an object as the key, which Prisma reads as a
     filter.  `Harmless` says of a message or request, and the store its handler steps in, that it
     does not get that far.

  3. **The crux (`first_handler`)** — a handler that starts harmlessly keeps the guarantee whatever
     the others do: the status check and the credential check of its first step decide, and what it
     relies on afterwards (keys, completed connects, the owners of sessions) no one takes back.
-/
import Vorsight.Library.Run
import Vorsight.Server.Reports

namespace Server.Channels

open Js Tables Tasks

section Channels

variable [Runtime]

/-! ## The system -/

/-- What a task is run for. -/
inductive Origin
  | socket (id : String) (message : Message)
  | request (request : Request)

def handler : Origin → Task Store Unit
  | .socket id message => onMessage id message
  | .request request => do
    let _ ← onRequest request
    pure ()

/-- What everyone can rely on: machines keep their keys, sessions their machines, and a completed
    connect stays completed. -/
structure Rely (s s' : Store) : Prop where
  db : s.db.Evolves s'.db
  connects : ∀ c ∈ s.connects, c ∈ s'.connects

/-- A change made by a web route, a job or the clock. -/
structure Outside where
  change : Store → Store
  relied : ∀ s, Rely s (change s)

/-- The server with its clients. -/
def step : Pool Origin Store → Label Origin Outside → Option (Pool Origin Store) :=
  Pool.step handler Outside.change

/-! ## The design's claim -/

/-- The socket has completed `machine:connect` with the machine's id and key. -/
def Connected (s : Store) (socket machine : String) : Prop :=
  ∃ key, s.db.keyOf machine = some key ∧
    { socket, machineId := some (.str machine), apiKey := some (.str key) } ∈ s.connects

/-- The request carries the machine's key. -/
def Carries (s : Store) (request : Request) (machine : String) : Prop :=
  ∃ key, s.db.keyOf machine = some key ∧ request.apiKey = some key

def Entitled (s : Store) (machine : String) : Origin → Prop
  | .socket id _ => Connected s id machine
  | .request (.register ..) => True
  | .request r => Carries s r machine

/-- Rows change only of machines the origin is entitled to. -/
def Authorized (s s' : Store) (w : Origin) : Prop :=
  ∀ machine, s'.db.rowsOf machine ≠ s.db.rowsOf machine → Entitled s machine w

/-! ## The condition -/

/-- The message names a machine that is in one of the given states, and the socket has not
    connected as that machine. -/
def Impostor (s : Store) (socket : String) (data : Value) (states : List MachineStatus) : Prop :=
  ∃ machine, prop data "machineId" = some (some (.str machine)) ∧
    (∃ m, s.db.machines.find machine = some m ∧ m.status ∈ states) ∧ ¬ Connected s socket machine

/-- The message gives an object as the key, and as a filter it selects the machine's key. -/
def Injects (s : Store) (data : Value) : Prop :=
  ∃ machine fields key select, prop data "machineId" = some (some (.str machine)) ∧
    prop data "apiKey" = some (some (.obj fields)) ∧ s.db.keyOf machine = some key ∧
    Runtime.stringFilter fields = some select ∧ select key = true

/-- The update changes a machine's row, and the key carried is a machine's but not that one's. -/
def Trespasses (s : Store) (apiKey : Option String) (id : String) (body : Value) : Prop :=
  ∃ key own name hostname update m, apiKey = some key ∧ s.db.keyOf own = some key ∧
    s.db.keyOf id ≠ some key ∧ prop body "name" = some name ∧
    prop body "hostname" = some hostname ∧ dataToUpdate name hostname = some update ∧
    s.db.machines.find id = some m ∧ update.apply m ≠ m

/-- The store does not let the origin's handler reach another machine's rows. -/
def Harmless (s : Store) : Origin → Prop
  | .socket _ (.machineConnect data) => ¬ Injects s data
  | .socket id (.machineHeartbeat data) => ¬ Impostor s id data [.active, .pending]
  | .socket id (.machineActivity data) => ¬ Impostor s id data [.active]
  | .socket id (.machineAudit data) => ¬ Impostor s id data [.active]
  | .socket id (.machineScreenshot data) => ¬ Impostor s id data [.active]
  | .request (.put apiKey id body) => ¬ Trespasses s apiKey id body
  | _ => True

/-! ## Rely and guarantee -/

omit [Runtime] in
theorem Rely.refl (s : Store) : Rely s s := ⟨.refl _, fun _ h => h⟩

omit [Runtime] in
theorem Rely.trans {a b c : Store} (hab : Rely a b) (hbc : Rely b c) : Rely a c :=
  ⟨hab.db.trans hbc.db, fun x hx => hbc.connects x (hab.connects x hx)⟩

/-- A step of the handler for `w`. -/
def Guarantee (w : Origin) (s s' : Store) : Prop :=
  Rely s s' ∧ (Harmless s w → Authorized s s' w)

/-- The triple for a part of the handler for `w`: it may throw at any point. -/
abbrev Keeps {α : Type} (w : Origin) (Q : α → Store → Prop) (p : Task Store α) (s : Store) : Prop :=
  p.Guar Rely (Guarantee w) Q (fun _ => True) s

variable {w : Origin} {s s' : Store} {machine : String}

omit [Runtime] in
theorem Connected.stable {socket : String} (h : Connected s socket machine) (hr : Rely s s') :
    Connected s' socket machine := by
  obtain ⟨key, hkey, hmem⟩ := h
  exact ⟨key, hr.db.keys machine key hkey, hr.connects _ hmem⟩

omit [Runtime] in
/-- An entitlement is not taken back. -/
theorem Entitled.stable (h : Entitled s machine w) (hr : Rely s s') : Entitled s' machine w := by
  have hcarries : ∀ r, Carries s r machine → Carries s' r machine := by
    rintro r ⟨key, hkey, hr'⟩
    exact ⟨key, hr.db.keys machine key hkey, hr'⟩
  cases w with
  | socket id message => exact Connected.stable h hr
  | request r =>
    cases r with
    | register body key => trivial
    | put apiKey id body => exact hcarries _ h
    | applied apiKey body => exact hcarries _ h
    | schedule apiKey => exact hcarries _ h
    | logs apiKey body => exact hcarries _ h
    | activity apiKey body => exact hcarries _ h
    | upload apiKey => exact hcarries _ h

/-- A step that leaves the database alone. -/
theorem guarantee_of_db (hr : Rely s s') (hdb : s'.db = s.db) : Guarantee w s s' :=
  ⟨hr, fun _ M hne => absurd (by rw [hdb]) hne⟩

theorem guarantee_refl : Guarantee w s s := guarantee_of_db (.refl s) rfl

/-- An operation for a machine the origin is entitled to. -/
theorem guarantee_of_touches {db : Database} (ht : s.db.Touches machine db)
    (hent : Harmless s w → db.rowsOf machine ≠ s.db.rowsOf machine → Entitled s machine w) :
    Guarantee w s { s with db } := by
  refine ⟨⟨ht.toEvolves, fun _ h => h⟩, fun hharm M hne => ?_⟩
  by_cases hM : M = machine
  · subst hM
    exact hent hharm hne
  · exact absurd (ht.others M hM) hne

theorem keeps_write (machine : String) {f : Database → DateTime → Option Database}
    (hf : ∀ t db, Rely s t → f t.db t.now = some db → t.db.Touches machine db ∧
      (Harmless t w → db.rowsOf machine ≠ t.db.rowsOf machine → Entitled t machine w)) :
    Keeps w (fun _ u => Rely s u) (write f) s := by
  refine Task.Guar.op (fun _ => guarantee_refl) (fun t _ _ hst hfu => ?_) fun _ => trivial
  obtain ⟨db, hdb, ⟨⟩⟩ := Option.map_eq_some_iff.mp hfu
  obtain ⟨htouch, hent⟩ := hf t db hst hdb
  have hG := guarantee_of_touches htouch hent
  exact ⟨hG, fun v hv => hst.trans (hG.1.trans hv)⟩

/-- A write for a machine the origin is entitled to. -/
theorem keeps_write_entitled {f : Database → DateTime → Option Database}
    (hent : Entitled s machine w)
    (hf : ∀ t db, Rely s t → f t.db t.now = some db → t.db.Touches machine db) :
    Keeps w (fun _ u => Rely s u) (write f) s :=
  keeps_write machine fun t db hst hdb => ⟨hf t db hst hdb, fun _ _ => hent.stable hst⟩

theorem keeps_read {α : Type} {f : Database → α} :
    Keeps w (fun a u => ∃ t, Rely s t ∧ Rely t u ∧ a = f t.db) (read f) s :=
  Task.Guar.query (fun _ => guarantee_refl) (fun t _ hst htu => ⟨t, hst, htu, rfl⟩) fun _ => trivial

theorem keeps_emit {target : Target} {event : DateTime → Event} :
    Keeps w (fun _ u => Rely s u) (emit target event) s := by
  refine Task.Guar.effect (fun t _ => guarantee_of_db ⟨.refl _, fun _ h => h⟩ rfl) ?_
  intro t u hst htu
  have hemit : Rely t (t.emit target (event t.now)) := ⟨.refl _, fun _ h => h⟩
  exact hst.trans (hemit.trans htu)

theorem keeps_look {α : Type} {f : Store → α} :
    Keeps w (fun _ u => Rely s u) (Tasks.Task.look f) s :=
  Task.Guar.look (fun _ => guarantee_refl) fun _ _ hst htu => hst.trans htu

theorem keeps_get {α : Type} {o : Option α} :
    Keeps w (fun a u => o = some a ∧ Rely s u) (Tasks.Task.get o) s :=
  Task.Guar.get (fun _ _ ho hs => ⟨ho, hs⟩) fun _ => trivial

theorem keeps_done {α : Type} {a : α} : Keeps w (fun _ _ => True) (Tasks.Task.done a) s :=
  fun _ _ => trivial

theorem keeps_bind {α β : Type} {Q : α → Store → Prop} {p : Task Store α} {k : α → Task Store β}
    {Q' : β → Store → Prop} (hp : Keeps w Q p s) (hk : ∀ a t, Q a t → Keeps w Q' (k a) t) :
    Keeps w Q' (p >>= k) s :=
  Task.Guar.bind Rely.refl hk hp

theorem keeps_handle {α : Type} {Q : α → Store → Prop} {p c : Task Store α} (hp : Keeps w Q p s)
    (hc : ∀ t, Keeps w Q c t) : Keeps w Q (p.handle c) s :=
  Task.Guar.handle Rely.refl (fun t _ => hc t) hp

theorem keeps_weaken {α : Type} {Q : α → Store → Prop} {p : Task Store α} (hp : Keeps w Q p s) :
    Keeps w (fun _ _ => True) p s :=
  hp.mono (fun _ _ _ => trivial) fun _ h => h

theorem keeps_broadcast {target : Target} :
    Keeps w (fun _ _ => True) (broadcastMachineList target) s :=
  keeps_handle (keeps_bind keeps_read fun _ _ _ => keeps_weaken keeps_emit) fun _ => keeps_done

/-! ## The parts of the handlers behind their checks -/

omit [Runtime] in
theorem rely_of_writes (h : Reports.Writes machine s s') : Rely s s' :=
  ⟨h.drifts, fun _ hc => h.connects ▸ hc⟩

/-- **What works for one machine only** keeps the guarantee of an origin entitled to it. -/
theorem keeps_of_confined {α : Type} {Q : α → Store → Prop} {p : Task Store α}
    (hent : Entitled s machine w) (hp : Reports.Confined machine Q p s) : Keeps w Q p s := by
  refine hp.weaken (J := fun t => Entitled t machine w) (fun _ _ hr => hr.db)
    (fun _ _ => Entitled.stable) (fun _ _ hJ h => hJ.stable (rely_of_writes h)) ?_ hent
  intro t t' hJ h
  refine ⟨rely_of_writes h, fun _ M hne => ?_⟩
  by_cases hM : M = machine
  · exact hM ▸ hJ
  · exact absurd (h.touches.others M hM) hne

/-- `PUT /machines/:id` with a key that is a machine's: only a harmless store lets the row
    change, and then it is the row of the key's machine. -/
theorem keeps_putMachine {apiKey : Option String} {id key own : String} {body : Value}
    (hkey : apiKey = some key) (hown : s.db.keyOf own = some key) :
    Keeps (.request (.put apiKey id body)) (fun _ _ => True) (putMachine id body) s := by
  refine keeps_handle (keeps_bind keeps_get ?_) fun _ => keeps_done
  rintro name t ⟨hname, ht⟩
  refine keeps_bind keeps_get ?_
  rintro hostname u ⟨hhostname, hu⟩
  refine keeps_bind (keeps_write id fun v db hv h => ?_) fun _ _ _ => keeps_done
  obtain ⟨update, hupdate, h⟩ := Option.bind_eq_some_iff.mp h
  refine ⟨Database.touches_updateMachine h fun _ => rfl, fun hharm hne => ?_⟩
  have hown' := (ht.trans (hu.trans hv)).db.keys own key hown
  -- the row in the path is the key's own, or the update changes it and the store is not harmless
  by_cases hid : v.db.keyOf id = some key
  · exact ⟨key, hid, hkey⟩
  · obtain ⟨hsome, rfl⟩ := Database.forMachine_eq_some.mp h
    obtain ⟨m, hm⟩ := Option.isSome_iff_exists.mp hsome
    by_cases happly : update.apply m = m
    · have hrow : (v.db.machines.update id update.apply update.apply_id).find id =
          v.db.machines.find id := by
        rw [Table.find_update, if_pos rfl, hm, Option.map_some, happly]
      exact (hne (Database.MachineRows.ext hrow rfl rfl rfl rfl rfl)).elim
    · exact absurd ⟨key, own, name, hostname, update, m, hkey, hown', hid, hname, hhostname,
        hupdate, hm, happly⟩ hharm

theorem keeps_findByName {name : Value} : Keeps w (fun _ _ => True) (findByName name) s := by
  unfold findByName
  split
  · exact keeps_bind keeps_get fun _ _ _ => keeps_weaken keeps_read
  · exact keeps_done

theorem keeps_registerMachine {body machineId name hostname : Value} {key apiKey : String} :
    Keeps (.request (.register body key)) (fun _ _ => True)
      (registerMachine machineId name hostname apiKey) s := by
  refine keeps_bind keeps_get fun id _ _ => keeps_bind keeps_read fun byId _ _ => ?_
  split
  · exact keeps_done
  · refine keeps_bind keeps_findByName fun byName _ _ => ?_
    split
    · exact keeps_done
    · refine keeps_bind (keeps_write id fun _ _ _ h => ?_) fun _ _ _ => keeps_done
      obtain ⟨_, -, h⟩ := Option.bind_eq_some_iff.mp h
      obtain ⟨_, -, h⟩ := Option.bind_eq_some_iff.mp h
      exact ⟨Database.touches_createMachine h, fun _ _ => trivial⟩

/-- A new machine may be registered by anyone. -/
theorem keeps_postRegister {body : Value} {key : String} :
    Keeps (.request (.register body key)) (fun _ _ => True) (postRegister body key) s := by
  refine keeps_handle (keeps_bind keeps_get fun machineId _ _ => keeps_bind keeps_get
    fun name _ _ => keeps_bind keeps_get fun hostname _ _ => ?_) fun _ => keeps_done
  split
  · exact keeps_done
  · refine keeps_bind keeps_registerMachine fun r _ _ => ?_
    split
    split
    · exact keeps_bind keeps_emit fun _ _ _ => keeps_done
    · exact keeps_done

/-- A route behind `authenticateMachine` starts with a key that is its machine's. -/
theorem keeps_authenticated {apiKey : Option String}
    {route : Machine → Task Store (Response Json)}
    (hroute : ∀ m t key, apiKey = some key → t.db.keyOf m.id = some key →
      Keeps w (fun _ _ => True) (route m) t) :
    Keeps w (fun _ _ => True) (authenticateMachine apiKey route) s := by
  unfold authenticateMachine
  split
  · exact keeps_done
  · rename_i key hkey
    have hkey := (Option.filter_eq_some_iff.mp hkey).1
    -- keys stay, so the key found is still the machine's when the route starts
    have hfind : Keeps w (fun found t => ∀ m, found = some (some m) → t.db.keyOf m.id = some key)
        (Task.handle (some <$> read fun db => db.machines.rows.find? fun m => m.apiKey = key)
          (pure none)) s := by
      refine keeps_handle (keeps_bind keeps_read ?_) fun _ u _ m hm => nomatch hm
      rintro found t ⟨t', -, ht, rfl⟩ u hu m hm
      have hfound := Option.some.inj hm
      have hmem := List.mem_of_find?_eq_some hfound
      have hmkey : m.apiKey = key := by simpa using List.find?_some hfound
      have hrow : t'.db.keyOf m.id = some key := by
        rw [Database.keyOf, Table.find_eq_some.mpr ⟨hmem, rfl⟩, Option.map_some, hmkey]
      exact (ht.trans hu).db.keys m.id key hrow
    refine keeps_bind hfind fun found t hfound => ?_
    split
    · exact keeps_done
    · exact keeps_done
    · exact hroute _ t key hkey (hfound _ rfl)

theorem keeps_request (r : Request) :
    Keeps (.request r) (fun _ _ => True) (handler (.request r)) s := by
  have hroute : Keeps (.request r) (fun _ _ => True) (onRequest r) s := by
    cases r with
    | register body key => exact keeps_postRegister
    | put apiKey id body =>
      exact keeps_authenticated fun m t key hkey hown => keeps_putMachine hkey hown
    | applied apiKey body =>
      exact keeps_authenticated fun m t key hkey hown =>
        keeps_of_confined ⟨key, hown, hkey⟩ (Reports.confined_postApplied _ _)
    | schedule apiKey =>
      exact keeps_authenticated fun m t key hkey hown =>
        keeps_of_confined ⟨key, hown, hkey⟩ Reports.confined_getSchedule
    | logs apiKey body =>
      exact keeps_authenticated fun m t key hkey hown =>
        keeps_of_confined ⟨key, hown, hkey⟩ Reports.confined_postLogs
    | activity apiKey body =>
      exact keeps_authenticated fun m t key hkey hown =>
        keeps_of_confined ⟨key, hown, hkey⟩ (Reports.confined_postActivity _ _)
    | upload apiKey => exact keeps_authenticated fun m t key hkey hown => keeps_done
  exact keeps_bind hroute fun _ _ _ => keeps_done

/-! ## The socket handlers from their first step -/

/-- The triple for a handler that is about to start. -/
abbrev Starts (w : Origin) (p : Task Store Unit) (s : Store) : Prop :=
  p.First Rely (Guarantee w) (fun _ _ => True) (fun _ => True) s

theorem starts_handle {p c : Task Store Unit} (hp : Starts w p s)
    (hc : ∀ t, Keeps w (fun _ _ => True) c t) : Starts w (p.handle c) s :=
  Tasks.Task.First.handle Rely.refl (fun t _ => hc t) hp

theorem starts_get {α : Type} {o : Option α} {k : α → Task Store Unit}
    (hk : ∀ a, o = some a → Starts w (k a) s) : Starts w (Tasks.Task.get o >>= k) s :=
  Tasks.Task.First.get_bind hk fun _ => trivial

theorem starts_read {α : Type} {f : Database → α} {k : α → Task Store Unit}
    (hk : ∀ t, Rely s t → Keeps w (fun _ _ => True) (k (f s.db)) t) :
    Starts w (read f >>= k) s := by
  have hread : (read f).First Rely (Guarantee w) (fun a t => a = f s.db ∧ Rely s t)
      (fun _ => True) s :=
    Tasks.Task.First.query guarantee_refl (fun t ht => ⟨rfl, ht⟩) fun _ => trivial
  refine hread.bind Rely.refl ?_
  rintro a t ⟨rfl, ht⟩
  exact hk t ht

theorem starts_done : Starts w (pure ()) s := fun _ _ => trivial

theorem starts_of_keeps {p : Task Store Unit} (h : Keeps w (fun _ _ => True) p s) :
    Starts w p s :=
  h.first Rely.refl

omit [Runtime] in
/-- A message that gets past its status check comes from a socket that has connected as the
    machine it names. -/
theorem connected_of_status {socket : String} {data : Value} {states : List MachineStatus}
    (hharm : ¬ Impostor s socket data states)
    (hdata : prop data "machineId" = some (some (.str machine))) {status : MachineStatus}
    (hstatus : (s.db.machines.find machine).map (·.status) = some status)
    (hmem : status ∈ states) : Connected s socket machine := by
  obtain ⟨m, hm, rfl⟩ := Option.map_eq_some_iff.mp hstatus
  by_cases hc : Connected s socket machine
  · exact hc
  · exact absurd ⟨machine, hdata, ⟨m, hm, hmem⟩, hc⟩ hharm

omit [Runtime] in
theorem requiredText_eq_some {v : Value} {t : String} (h : requiredText v = some t) :
    v = some (.str t) := by
  unfold requiredText at h
  split at h <;> simp_all

/-- The frame of the handlers for active machines. -/
theorem starts_whenActive {socket : String} {m : Message} {data : Value} {field : String}
    {store : String → Value → Task Store Unit}
    (hharm : ¬ Impostor s socket data [.active])
    (hstore : ∀ id payload t, Connected t socket id →
      Keeps (.socket socket m) (fun _ _ => True) (store id payload) t) :
    Starts (.socket socket m) (whenActive data field store) s := by
  refine starts_handle (starts_get fun machineId hid => starts_get fun payload _ => ?_)
    fun _ => keeps_done
  split
  · refine starts_get fun id htext => starts_read fun t ht => ?_
    split
    · rename_i hstatus
      rw [requiredText_eq_some htext] at hid
      exact hstore id payload t ((connected_of_status hharm hid hstatus (by simp)).stable ht)
    · exact keeps_done
  · exact starts_done

theorem starts_machineHeartbeat {socket : String} {data : Value}
    (hharm : ¬ Impostor s socket data [.active, .pending]) :
    Starts (.socket socket (.machineHeartbeat data)) (machineHeartbeat data) s := by
  refine starts_handle (starts_get fun machineId hid => starts_get fun state _ => ?_)
    fun _ => keeps_done
  split
  · refine starts_get fun id htext => starts_read fun t ht => ?_
    rw [requiredText_eq_some htext] at hid
    split
    · rename_i hstatus
      have hc := (connected_of_status hharm hid hstatus (by simp)).stable ht
      exact keeps_of_confined hc Reports.confined_storeHeartbeat
    · rename_i hstatus
      have hc := (connected_of_status hharm hid hstatus (by simp)).stable ht
      exact keeps_weaken (keeps_of_confined hc Reports.confined_touch)
    · exact keeps_done
  · exact starts_done

/-- What follows accepted credentials, once the connect is on record. -/
theorem keeps_announce {socket : String} {m : Message} {machineId : Value} {found : Machine}
    (hent : ∀ id, machineId = some (.str id) → Connected s socket id) :
    Keeps (.socket socket m) (fun _ _ => True) (announce socket machineId found) s := by
  refine keeps_bind keeps_get ?_
  rintro id t ⟨hid, ht⟩
  have hc : Connected t socket id := (hent id (requiredText_eq_some hid)).stable ht
  refine keeps_bind keeps_look fun address u hu => ?_
  have hu' : Entitled u id (.socket socket m) := hc.stable hu
  refine keeps_bind (keeps_write_entitled hu' fun _ _ _ h =>
    Database.touches_updateMachine h fun _ => rfl) fun _ v hv => ?_
  refine keeps_bind (keeps_write_entitled (hu'.stable hv) fun _ _ _ h =>
    Database.touches_createConnectionEvent h) fun _ x _ => ?_
  split
  · exact keeps_bind keeps_emit fun _ _ _ => keeps_weaken keeps_emit
  · exact keeps_bind keeps_emit fun _ _ _ => keeps_bind keeps_broadcast fun _ _ _ =>
      keeps_weaken keeps_emit

/-- Accepting credentials puts them on record. -/
theorem keeps_accept {socket : String} {machineId apiKey : Value} :
    Keeps w (fun _ u => Rely s u ∧ { socket, machineId, apiKey } ∈ u.connects)
      (accept socket machineId apiKey) s := by
  have haccept : ∀ t : Store, Rely t { t.updateSocket socket (fun k => { k with
      machineId, rooms := machineRoom (template machineId) :: k.rooms }) (fun _ => rfl) with
        connects := t.connects ++ [{ socket, machineId, apiKey }] } := fun t =>
    ⟨.refl _, fun c hc => List.mem_append_left _ hc⟩
  refine Tasks.Task.Guar.effect (fun t _ => guarantee_of_db (haccept t) rfl) fun t u hst htu => ?_
  exact ⟨hst.trans ((haccept t).trans htu), htu.connects _ (List.mem_append_right _ (by simp))⟩

/-- The key a harmless `machine:connect` is accepted with is the machine's. -/
theorem key_of_credentials {data machineId apiKey : Value} {idFilter keyFilter : String → Bool}
    {found : Machine} {id : String} (hharm : ¬ Injects s data)
    (hid : prop data "machineId" = some machineId) (hkey : prop data "apiKey" = some apiKey)
    (htruthy : truthy apiKey) (hidFilter : textFilter machineId = some idFilter)
    (hkeyFilter : textFilter apiKey = some keyFilter)
    (hfound : (s.db.machines.rows.find? fun m => idFilter m.id && keyFilter m.apiKey) = some found)
    (hmachine : machineId = some (.str id)) :
    s.db.keyOf id = some found.apiKey ∧ apiKey = some (.str found.apiKey) := by
  have hmem := List.mem_of_find?_eq_some hfound
  have hsel := List.find?_some hfound
  rw [Bool.and_eq_true] at hsel
  subst hmachine
  cases hidFilter
  have hfid : found.id = id := by simpa using hsel.1
  have hrow : s.db.keyOf id = some found.apiKey := by
    rw [Database.keyOf, Table.find_eq_some.mpr ⟨hmem, hfid⟩, Option.map_some]
  refine ⟨hrow, ?_⟩
  unfold textFilter at hkeyFilter
  split at hkeyFilter
  -- an absent key is not truthy, a text selects itself, an object is the harmful filter
  · exact absurd htruthy (by simp [truthy])
  · cases hkeyFilter
    rw [show found.apiKey = _ by simpa using hsel.2]
  · exact absurd ⟨id, _, found.apiKey, keyFilter, hid, hkey, hrow, hkeyFilter, hsel.2⟩ hharm
  · cases hkeyFilter

theorem starts_machineConnect {socket : String} {data : Value} (hharm : ¬ Injects s data) :
    Starts (.socket socket (.machineConnect data)) (machineConnect socket data) s := by
  refine starts_handle (starts_get fun machineId hid => starts_get fun apiKey hkey => ?_)
    fun _ => keeps_weaken keeps_emit
  split
  · exact starts_of_keeps (keeps_weaken keeps_emit)
  · rename_i hboth
    have htruthy : truthy apiKey := by simp at hboth; exact hboth.2
    simp only [findCredentials, Tasks.Task.bind_assoc]
    refine starts_get fun idFilter hidFilter => starts_get fun keyFilter hkeyFilter =>
      starts_read fun t ht => ?_
    split
    · rename_i found hfound
      refine keeps_bind keeps_accept ?_
      rintro _ u ⟨hu, hrecord⟩
      refine keeps_announce fun id hmachine => ?_
      obtain ⟨hrow, hkeyText⟩ := key_of_credentials hharm hid hkey htruthy hidFilter hkeyFilter
        hfound hmachine
      exact ⟨found.apiKey, (ht.trans hu).db.keys id _ hrow, hmachine ▸ hkeyText ▸ hrecord⟩
    · exact keeps_weaken keeps_emit

theorem keeps_socketChange {f : Store → Store} (hdb : ∀ t, (f t).db = t.db)
    (hconnects : ∀ t, (f t).connects = t.connects) :
    Keeps w (fun _ u => Rely s u) (Tasks.Task.effect f) s := by
  have hrely : ∀ t, Rely t (f t) := fun t =>
    ⟨hdb t ▸ .refl _, fun c hc => hconnects t ▸ hc⟩
  exact Tasks.Task.Guar.effect (fun t _ => guarantee_of_db (hrely t) (hdb t))
    fun t u hst htu => hst.trans ((hrely t).trans htu)

/-- A disconnect records an event, which is no row of the machine's. -/
theorem keeps_disconnect {socket : String} {m : Message} :
    Keeps (.socket socket m) (fun _ _ => True) (disconnect socket) s := by
  refine keeps_bind (keeps_socketChange (fun _ => rfl) fun _ => rfl) fun _ t _ =>
    keeps_bind keeps_look fun machineId u _ => ?_
  split
  · refine keeps_handle (keeps_bind keeps_get fun id v _ => ?_) fun _ => keeps_done
    refine keeps_bind (keeps_write id fun x db _ h => ?_) fun _ _ _ =>
      keeps_bind keeps_emit fun _ _ _ => keeps_broadcast
    refine ⟨Database.touches_createConnectionEvent h, fun _ hne => absurd ?_ hne⟩
    obtain ⟨-, rfl⟩ := Database.forMachine_eq_some.mp h
    rfl
  · exact keeps_done

/-- **A handler that starts harmlessly keeps its guarantee.** -/
theorem first_handler (w : Origin) (hharm : Harmless s w) : Starts w (handler w) s := by
  cases w with
  | request r => exact starts_of_keeps (keeps_request r)
  | socket id m =>
    cases m with
    | webSubscribe =>
      exact starts_of_keeps (keeps_handle keeps_broadcast fun _ => keeps_done)
    | webWatch machineId =>
      show Starts _ (webWatch id machineId) s
      unfold webWatch
      split
      · exact starts_done
      · exact starts_of_keeps (keeps_weaken (keeps_socketChange (fun _ => rfl) fun _ => rfl))
    | webUnwatch machineId =>
      show Starts _ (webUnwatch id machineId) s
      unfold webUnwatch
      split
      · exact starts_done
      · exact starts_of_keeps (keeps_weaken (keeps_socketChange (fun _ => rfl) fun _ => rfl))
    | machineConnect data => exact starts_machineConnect hharm
    | machineHeartbeat data => exact starts_machineHeartbeat hharm
    | machineActivity data =>
      exact starts_whenActive hharm fun _ _ _ hc =>
        keeps_of_confined hc Reports.confined_storeActivity
    | machineAudit data =>
      exact starts_whenActive hharm fun _ _ _ hc =>
        keeps_of_confined hc Reports.confined_storeAudit
    | machineScreenshot data =>
      exact starts_whenActive hharm fun _ _ _ hc =>
        keeps_of_confined hc Reports.confined_storeScreenshot
    | disconnect => exact starts_of_keeps keeps_disconnect

/-! ## Every run -/

/-- Each step of a run from `start` changes only rows its origin is entitled to. -/
def Safe (start : Store) (labels : List (Label Origin Outside)) : Prop :=
  Runs.EachStep step (fun p l p' => ∀ w ∈ p.mover l, Authorized p.store p'.store w)
    { store := start, tasks := [] } labels

/-- Each task that moves in a run from `start` does so in a store that is harmless for it. -/
def Guarded (start : Store) (labels : List (Label Origin Outside)) : Prop :=
  Runs.EachStep step (fun p l _ => ∀ w ∈ p.mover l, Harmless p.store w)
    { store := start, tasks := [] } labels

/-- One step: the invariant of the pool is kept, and the mover was entitled to what changed. -/
theorem step_spec {p p' : Pool Origin Store} {l : Label Origin Outside}
    (hi : p.Inv handler Rely Guarantee) (hguard : ∀ w ∈ p.mover l, Harmless p.store w)
    (hs : step p l = some p') :
    p'.Inv handler Rely Guarantee ∧ ∀ w ∈ p.mover l, Authorized p.store p'.store w := by
  have hfirst : ∀ w ∈ p.mover l, Starts w (handler w) p.store :=
    fun w hw => first_handler w (hguard w hw)
  refine ⟨Pool.inv_step Rely.refl (fun _ _ _ => Rely.trans) (fun _ _ _ h => h.1)
    Outside.relied hi hfirst hs, fun w hw => ?_⟩
  cases l with
  | spawn origin => cases hw
  | outside x => cases hw
  | advance i =>
    obtain ⟨⟨w', hw', hG⟩, -⟩ := Pool.advance_spec Rely.refl (fun _ _ _ => Rely.trans)
      (fun _ _ _ h => h.1) hi hfirst hs
    -- the guarantee says what the mover may change where the store is harmless for it
    cases Option.mem_unique hw hw'
    exact hG.2 (hguard w hw)
  -- a failed operation leaves the store alone
  | fail i =>
    have hstore : p'.store = p.store := by
      simp only [step, Pool.step] at hs
      split at hs
      · cases hs
        rfl
      · cases hs
    exact fun M hne => absurd (by rw [hstore]) hne

/-- **Authenticated channels.**  In every run of the server with any sockets and clients, as long as
    no impostor gets past a status check, no filter is accepted as a key and no key changes another
    machine's row, every step changes rows only of machines its socket has connected as, or whose
    key its request carries. -/
theorem safe_of_guarded (start : Store) (labels : List (Label Origin Outside))
    (h : Guarded start labels) : Safe start labels :=
  Runs.eachStep_of_guard (fun _ _ _ hi hg hs => (step_spec hi hg hs).1)
    (fun _ _ _ hi hg hs => (step_spec hi hg hs).2) Pool.inv_nil h

end Channels

/-! ## An impostor -/

/-- A runtime that reads numbers as dates, and no other value. -/
@[reducible] def numericRuntime : Runtime where
  dateOf
    | .num n => some n
    | _ => none
  numberOf _ := none
  stringFilter _ := none

/-- A socket connects as the machine with its key, and the machine is marked as seen. -/
theorem safe_connect :
    @Safe numericRuntime .adopted [.spawn (.socket "a" (.machineConnect (some (.obj
      [("machineId", .str "PC-1"), ("apiKey", .str "4f1c")])))),
      .advance 0, .advance 0, .advance 0, .advance 0] := by
  refine @safe_of_guarded numericRuntime _ _ ?_
  have hharm : ∀ s : Store, @Harmless numericRuntime s (.socket "a" (.machineConnect (some (.obj
      [("machineId", .str "PC-1"), ("apiKey", .str "4f1c")])))) := by
    rintro s ⟨machine, fields, key, select, -, hkey, -⟩
    cases hkey
  refine fun p hp => ⟨fun w hw => (nomatch hw), ?_⟩
  cases hp
  iterate 4
    refine fun p hp => ⟨fun w hw => ?_, ?_⟩
    · cases hw
      exact hharm _
    cases hp
  trivial

/-- A socket that has never connected sends a heartbeat in the machine's name, and the machine's
    state is written. -/
theorem not_safe_heartbeat :
    ¬ @Safe numericRuntime .adopted [.spawn (.socket "b" (.machineHeartbeat (some (.obj
      [("machineId", .str "PC-1"), ("state", .obj [("screenshotCount", .num 7)])])))),
      .advance 0, .advance 0, .advance 0] := by
  intro h
  have hwrite := ((((h _ rfl).2 _ rfl).2 _ rfl).2 _ rfl).1 _ rfl "PC-1"
  obtain ⟨key, -, hconnect⟩ := hwrite fun he =>
    absurd (congrArg (fun rows => rows.state.isSome) he) (by decide)
  cases hconnect

end Server.Channels
