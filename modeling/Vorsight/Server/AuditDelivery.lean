/-
  AUDIT EVENTS FROM THE AGENT TO THE DATABASE: what the audit manager reports, delivered one event
  after another to `machine:audit`, with repetitions.

  1. **Program** — `deliver`: the payload on the wire, through the handler run to its end.

  2. **Specification** (`Faithful`) — the machine's rows are, up to order, one for each distinct
     event; events are distinct when they differ in id, time, source log or details.

  3. **The crux (`rows_deliverAll`)** — the handler keeps the first event of each `eventId` and
     drops the rest.  As `eventId` names the kind of an event, the rows are faithful exactly when no
     two different events of one kind are delivered.
-/
import Vorsight.Service.AuditManager
import Vorsight.Server.SocketHandler
import Mathlib.Data.List.Dedup

namespace Server.AuditDelivery

open Js Tables Vorsight.AuditManager

section Delivery

/-! ## The wire -/

/-- The names of the payload's properties: those of its schema, or of its C# class. -/
inductive Casing
  | camel
  | pascal

def Casing.name : Casing → String → String → String
  | .camel, name, _ => name
  | .pascal, _, name => name

/-- The payload's texts, under both of their names. -/
def texts (evt : AuditEventPayload) : List (String × String × String) := [
  ("timestamp", "Timestamp", evt.timestamp.text),
  ("eventId", "EventId", evt.eventId),
  ("eventType", "EventType", evt.eventType),
  ("sourceLogName", "SourceLogName", evt.sourceLogName),
  ("username", "Username", evt.username),
  ("details", "Details", evt.details)]

/-- The payload as JSON. -/
def wire (c : Casing) (evt : AuditEventPayload) : Json :=
  .obj (((texts evt).map fun (camel, pascal, t) => (c.name camel pascal, .str t)) ++
    [(c.name "isFlagged" "IsFlagged", .bool evt.isFlagged)])

/-- `EmitAsync("machine:audit", new { machineId, auditEvent })`. -/
def message (c : Casing) (machine : String) (evt : AuditEventPayload) : Value :=
  some (.obj [("machineId", .str machine), ("auditEvent", wire c evt)])

variable [Runtime]

/-- One delivery, handled to its end. -/
def deliver (c : Casing) (machine : String) (s : Store) (evt : AuditEventPayload) : Store :=
  ((machineAudit (message c machine evt)).exec s).1

def deliverAll (c : Casing) (machine : String) (s : Store) (evts : List AuditEventPayload) :
    Store :=
  evts.foldl (deliver c machine) s

/-! ## What the rows should be -/

/-- What tells events apart. -/
structure Key where
  eventId : String
  timestamp : Int
  sourceLogName : String
  details : String
deriving DecidableEq, Repr

def key (evt : AuditEventPayload) : Key where
  eventId := evt.eventId
  timestamp := evt.timestamp.ticks
  sourceLogName := evt.sourceLogName
  details := evt.details

/-- A text as it arrives behind `a || b`: an empty one is lost under the first name. -/
def Casing.column : Casing → String → Option String
  | .camel, t => if t = "" then none else some t
  | .pascal, t => some t

/-- The columns that tell rows apart. -/
structure RowKey where
  eventId : String
  timestamp : DateTime
  sourceLogName : Option String
  details : Option Text

def rowKey (r : AuditEvent) : RowKey where
  eventId := r.eventId
  timestamp := r.timestamp
  sourceLogName := r.sourceLogName
  details := r.details

/-- The columns of an event: its time in milliseconds, its texts as they arrive. -/
def stored (c : Casing) (k : Key) : RowKey where
  eventId := k.eventId
  timestamp := k.timestamp / 10000
  sourceLogName := c.column k.sourceLogName
  details := (c.column k.details).map .raw

def rowsOf (machine : String) (s : Store) : List AuditEvent :=
  s.db.auditEvents.rows.filter (·.machineId = machine)

/-- The rows are one for each distinct event. -/
def Faithful (c : Casing) (machine : String) (evts : List AuditEventPayload) (s : Store) : Prop :=
  ((rowsOf machine s).map rowKey).Perm ((evts.map key).dedup.map (stored c))

/-! ## One delivery -/

/-- The row of an event, under the number it gets. -/
def row (c : Casing) (machine : String) (evt : AuditEventPayload) (now : DateTime) (id : Nat) :
    AuditEvent where
  id := id
  machineId := machine
  eventId := evt.eventId
  eventType := c.column evt.eventType
  username := c.column evt.username
  timestamp := evt.timestamp.millis
  details := (c.column evt.details).map .raw
  sourceLogName := c.column evt.sourceLogName
  isFlagged := evt.isFlagged
  createdAt := now

omit [Runtime] in
theorem row_id (c : Casing) (machine : String) (evt : AuditEventPayload) (now : DateTime)
    (id : Nat) : (row c machine evt now id).id = id := rfl

/-- The database with the row of an event. -/
def addRow (c : Casing) (machine : String) (s : Store) (evt : AuditEventPayload) : Database :=
  { s.db with
    auditEvents := s.db.auditEvents.create (row c machine evt s.now) (row_id c machine evt s.now) }

omit [Runtime] in
theorem text_ne_empty (t : DateTimeOffset) : t.text ≠ "" := by
  intro h
  have hlist := congrArg String.toList h
  simp [DateTimeOffset.text, String.toList_append] at hlist

omit [Runtime] in
/-- A text found under its name is read as it arrives. -/
theorem pick_text (c : Casing) {fields : List (String × Json)} {camel pascal t : String}
    (hfound : fields.lookup (c.name camel pascal) = some (.str t))
    (habsent : c = .pascal → fields.lookup camel = none)
    (habsent' : c = .camel → fields.lookup pascal = none) :
    pick (some (.obj fields)) camel pascal = some ((c.column t).map .str) := by
  cases c with
  | camel =>
    simp only [Casing.name] at hfound
    simp only [pick, prop, hfound, habsent' rfl, firstTruthy, truthy, Casing.column]
    split <;> simp_all
  | pascal =>
    simp only [Casing.name] at hfound
    simp [pick, prop, hfound, habsent rfl, firstTruthy, truthy, Casing.column]

omit [Runtime] in
theorem pick_wire {c : Casing} {evt : AuditEventPayload} {camel pascal t : String}
    (h : (camel, pascal, t) ∈ texts evt) :
    pick (some (wire c evt)) camel pascal = some ((c.column t).map .str) := by
  simp only [texts, List.mem_cons, Prod.mk.injEq, List.not_mem_nil, or_false] at h
  rcases h with ⟨rfl, rfl, rfl⟩ | ⟨rfl, rfl, rfl⟩ | ⟨rfl, rfl, rfl⟩ | ⟨rfl, rfl, rfl⟩ |
    ⟨rfl, rfl, rfl⟩ | ⟨rfl, rfl, rfl⟩
  all_goals exact pick_text c (by cases c <;> rfl) (by rintro rfl; rfl) (by rintro rfl; rfl)

omit [Runtime] in
theorem Casing.column_of_ne {c : Casing} {t : String} (h : t ≠ "") : c.column t = some t := by
  cases c <;> simp [Casing.column, h]

omit [Runtime] in
theorem textArg_column (c : Casing) (t : String) :
    textArg ((c.column t).map .str) = some (c.column t) := by
  cases c.column t <;> rfl

omit [Runtime] in
theorem textOrJson_column (c : Casing) (t : String) :
    textOrJson ((c.column t).map .str) = (c.column t).map .raw := by
  cases c.column t <;> rfl

omit [Runtime] in
theorem pick_eventId {c : Casing} {evt : AuditEventPayload} (hid : evt.eventId ≠ "") :
    pick (some (wire c evt)) "eventId" "EventId" = some (some (.str evt.eventId)) := by
  rw [pick_wire (t := evt.eventId) (by simp [texts]), Casing.column_of_ne hid]
  rfl

/-- The handler reads a row off the wire, if the runtime reads the time. -/
theorem auditRow_wire {c : Casing} {machine : String} {evt : AuditEventPayload} {now : DateTime}
    (hid : evt.eventId ≠ "")
    (hdate : Runtime.dateOf (.str evt.timestamp.text) = some evt.timestamp.millis) :
    auditRow machine (some (wire c evt)) now = some (row c machine evt now 0) := by
  have htimestamp : pick (some (wire c evt)) "timestamp" "Timestamp" =
      some (some (.str evt.timestamp.text)) := by
    rw [pick_wire (t := evt.timestamp.text) (by simp [texts]),
      Casing.column_of_ne (text_ne_empty _)]
    rfl
  have heventType : pick (some (wire c evt)) "eventType" "EventType" = _ :=
    pick_wire (t := evt.eventType) (by simp [texts])
  have husername : pick (some (wire c evt)) "username" "Username" = _ :=
    pick_wire (t := evt.username) (by simp [texts])
  have hdetails : pick (some (wire c evt)) "details" "Details" = _ :=
    pick_wire (t := evt.details) (by simp [texts])
  have hsource : pick (some (wire c evt)) "sourceLogName" "SourceLogName" = _ :=
    pick_wire (t := evt.sourceLogName) (by simp [texts])
  have hflag : ∃ a b, prop (some (wire c evt)) "isFlagged" = some a ∧
      prop (some (wire c evt)) "IsFlagged" = some b ∧ truthy (a.or b) = evt.isFlagged := by
    cases c with
    | camel => exact ⟨_, _, rfl, rfl, rfl⟩
    | pascal => exact ⟨_, _, rfl, rfl, rfl⟩
  obtain ⟨a, b, ha, hb, hab⟩ := hflag
  simp [auditRow, pick_eventId hid, htimestamp, heventType, husername, hdetails, hsource, ha, hb,
    hab, requiredText, newDate, hdate, textArg_column, textOrJson_column, row]

/-- The stored part of a delivery: what `storeAudit` does to the database. -/
theorem exec_storeAudit_db {c : Casing} {machine : String} {evt : AuditEventPayload} {s : Store}
    {m : Machine} (hm : s.db.machines.find machine = some m) (hid : evt.eventId ≠ "")
    (hdate : Runtime.dateOf (.str evt.timestamp.text) = some evt.timestamp.millis) :
    ((storeAudit machine (some (wire c evt))).exec s).1.db =
      if (rowsOf machine s).any (·.eventId = evt.eventId) then s.db
      else addRow c machine s evt := by
  have hfind : (s.db.auditEvents.rows.find?
      fun r => r.machineId = machine && decide (r.eventId = evt.eventId)).isNone =
        !(rowsOf machine s).any (·.eventId = evt.eventId) := by
    rw [rowsOf, List.any_filter, ← List.isSome_find?, Option.not_isSome]
  have hcreate : createAuditEvent machine (some (wire c evt)) s.db s.now =
      some (addRow c machine s evt) := by
    have hrow : auditRow machine (some (wire c evt)) s.now = some (row c machine evt s.now 0) :=
      auditRow_wire hid hdate
    simp [createAuditEvent, hrow, Database.createAudit, Database.forMachine, hm]
    rfl
  simp only [storeAudit, pick_eventId hid, textFilter, Tasks.Task.get_some, Tasks.Task.done_bind]
  rw [Tasks.Task.exec_bind_of (exec_read _ s), hfind]
  cases (rowsOf machine s).any (·.eventId = evt.eventId) with
  | true => rfl
  | false =>
    rw [Bool.not_false, if_pos rfl, if_neg (by simp),
      Tasks.Task.exec_bind_of (exec_write_some hcreate)]
    rfl

/-- What a delivery to an active machine does to the database: nothing if the machine has a row
    with this `eventId`, else it adds a row. -/
theorem deliver_db {c : Casing} {machine : String} {evt : AuditEventPayload} {s : Store}
    (hmachine : machine ≠ "") {m : Machine} (hm : s.db.machines.find machine = some m)
    (hactive : m.status = .active) (hid : evt.eventId ≠ "")
    (hdate : Runtime.dateOf (.str evt.timestamp.text) = some evt.timestamp.millis) :
    (deliver c machine s evt).db =
      if (rowsOf machine s).any (·.eventId = evt.eventId) then s.db
      else addRow c machine s evt := by
  have hstatus : (findStatus machine).exec s = (s, some (some .active)) := by
    simp [findStatus, hm, hactive]
  have htruthy : truthy (some (.str machine)) = true := by simpa [truthy] using hmachine
  have hmachineId : prop (message c machine evt) "machineId" = some (some (.str machine)) := rfl
  have hevent : prop (message c machine evt) "auditEvent" = some (some (wire c evt)) := rfl
  rw [deliver, machineAudit, whenActive, Tasks.Task.pure_eq, Tasks.Task.exec_handle_done]
  simp only [hmachineId, hevent, Tasks.Task.get_some, Tasks.Task.done_bind, htruthy, if_true,
    requiredText]
  rw [Tasks.Task.exec_bind_of hstatus]
  exact exec_storeAudit_db hm hid hdate

/-! ## A sequence of deliveries -/

/-- The events that are kept, after those in `kept`: the first of each `eventId`. -/
def keepFirst (kept : List Key) (evts : List AuditEventPayload) : List Key :=
  evts.foldl (fun kept evt =>
    if kept.any (·.eventId = evt.eventId) then kept else kept ++ [key evt]) kept

omit [Runtime] in
theorem rowKey_row (c : Casing) (machine : String) (evt : AuditEventPayload) (now : DateTime)
    (id : Nat) : rowKey (row c machine evt now id) = stored c (key evt) := rfl

omit [Runtime] in
theorem any_eventId {rows : List AuditEvent} {kept : List Key} {c : Casing}
    (h : rows.map rowKey = kept.map (stored c)) (id : String) :
    rows.any (·.eventId = id) = kept.any (·.eventId = id) := by
  have hids := congrArg (fun l => (l.map RowKey.eventId).any (· = id)) h
  simpa [Function.comp_def, rowKey, stored] using hids

/-- **What the handler keeps.**  After the deliveries the machine's rows are the first events of
    each `eventId`, in the order they came. -/
theorem rows_deliverAll {c : Casing} {machine : String} (hmachine : machine ≠ "") :
    ∀ {evts : List AuditEventPayload} {s : Store} {kept : List Key} {m : Machine},
      s.db.machines.find machine = some m → m.status = .active →
      (∀ evt ∈ evts, evt.eventId ≠ "") →
      (∀ evt ∈ evts, Runtime.dateOf (.str evt.timestamp.text) = some evt.timestamp.millis) →
      (rowsOf machine s).map rowKey = kept.map (stored c) →
      (rowsOf machine (deliverAll c machine s evts)).map rowKey =
        (keepFirst kept evts).map (stored c)
  | [], _, _, _, _, _, _, _, h => h
  | evt :: evts, s, kept, m, hm, hactive, hids, hdates, h => by
    have hdb := deliver_db (c := c) hmachine hm hactive (hids evt List.mem_cons_self)
      (hdates evt List.mem_cons_self)
    have hmachines : (deliver c machine s evt).db.machines.find machine = some m := by
      rw [hdb]
      split <;> exact hm
    show (rowsOf machine (deliverAll c machine (deliver c machine s evt) evts)).map rowKey =
      (keepFirst (if kept.any (·.eventId = evt.eventId) then kept else kept ++ [key evt])
        evts).map (stored c)
    refine rows_deliverAll hmachine hmachines hactive
      (fun e he => hids e (List.mem_cons_of_mem _ he))
      (fun e he => hdates e (List.mem_cons_of_mem _ he)) ?_
    rw [rowsOf, hdb, any_eventId h]
    split
    · exact h
    · show (((s.db.auditEvents.rows ++ [row c machine evt s.now s.db.auditEvents.next]).filter
        (·.machineId = machine)).map rowKey) = (kept ++ [key evt]).map (stored c)
      rw [List.filter_append, List.map_append, List.map_append]
      refine congrArg₂ _ h ?_
      rw [List.filter_cons_of_pos (by simp [row]), List.filter_nil]
      exact congrArg (fun k => [k]) (rowKey_row ..)

/-! ## What is kept -/

omit [Runtime] in
/-- A kept event is one of those before or one delivered; each delivered `eventId` is kept. -/
theorem keepFirst_spec : ∀ (evts : List AuditEventPayload) (kept : List Key),
    (kept.map Key.eventId).Nodup →
      ((keepFirst kept evts).map Key.eventId).Nodup ∧
      (∀ k ∈ keepFirst kept evts, k ∈ kept ∨ k ∈ evts.map key) ∧
      (∀ k ∈ kept, k ∈ keepFirst kept evts) ∧
      (∀ evt ∈ evts, ∃ k ∈ keepFirst kept evts, k.eventId = evt.eventId)
  | [], kept, h => ⟨h, fun k hk => .inl hk, fun k hk => hk, by simp⟩
  | evt :: evts, kept, h => by
    have hcons : keepFirst kept (evt :: evts) = keepFirst
        (if kept.any (·.eventId = evt.eventId) then kept else kept ++ [key evt]) evts := rfl
    rw [hcons]
    by_cases hany : kept.any (·.eventId = evt.eventId)
    -- dropped: a kept key has its id
    · rw [if_pos hany]
      obtain ⟨hnodup, hfrom, hkeep, hall⟩ := keepFirst_spec evts kept h
      obtain ⟨k, hk, hid⟩ := List.any_eq_true.mp hany
      refine ⟨hnodup, fun k hk => (hfrom k hk).imp id (List.mem_cons_of_mem _), hkeep, ?_⟩
      intro e he
      rcases List.mem_cons.mp he with rfl | he
      · exact ⟨k, hkeep k hk, by simpa using hid⟩
      · exact hall e he
    -- kept: its id is new, so the ids stay distinct
    · rw [if_neg hany]
      have hnodup' : ((kept ++ [key evt]).map Key.eventId).Nodup := by
        rw [List.map_append]
        refine List.nodup_append.mpr ⟨h, by simp, ?_⟩
        intro a ha b hb
        obtain ⟨k, hk, rfl⟩ := List.mem_map.mp ha
        rw [List.map_singleton, List.mem_singleton] at hb
        subst hb
        exact fun he => hany (List.any_eq_true.mpr ⟨k, hk, by simpa [key] using he⟩)
      obtain ⟨hnodup, hfrom, hkeep, hall⟩ := keepFirst_spec evts _ hnodup'
      refine ⟨hnodup, fun k hk => ?_, fun k hk => hkeep k (List.mem_append_left _ hk), ?_⟩
      · rcases hfrom k hk with hk | hk
        · rcases List.mem_append.mp hk with hk | hk
          · exact .inl hk
          · rw [List.mem_singleton.mp hk]
            exact .inr List.mem_cons_self
        · exact .inr (List.mem_cons_of_mem _ hk)
      · intro e he
        rcases List.mem_cons.mp he with rfl | he
        · exact ⟨key e, hkeep _ (List.mem_append_right _ (by simp)), rfl⟩
        · exact hall e he

/-- The events say by their `eventId` which of them are the same. -/
def EventIdsIdentify (evts : List AuditEventPayload) : Prop :=
  ∀ evt ∈ evts, ∀ evt' ∈ evts, evt.eventId = evt'.eventId → key evt = key evt'

instance (evts : List AuditEventPayload) : Decidable (EventIdsIdentify evts) := by
  unfold EventIdsIdentify
  infer_instance

omit [Runtime] in
/-- The first events of each `eventId` are all distinct events iff the ids identify them. -/
theorem perm_keepFirst_iff {c : Casing} {evts : List AuditEventPayload} :
    ((keepFirst [] evts).map (stored c)).Perm ((evts.map key).dedup.map (stored c)) ↔
      EventIdsIdentify evts := by
  obtain ⟨hnodup, hfrom, -, hall⟩ := keepFirst_spec evts [] List.nodup_nil
  constructor
  -- the ids of the rows are distinct, so they tell the distinct events apart
  · intro h evt hevt evt' hevt' hid
    have hids := h.map RowKey.eventId
    rw [List.map_map, List.map_map] at hids
    have hdedup : ((evts.map key).dedup.map Key.eventId).Nodup := hids.nodup_iff.mp hnodup
    exact List.inj_on_of_nodup_map hdedup
      (List.mem_dedup.mpr (List.mem_map.mpr ⟨evt, hevt, rfl⟩))
      (List.mem_dedup.mpr (List.mem_map.mpr ⟨evt', hevt', rfl⟩)) hid
  · intro h
    refine List.Perm.map _ ?_
    refine (List.perm_ext_iff_of_nodup hnodup.of_map (List.nodup_dedup _)).mpr fun k => ?_
    rw [List.mem_dedup]
    constructor
    · intro hk
      exact (hfrom k hk).resolve_left List.not_mem_nil
    · intro hk
      obtain ⟨evt, hevt, rfl⟩ := List.mem_map.mp hk
      obtain ⟨k', hk', hid⟩ := hall evt hevt
      obtain ⟨evt', hevt', rfl⟩ := List.mem_map.mp ((hfrom k' hk').resolve_left List.not_mem_nil)
      rwa [← h evt' hevt' evt hevt hid]

omit [Runtime] in
/-- Reported events have an `eventId`. -/
theorem eventId_ne_empty {start : State} {records : List (DateTimeOffset × String × EventRecord)}
    {evt : AuditEventPayload} (h : evt ∈ report start records) : evt.eventId ≠ "" := by
  obtain ⟨id, hid⟩ := eventId_of_mem_report h
  rw [hid]
  exact Nat.repr_ne_empty

/-- **One row for each distinct event, exactly for events their ids identify**: reported events,
    delivered in any order and any number of times to an active machine without earlier events,
    leave one row for each distinct event iff no two of them share an `eventId` and differ. -/
theorem faithful_iff {c : Casing} {machine : String} {s : Store} {m : Machine}
    {evts : List AuditEventPayload} {start : State}
    {records : List (DateTimeOffset × String × EventRecord)}
    (hmachine : machine ≠ "") (hm : s.db.machines.find machine = some m)
    (hactive : m.status = .active) (hempty : rowsOf machine s = [])
    (hreported : ∀ evt ∈ evts, evt ∈ report start records)
    (hdates : ∀ evt ∈ evts,
      Runtime.dateOf (.str evt.timestamp.text) = some evt.timestamp.millis) :
    Faithful c machine evts (deliverAll c machine s evts) ↔ EventIdsIdentify evts := by
  have hrows := rows_deliverAll (c := c) hmachine hm hactive
    (fun evt hevt => eventId_ne_empty (hreported evt hevt)) hdates
    (show (rowsOf machine s).map rowKey = [].map (stored c) by rw [hempty]; rfl)
  rw [Faithful, hrows]
  exact perm_keepFirst_iff

end Delivery

/-! ## Two accounts created on one machine -/

/-- A runtime that reads the texts of some times, and no other value. -/
@[reducible] def reading (times : List DateTimeOffset) : Runtime where
  dateOf
    | .str t => (times.find? (·.text = t)).map (·.millis)
    | _ => none
  numberOf _ := none
  stringFilter _ := none

/-- Noon of 1 March 2024, some minutes later. -/
def noon (minutes : Int) : DateTimeOffset := { ticks := 17092944000000000 + 600000000 * minutes }

/-- A record of the security log, written when it was created. -/
def written (id : Nat) (minutes : Int) (description : String) :
    DateTimeOffset × String × EventRecord :=
  (noon minutes, "Security",
    { id, timeCreated := some (noon minutes), taskDisplayName := some "User Account Management",
      description := some description })

/-- An account created and the log cleared, the first reported twice. -/
def twoKinds : List AuditEventPayload :=
  let evts := report {} [written 4720 0 "alice was created", written 1102 1 "cleared"]
  evts ++ evts.take 1

def twoAccounts : List AuditEventPayload :=
  report {} [written 4720 0 "alice was created", written 4720 1 "bob was created"]

theorem faithful_twoKinds :
    Faithful .camel "PC-1" twoKinds
        (@deliverAll (reading [noon 0, noon 1]) .camel "PC-1" .adopted twoKinds) ↔
      EventIdsIdentify twoKinds :=
  @faithful_iff (reading [noon 0, noon 1]) .camel "PC-1" .adopted _ _ {} _ (by decide) rfl rfl rfl
    (fun _ h => (List.mem_append.mp h).elim id List.mem_of_mem_take) (by decide)

/-- Of two accounts created, only the first is stored. -/
theorem not_faithful_twoAccounts :
    ¬ Faithful .camel "PC-1" twoAccounts
        (@deliverAll (reading [noon 0, noon 1]) .camel "PC-1" .adopted twoAccounts) := by
  intro h
  have hrows := @rows_deliverAll (reading [noon 0, noon 1]) .camel "PC-1" (by decide) twoAccounts
    .adopted [] _ rfl rfl (by decide) (by decide) rfl
  rw [Faithful, hrows] at h
  exact absurd h.length_eq (by decide)

end Server.AuditDelivery
