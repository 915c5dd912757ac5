/-
  ACTIVITY FROM THE AGENT'S SAMPLES TO THE SESSIONS: what the coordinator sends of the samples it is
  given, handled one payload after another by `machine:activity`.

  1. **Program** — `deliver`: the payload on the wire, through the handler run to its end.

  2. **Specification** (`Attributed`) — a session that covers the time of a sample names the
     sample's user and process.

  3. **One session for each spell** (`spans_deliverAll`).  Two spells in a row have different
     titles, so no payload continues a session.

  4. **The exact condition** (`attributed_iff`).  A session has the process its spell began with,
     and the user of the very first sample: the coordinator starts a new activity only when the
     title changes, and then keeps the user.
-/
import Vorsight.Server.AuditDelivery
import Vorsight.Server.Sessions
import Vorsight.Service.ActivitySpells

namespace Server.ActivityDelivery

open Js Tables Sessions AuditDelivery
open Service.ActivityCoordinator (ActivityData ActivityPayload Spell spells tracked firstUser sent)

section Delivery

/-! ## The wire -/

/-- `new DateTimeOffset(t)` of a time in UTC. -/
def offset (t : Time.DateTime) : Vorsight.AuditManager.DateTimeOffset where
  ticks := t.ticks - 621355968000000000

def text (p : ActivityPayload) : String := (offset p.timestamp).text

def millis (p : ActivityPayload) : Int := (offset p.timestamp).millis

/-- The payload as JSON. -/
def wire (c : Casing) (p : ActivityPayload) : Json := .obj [
  (c.name "timestamp" "Timestamp", .str (text p)),
  (c.name "activeWindow" "ActiveWindow", .str p.activeWindow),
  (c.name "processName" "ProcessName", .str p.processName),
  (c.name "duration" "Duration", .num p.duration),
  (c.name "username" "Username", .str p.username)]

/-- `EmitAsync("machine:activity", new { machineId, activity })`. -/
def message (c : Casing) (machine : String) (p : ActivityPayload) : Value :=
  some (.obj [("machineId", .str machine), ("activity", wire c p)])

variable [Runtime]

/-- One payload, handled to its end at a time of the server's clock. -/
def deliver (c : Casing) (machine : String) (s : Store) (d : DateTime × ActivityPayload) : Store :=
  ((machineActivity (message c machine d.2)).exec { s with now := d.1 }).1

def deliverAll (c : Casing) (machine : String) (s : Store)
    (ds : List (DateTime × ActivityPayload)) : Store :=
  ds.foldl (deliver c machine) s

/-! ## The design's claim, and the condition -/

/-- A session that covers the time of a sample names its user and its process. -/
def Attributed (machine : String) (samples : List ActivityData) (s : Store) : Prop :=
  ∀ r ∈ s.db.activitySessions.rows, r.machineId = machine → ∀ x ∈ samples,
    r.startTime ≤ x.timestamp → x.timestamp < r.endTime →
      r.username = some x.username ∧ r.processName = some x.processName

/-- In each spell that has ended, the samples its session covers have the process of the spell's
    first sample and the user of the very first. -/
def Steady (samples : List ActivityData) : Prop :=
  ∀ p ∈ spells samples, ∀ x ∈ p.samples, x.timestamp < p.opening.timestamp + p.duration →
    x.username = firstUser samples ∧ x.processName = p.opening.processName

/-! ## One delivery -/

/-- What the sessions are to tell. -/
structure Span where
  startTime : Int
  endTime : Int
  processName : Option String
  activeWindow : Option String
  username : Option String

def spanOf (r : ActivitySession) : Span where
  startTime := r.startTime
  endTime := r.endTime
  processName := r.processName
  activeWindow := r.activeWindow
  username := r.username

def span (p : ActivityPayload) : Span where
  startTime := millis p / 1000
  endTime := millis p / 1000 + p.duration
  processName := some p.processName
  activeWindow := some p.activeWindow
  username := some p.username

/-- A payload with no field empty, whose time the runtime reads. -/
structure Readable (p : ActivityPayload) : Prop where
  activeWindow : p.activeWindow ≠ ""
  processName : p.processName ≠ ""
  username : p.username ≠ ""
  duration : 0 < p.duration
  date : Runtime.dateOf (.str (text p)) = some (millis p)

variable {c : Casing} {machine : String} {s : Store} {p : ActivityPayload} {m : Machine}
  {samples : List ActivityData}

/-- The fields of a payload, as the handler reads them. -/
def fieldsOf (p : ActivityPayload) : Activity where
  timestamp := some (.str (text p))
  activeWindow := some (.str p.activeWindow)
  processName := some (.str p.processName)
  duration := some (.num p.duration)
  username := some (.str p.username)

omit [Runtime] in
/-- A field that is truthy is read under either name. -/
theorem pick_found {fields : List (String × Json)} {camel pascal : String} {v : Json}
    (hv : truthy (some v) = true) (hfound : fields.lookup (c.name camel pascal) = some v)
    (habsent : c = .pascal → fields.lookup camel = none)
    (habsent' : c = .camel → fields.lookup pascal = none) :
    pick (some (.obj fields)) camel pascal = some (some v) := by
  cases c with
  | camel =>
    have hfound : fields.lookup camel = some v := hfound
    simp [pick, prop, hfound, habsent' rfl, firstTruthy, hv]
  | pascal =>
    have hfound : fields.lookup pascal = some v := hfound
    simp [pick, prop, hfound, habsent rfl, firstTruthy, truthy]

/-- The handler reads the payload off the wire. -/
theorem readActivity_wire (hp : Readable p) :
    readActivity (some (wire c p)) = some (fieldsOf p) := by
  have htruthy : ∀ t : String, t ≠ "" → truthy (some (.str t)) = true := by
    intro t ht
    simpa [truthy] using ht
  have htimestamp : pick (some (wire c p)) "timestamp" "Timestamp" = some (some (.str (text p))) :=
    pick_found (c := c) (htruthy _ (text_ne_empty _)) (by cases c <;> rfl) (by rintro rfl; rfl)
      (by rintro rfl; rfl)
  have hwindow : pick (some (wire c p)) "activeWindow" "ActiveWindow" =
      some (some (.str p.activeWindow)) :=
    pick_found (c := c) (htruthy _ hp.activeWindow) (by cases c <;> rfl) (by rintro rfl; rfl)
      (by rintro rfl; rfl)
  have hprocess : pick (some (wire c p)) "processName" "ProcessName" =
      some (some (.str p.processName)) :=
    pick_found (c := c) (htruthy _ hp.processName) (by cases c <;> rfl) (by rintro rfl; rfl)
      (by rintro rfl; rfl)
  have hduration : pick (some (wire c p)) "duration" "Duration" =
      some (some (.num p.duration)) := by
    have hpos := hp.duration
    refine pick_found (c := c) ?_ (by cases c <;> rfl) (by rintro rfl; rfl) (by rintro rfl; rfl)
    simp only [truthy, decide_eq_true_eq]
    omega
  have husername : pick (some (wire c p)) "username" "Username" = some (some (.str p.username)) :=
    pick_found (c := c) (htruthy _ hp.username) (by cases c <;> rfl) (by rintro rfl; rfl)
      (by rintro rfl; rfl)
  unfold readActivity
  simp only [htimestamp, hwindow, hprocess, hduration, husername, Option.bind_eq_bind,
    Option.bind_some]
  rfl

/-- The session that a payload starts. -/
def sessionRow (machine : String) (p : ActivityPayload) (now : DateTime) : ActivitySession where
  id := 0
  machineId := machine
  startTime := millis p / 1000
  endTime := millis p / 1000 + p.duration
  durationSeconds := p.duration
  processName := some p.processName
  activeWindow := some p.activeWindow
  username := some p.username
  createdAt := now
  updatedAt := now

omit [Runtime] in
theorem usernameArg_fieldsOf (hp : p.username ≠ "") :
    (fieldsOf p).usernameArg = some (some p.username) := by
  have htruthy : truthy (some (.str p.username)) = true := by simpa [truthy] using hp
  unfold Activity.usernameArg firstTruthy
  rw [show (fieldsOf p).username = some (.str p.username) from rfl, if_pos htruthy]
  rfl

omit [Runtime] in
theorem sessionRow_fieldsOf (hp : p.username ≠ "") (now : DateTime) :
    (fieldsOf p).sessionRow machine (millis p / 1000) now = some (sessionRow machine p now) := by
  unfold Activity.sessionRow
  rw [usernameArg_fieldsOf hp]
  rfl

/-- A payload of an active machine is accepted. -/
theorem socketBeat_message (hmachine : machine ≠ "")
    (hm : s.db.machines.find machine = some m) (hactive : m.status = .active) (hp : Readable p) :
    socketBeat s (message c machine p) =
      some (machine, ofActivity machine (fieldsOf p) (millis p / 1000)) := by
  have hdate : newDate (fieldsOf p).timestamp = some (millis p) := hp.date
  have hrow : ∃ row, (fieldsOf p).historyRow machine = some row := by
    unfold Activity.historyRow
    rw [hdate, usernameArg_fieldsOf hp.username]
    exact ⟨_, rfl⟩
  obtain ⟨row, hrow⟩ := hrow
  have haccept : acceptActivity machine (some (wire c p)) =
      some (row, ofActivity machine (fieldsOf p) (millis p / 1000)) := by
    unfold acceptActivity
    simp only [readActivity_wire hp, hrow, hdate, Option.bind_eq_bind, Option.bind_some]
    rfl
  have hid : machineOf (some (.str machine)) = some machine := by
    have htruthy : truthy (some (.str machine)) = true := by simpa [truthy] using hmachine
    unfold machineOf
    rw [if_pos htruthy]
    rfl
  have hmachineId : prop (message c machine p) "machineId" = some (some (.str machine)) := rfl
  have hactivity : prop (message c machine p) "activity" = some (some (wire c p)) := rfl
  have hstatus : (s.db.machines.find machine).map (·.status) = some .active := by
    rw [hm, Option.map_some, hactive]
  unfold socketBeat
  simp only [hmachineId, hactivity, hid, haccept, Option.bind_eq_bind, Option.bind_some]
  exact if_pos hstatus

omit [Runtime] in
theorem eq_of_strictEq {a : Option String} {t : String}
    (h : strictEq a (some (.str t)) = true) : a = some t := by
  cases a with
  | none => cases h
  | some t' => exact congrArg some (of_decide_eq_true h)

/-- **A payload with another title than the most recent session** starts a session. -/
theorem sessions_deliver (hmachine : machine ≠ "") (hm : s.db.machines.find machine = some m)
    (hactive : m.status = .active) (hp : Readable p)
    (hnew : ∀ r, recentSession machine s.db = some r → r.activeWindow ≠ some p.activeWindow)
    (now : DateTime) :
    ∃ row, (deliver c machine s (now, p)).db.activitySessions.rows =
        s.db.activitySessions.rows ++ [row] ∧ row.machineId = machine ∧ spanOf row = span p := by
  have hsessions := sessions_machineActivity (message c machine p) { s with now }
  rw [socketBeat_message (s := { s with now }) hmachine hm hactive hp] at hsessions
  have hfilter : (recentSession machine s.db).filter
      (ofActivity machine (fieldsOf p) (millis p / 1000)).continues = none := by
    rw [Option.filter_eq_none_iff]
    intro r hr hcontinues
    refine hnew r hr ?_
    have hwindow : strictEq r.activeWindow (some (.str p.activeWindow)) = true := by
      simp only [ofActivity, shouldExtend, Bool.and_eq_true] at hcontinues
      exact hcontinues.1.2
    exact eq_of_strictEq hwindow
  have hexists : (s.db.machines.find machine).isSome := by
    rw [hm]
    rfl
  have hstart := recorded_start (s := { s with now }) hfilter
    (sessionRow_fieldsOf hp.username now) hexists
  refine ⟨{ sessionRow machine p now with id := s.db.activitySessions.next }, ?_, rfl, rfl⟩
  have hsessions := hsessions.trans hstart
  exact congrArg (fun t : Sequence ActivitySession.id => t.rows) hsessions

/-! ## A sequence of deliveries -/

/-- The machine is active, all its sessions end by `bound`, and the most recent one has the title
    `window`. -/
structure Latest (machine window : String) (bound : Int) (s : Store) : Prop where
  active : ∃ m, s.db.machines.find machine = some m ∧ m.status = .active
  bound : ∀ r ∈ s.db.activitySessions.rows, r.machineId = machine → r.endTime ≤ bound
  window : ∀ r, recentSession machine s.db = some r → r.activeWindow = some window

/-- Payloads that follow each other in time, each with another title than the one before. -/
def Successive (window : String) (bound : Int) : List ActivityPayload → Prop
  | [] => True
  | p :: ps => p.activeWindow ≠ window ∧ bound ≤ millis p / 1000 ∧ Readable p ∧
      Successive p.activeWindow (millis p / 1000 + p.duration) ps

variable {window : String} {bound : Int}

/-- A delivery adds the most recent session. -/
theorem latest_deliver (hmachine : machine ≠ "") (h : Latest machine window bound s)
    (hwindow : p.activeWindow ≠ window) (hbound : bound ≤ millis p / 1000) (hp : Readable p)
    (now : DateTime) :
    ∃ row, (deliver c machine s (now, p)).db.activitySessions.rows =
        s.db.activitySessions.rows ++ [row] ∧ row.machineId = machine ∧ spanOf row = span p ∧
      Latest machine p.activeWindow (millis p / 1000 + p.duration)
        (deliver c machine s (now, p)) := by
  obtain ⟨m, hm, hactive⟩ := h.active
  have hnew : ∀ r, recentSession machine s.db = some r →
      r.activeWindow ≠ some p.activeWindow := by
    intro r hr heq
    rw [h.window r hr] at heq
    exact hwindow (Option.some.inj heq).symm
  obtain ⟨row, hrows, hrow, hspan⟩ := sessions_deliver (c := c) hmachine hm hactive hp hnew now
  have hend : row.endTime = millis p / 1000 + p.duration := congrArg Span.endTime hspan
  have hpos := hp.duration
  refine ⟨row, hrows, hrow, hspan, ?_, ?_, ?_⟩
  · have hspares : Collection.Spares { s with now } (deliver c machine s (now, p)) :=
      Collection.exec_sparing (Collection.sparing_message "" (.machineActivity _))
    obtain ⟨m', hm', hstatus, -⟩ := hspares machine m hm
    exact ⟨m', hm', hstatus.trans hactive⟩
  · intro r hr hmr
    rw [hrows] at hr
    rcases List.mem_append.mp hr with hr | hr
    · have hle := h.bound r hr hmr
      omega
    · rw [List.mem_singleton.mp hr, hend]
  · intro r hr
    obtain ⟨hmem, hmr⟩ := Reports.mem_of_recentSession hr
    have hlast : row.endTime ≤ r.endTime :=
      Reports.endTime_le_of_recentSession hr (by rw [hrows]; simp) hrow
    rw [hrows] at hmem
    rcases List.mem_append.mp hmem with hmem | hmem
    · have hle := h.bound r hmem hmr
      omega
    · rw [List.mem_singleton.mp hmem]
      exact congrArg Span.activeWindow hspan

/-- **One session for each payload**, where titles change from one to the next. -/
theorem spans_deliverAll (hmachine : machine ≠ "") :
    ∀ (ds : List (DateTime × ActivityPayload)) (s : Store) (window : String) (bound : Int),
      Latest machine window bound s → Successive window bound (ds.map Prod.snd) →
      ∃ new, (deliverAll c machine s ds).db.activitySessions.rows =
          s.db.activitySessions.rows ++ new ∧ (∀ r ∈ new, r.machineId = machine) ∧
        new.map spanOf = (ds.map Prod.snd).map span := by
  intro ds
  induction ds with
  | nil =>
    intro s window bound _ _
    exact ⟨[], by simp [deliverAll], by simp, rfl⟩
  | cons d ds ih =>
    intro s window bound hlatest hsuccessive
    obtain ⟨now, p⟩ := d
    obtain ⟨hwindow, hbound, hp, hrest⟩ := hsuccessive
    obtain ⟨row, hrows, hrow, hspan, hlatest'⟩ :=
      latest_deliver (c := c) hmachine hlatest hwindow hbound hp now
    obtain ⟨new, hnew, hmachines, hspans⟩ := ih _ _ _ hlatest' hrest
    refine ⟨row :: new, ?_, ?_, ?_⟩
    · show (deliverAll c machine (deliver c machine s (now, p)) ds).db.activitySessions.rows = _
      rw [hnew, hrows, List.append_assoc, List.singleton_append]
    · intro r hr
      rcases List.mem_cons.mp hr with rfl | hr
      · exact hrow
      · exact hmachines r hr
    · rw [List.map_cons, List.map_cons, List.map_cons, hspan, hspans]

/-! ## The payloads of spells -/

variable {user : String}

omit [Runtime] in
/-- A payload carries the second its spell began in. -/
theorem millis_payload {p : Spell} (hopening : p.opening ∈ tracked samples) :
    millis (p.payload user) / 1000 = p.opening.timestamp := by
  have hrange := of_decide_eq_true (List.mem_filter.mp hopening).2
  have hticks := (Service.ActivityCoordinator.time_tracked hrange).2
  show (((Service.ActivityCoordinator.timeOf p.opening).ticks : Int) - 621355968000000000) / 10000 /
    1000 = _
  rw [hticks]
  omega

/-- The payloads of spells can be delivered one after another. -/
theorem successive_spells (samples : List ActivityData) (huser : user ≠ "") :
    ∀ (rest : List ActivityData) (opening : ActivityData) (seen : List ActivityData)
      (window : String) (bound : Int), opening.activeWindow ≠ window → bound ≤ opening.timestamp →
      (∀ x ∈ opening :: rest, x ∈ tracked samples ∧ x.processName ≠ "" ∧ x.activeWindow ≠ "") →
      (opening :: rest).Pairwise (fun x y => x.timestamp < y.timestamp) →
      (∀ p ∈ Service.ActivityCoordinator.spellsFrom opening seen rest,
        Runtime.dateOf (.str (text (p.payload user))) = some (millis (p.payload user))) →
      Successive window bound
        ((Service.ActivityCoordinator.spellsFrom opening seen rest).map (Spell.payload user)) := by
  intro rest
  induction rest with
  | nil =>
    intro opening seen window bound _ _ _ _ _
    trivial
  | cons x rest ih =>
    intro opening seen window bound hwindow hbound hnamed hsorted hdates
    obtain ⟨hbefore, hrest⟩ := List.pairwise_cons.mp hsorted
    have hlt : opening.timestamp < x.timestamp := hbefore x List.mem_cons_self
    rw [Service.ActivityCoordinator.spellsFrom] at hdates ⊢
    split
    · rename_i hsame
      rw [if_pos hsame] at hdates
      refine ih opening (seen ++ [x]) window bound hwindow hbound ?_ ?_ hdates
      · intro y hy
        rcases List.mem_cons.mp hy with rfl | hy
        · exact hnamed y List.mem_cons_self
        · exact hnamed y (List.mem_cons_of_mem _ (List.mem_cons_of_mem _ hy))
      · exact List.pairwise_cons.mpr ⟨fun y hy => hbefore y (List.mem_cons_of_mem x hy),
          (List.pairwise_cons.mp hrest).2⟩
    · rename_i hother
      rw [if_neg hother] at hdates
      obtain ⟨hopening, hprocess, hnonempty⟩ := hnamed opening List.mem_cons_self
      obtain ⟨hpos, hle⟩ := Time.toInt32_pos (x := x.timestamp - opening.timestamp) (by omega)
      have hstart : millis (Spell.payload user ⟨opening, seen, x⟩) / 1000 = opening.timestamp :=
        millis_payload hopening
      refine ⟨hwindow, by omega, ?_, ?_⟩
      · exact ⟨hnonempty, hprocess, huser, hpos, hdates _ List.mem_cons_self⟩
      · refine ih x [x] _ _ hother ?_ (fun y hy => hnamed y (List.mem_cons_of_mem _ hy)) hrest
          fun p hp => hdates p (List.mem_cons_of_mem _ hp)
        rw [hstart]
        show opening.timestamp + Time.toInt32 (x.timestamp - opening.timestamp) ≤ _
        omega

/-- All that is sent can be delivered one after another. -/
theorem successive_sent (hincreasing : samples.Pairwise fun x y => x.timestamp < y.timestamp)
    (hnamed : ∀ x ∈ samples, x.username ≠ "" ∧ x.processName ≠ "" ∧ x.activeWindow ≠ "")
    (hdates : ∀ p ∈ sent samples, Runtime.dateOf (.str (text p)) = some (millis p)) :
    ∃ bound, Successive "" bound (sent samples) := by
  have hmem : ∀ x ∈ tracked samples, x ∈ samples := fun x hx => (List.mem_filter.mp hx).1
  rw [Service.ActivityCoordinator.sent_eq (fun x hx => (hnamed x hx).1) hincreasing] at hdates ⊢
  have hsorted : (tracked samples).Pairwise fun x y => x.timestamp < y.timestamp :=
    hincreasing.sublist List.filter_sublist
  cases htracked : tracked samples with
  | nil =>
    refine ⟨0, ?_⟩
    unfold spells
    rw [htracked]
    trivial
  | cons x rest =>
    have hspells : spells samples = Service.ActivityCoordinator.spellsFrom x [x] rest := by
      unfold spells
      rw [htracked]
    have hfirst : firstUser samples = x.username := by
      unfold firstUser
      rw [htracked]
      rfl
    have hx : x ∈ samples := hmem x (by rw [htracked]; exact List.mem_cons_self)
    rw [hspells, hfirst] at hdates ⊢
    refine ⟨x.timestamp, successive_spells samples (hnamed x hx).1 rest x [x] "" _
      (hnamed x hx).2.2 (le_refl _) ?_ (htracked ▸ hsorted) ?_⟩
    · intro y hy
      have hy : y ∈ tracked samples := by
        rw [htracked]
        exact hy
      exact ⟨hy, (hnamed y (hmem y hy)).2⟩
    · intro p hp
      exact hdates _ (List.mem_map.mpr ⟨p, hp, rfl⟩)

omit [Runtime] in
/-- The samples that the session of a spell covers. -/
theorem covered_iff (hincreasing : samples.Pairwise fun x y => x.timestamp < y.timestamp)
    {p : Spell} (hp : p ∈ spells samples) {x : ActivityData}
    (hend : x.timestamp < p.opening.timestamp + p.duration) :
    x ∈ p.samples ↔ x ∈ samples ∧ p.opening.timestamp ≤ x.timestamp := by
  obtain ⟨hopening, hclosing, horder, hsamples⟩ :=
    Service.ActivityCoordinator.spells_spec hincreasing hp
  have hle := (Time.toInt32_pos (x := p.closing.timestamp - p.opening.timestamp) (by omega)).2
  have hlt : x.timestamp < p.closing.timestamp := by
    have hduration : p.duration ≤ p.closing.timestamp - p.opening.timestamp := hle
    omega
  rw [hsamples]
  constructor
  · rintro ⟨hx, hstart, -⟩
    exact ⟨(List.mem_filter.mp hx).1, hstart⟩
  · rintro ⟨hx, hstart⟩
    -- between two times of the calendar
    have hfirst := of_decide_eq_true (List.mem_filter.mp hopening).2
    have hlast := of_decide_eq_true (List.mem_filter.mp hclosing).2
    refine ⟨List.mem_filter.mpr ⟨hx, decide_eq_true ?_⟩, hstart, hlt⟩
    omega

/-- **Activity is attributed to the user and program that produced it** exactly when, in each spell
    of one title that has ended, user and program do not change, and the user is the first of
    all. -/
theorem attributed_iff {ds : List (DateTime × ActivityPayload)}
    (hmachine : machine ≠ "") (hm : s.db.machines.find machine = some m)
    (hactive : m.status = .active)
    (hempty : ∀ r ∈ s.db.activitySessions.rows, r.machineId ≠ machine)
    (hincreasing : samples.Pairwise fun x y => x.timestamp < y.timestamp)
    (hnamed : ∀ x ∈ samples, x.username ≠ "" ∧ x.processName ≠ "" ∧ x.activeWindow ≠ "")
    (hds : ds.map Prod.snd = sent samples)
    (hdates : ∀ p ∈ sent samples, Runtime.dateOf (.str (text p)) = some (millis p)) :
    Attributed machine samples (deliverAll c machine s ds) ↔ Steady samples := by
  obtain ⟨bound, hsuccessive⟩ := successive_sent hincreasing hnamed hdates
  have hlatest : Latest machine "" bound s := by
    refine ⟨⟨m, hm, hactive⟩, fun r hr hmr => absurd hmr (hempty r hr), fun r hr => ?_⟩
    obtain ⟨hmem, hmr⟩ := Reports.mem_of_recentSession hr
    exact absurd hmr (hempty r hmem)
  obtain ⟨new, hrows, hmachines, hspans⟩ :=
    spans_deliverAll (c := c) hmachine ds s "" bound hlatest (hds ▸ hsuccessive)
  rw [hds, Service.ActivityCoordinator.sent_eq (fun x hx => (hnamed x hx).1) hincreasing,
    List.map_map] at hspans
  constructor
  · intro hattributed p hp x hx hend
    -- the spell has its session
    have hspan : span (p.payload (firstUser samples)) ∈ new.map spanOf := by
      rw [hspans]
      exact List.mem_map.mpr ⟨p, hp, rfl⟩
    obtain ⟨r, hr, hrspan⟩ := List.mem_map.mp hspan
    have hopening := (Service.ActivityCoordinator.spells_spec hincreasing hp).1
    have hstart : r.startTime = p.opening.timestamp :=
      (congrArg Span.startTime hrspan).trans (millis_payload hopening)
    have hrend : r.endTime = p.opening.timestamp + p.duration :=
      (congrArg Span.endTime hrspan).trans (congrArg (· + p.duration) (millis_payload hopening))
    obtain ⟨hmem, hge⟩ := (covered_iff hincreasing hp hend).mp hx
    have hrow : r ∈ (deliverAll c machine s ds).db.activitySessions.rows := by
      rw [hrows]
      exact List.mem_append_right _ hr
    obtain ⟨husername, hprocess⟩ :=
      hattributed r hrow (hmachines r hr) x hmem (by omega) (by omega)
    have huser := (congrArg Span.username hrspan).symm.trans husername
    have hprogram := (congrArg Span.processName hrspan).symm.trans hprocess
    exact ⟨(Option.some.inj huser).symm, (Option.some.inj hprogram).symm⟩
  · intro hsteady r hr hmr x hx hge hlt
    rw [hrows] at hr
    rcases List.mem_append.mp hr with hr | hr
    · exact absurd hmr (hempty r hr)
    · -- the session is that of a spell
      have hspan : spanOf r ∈ new.map spanOf := List.mem_map.mpr ⟨r, hr, rfl⟩
      rw [hspans] at hspan
      obtain ⟨p, hp, hrspan⟩ := List.mem_map.mp hspan
      have hopening := (Service.ActivityCoordinator.spells_spec hincreasing hp).1
      have hstart : r.startTime = p.opening.timestamp :=
        (congrArg Span.startTime hrspan).symm.trans (millis_payload hopening)
      have hrend : r.endTime = p.opening.timestamp + p.duration :=
        (congrArg Span.endTime hrspan).symm.trans
          (congrArg (· + p.duration) (millis_payload hopening))
      have hend : x.timestamp < p.opening.timestamp + p.duration := by omega
      have hmem := (covered_iff hincreasing hp hend).mpr ⟨hx, by omega⟩
      obtain ⟨huser, hprogram⟩ := hsteady p hp x hmem hend
      have husername : r.username = some (firstUser samples) := (congrArg Span.username hrspan).symm
      have hprocess : r.processName = some p.opening.processName :=
        (congrArg Span.processName hrspan).symm
      rw [husername, hprocess, huser, hprogram]
      exact ⟨rfl, rfl⟩

end Delivery

/-! ## Two users of one machine -/

/-- A sample, some seconds after noon of 1 March 2024. -/
def sample (seconds : Int) (username processName activeWindow : String) : ActivityData where
  timestamp := 1709294400 + seconds
  activeWindow := activeWindow
  processName := processName
  username := username

/-- One user, in two windows, and a third. -/
def oneUser : List ActivityData :=
  [sample 0 "alice" "outlook" "Inbox", sample 10 "alice" "outlook" "Inbox",
    sample 20 "alice" "winword" "Report", sample 30 "alice" "outlook" "Inbox"]

/-- Bob takes over in the second window. -/
def twoUsers : List ActivityData :=
  [sample 0 "alice" "outlook" "Inbox", sample 10 "bob" "winword" "Report",
    sample 20 "bob" "outlook" "Inbox"]

/-- The payloads, each handled a second after the one before. -/
def handled (samples : List ActivityData) : List (DateTime × ActivityPayload) :=
  (sent samples).zipIdx.map fun (p, i) => (1709294400000 + 1000 * i, p)

/-- A runtime that reads the times of the given payloads, and no other value. -/
@[reducible] def readingOf (samples : List ActivityData) : Runtime :=
  reading ((sent samples).map fun p => offset p.timestamp)

theorem attributed_oneUser :
    Attributed "PC-1" oneUser
        (@deliverAll (readingOf oneUser) .camel "PC-1" .adopted (handled oneUser)) ↔
      Steady oneUser :=
  @attributed_iff (readingOf oneUser) .camel "PC-1" .adopted _ oneUser (handled oneUser) (by decide)
    rfl rfl (fun _ hr => nomatch hr) (by decide) (by decide) (by decide) (by decide)

/-- Bob's report is stored as Alice's. -/
theorem not_attributed_twoUsers :
    ¬ Attributed "PC-1" twoUsers
        (@deliverAll (readingOf twoUsers) .camel "PC-1" .adopted (handled twoUsers)) := by
  intro h
  have hlast := h _ (List.mem_cons_of_mem _ List.mem_cons_self) rfl
    (sample 10 "bob" "winword" "Report") (by decide) (by decide) (by decide)
  exact absurd hlast.1 (by decide)

end Server.ActivityDelivery
