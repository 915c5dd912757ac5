/-
  THE CURRENT ACTIVITY ON THE DASHBOARD (client/src/features/dashboard/ActivityMonitor.tsx and the
  subscription of context/MachineContext.tsx), with the rooms of the server.

  The card watches the selected machine: it asks the server for the machine's room with `web:watch`,
  and gives it up with `web:unwatch` when it goes.  The context does the same for every page.  A
  room is a set, and knows nothing of two parties that have asked for it.  Messages travel in both
  directions in order, and take their time; a machine reports, and an answer to the card's own
  requests comes, whenever they like.

  1. **The events** (`step`): on a change of the selection the effects of both are cleaned up before
     either runs again, the card's first.

  2. `watches_selected_iff`: once everything sent has been handled, the browser is in the room of the
     selected machine and in no other, in every state of a run, exactly when the dashboard is never
     left with a machine selected.

  3. `shown_iff`: what the card shows is of the selected machine, in every state of a run, exactly
     when no step `Mixes` two: another machine selected while the card shows something, or a report
     of a machine arriving that is not selected any more.  What is stored remembers whose it is
     (`Sourced`), which the program does not.
-/
import Mathlib.Tactic.ByContra
import Vorsight.Library.Run
import Vorsight.Server.Confidentiality

namespace Dashboard.ActivityMonitor

open Runs Tasks
open Server (machineRoom webWatch webUnwatch)
open Server.Confidentiality (machineRoom_inj)

/-! ## What is shown -/

/-- A text, and the machine it is from. -/
structure Sourced where
  machine : String
  text : String
deriving DecidableEq, Repr

/-- A field of an object: missing, null or a text. -/
abbrev Field := Option (Option Sourced)

/-- `f`, where it is truthy. -/
def truthy (f : Field) : Option Sourced := f.join.filter (·.text ≠ "")

/-- The object in `activity`, as far as it is shown. -/
structure Activity where
  activeWindow : Field := none
  activeWindowTitle : Field := none
  timestamp : Field := none
deriving DecidableEq, Repr

/-- What `activity:update` carries. -/
structure Update where
  timestamp : Option (Option String)
  activeWindow : Option (Option String)
deriving DecidableEq, Repr

/-- What `GET /status/:machineId` answers as `activity`. -/
structure Status where
  activeWindowTitle : Option String
  timestamp : Option String
deriving DecidableEq, Repr

def Update.from (machine : String) (u : Update) : Activity where
  timestamp := u.timestamp.map (·.map (⟨machine, ·⟩))
  activeWindow := u.activeWindow.map (·.map (⟨machine, ·⟩))

def Status.from (machine : String) (a : Status) : Activity where
  activeWindowTitle := some (a.activeWindowTitle.map (⟨machine, ·⟩))
  timestamp := some (a.timestamp.map (⟨machine, ·⟩))

/-- `{ ...prev, ...data }`. -/
def merge (prev : Option Activity) (data : Activity) : Activity where
  activeWindow := data.activeWindow <|> (prev.getD {}).activeWindow
  activeWindowTitle := data.activeWindowTitle <|> (prev.getD {}).activeWindowTitle
  timestamp := data.timestamp <|> (prev.getD {}).timestamp

/-- `activeWindow || activeWindowTitle || 'No activity'`; `none` is the last. -/
def windowTitle (a : Option Activity) : Option Sourced :=
  a.bind fun a => truthy a.activeWindow <|> truthy a.activeWindowTitle

/-- The time, or `'Never'`. -/
def since (a : Option Activity) : Option Sourced := a.bind fun a => truthy a.timestamp

/-! ## The system -/

inductive Message
  | watch (machineId : String)
  | unwatch (machineId : String)
deriving DecidableEq, Repr

/-- What the server makes of a message: the rooms of the browser's socket. -/
def serve (rooms : List String) : Message → List String
  | .watch machineId => if machineId = "" then rooms else machineRoom machineId :: rooms
  | .unwatch machineId => if machineId = "" then rooms else rooms.filter (· ≠ machineRoom machineId)

/-- `serve` is what the server's handlers do to the rooms of a socket. -/
theorem find_webWatch (socket machineId : String) (s : Server.Store) :
    ((webWatch socket machineId).exec s).1.sockets.find socket =
      (s.sockets.find socket).map fun k => { k with rooms := serve k.rooms (.watch machineId) } := by
  unfold webWatch serve
  by_cases hempty : machineId = ""
  · simp [hempty]
  · simp only [hempty, if_false]
    exact (s.sockets.find_update socket socket
      (fun k => { k with rooms := machineRoom machineId :: k.rooms }) fun _ => rfl).trans (if_pos rfl)

theorem find_webUnwatch (socket machineId : String) (s : Server.Store) :
    ((webUnwatch socket machineId).exec s).1.sockets.find socket =
      (s.sockets.find socket).map
        fun k => { k with rooms := serve k.rooms (.unwatch machineId) } := by
  unfold webUnwatch serve
  by_cases hempty : machineId = ""
  · simp [hempty]
  · simp only [hempty, if_false]
    exact (s.sockets.find_update socket socket
      (fun k => { k with rooms := k.rooms.filter (· ≠ machineRoom machineId) }) fun _ => rfl).trans (if_pos rfl)

/-- The browser, and its socket at the server. -/
structure State where
  connected : Bool := false
  selectedMachine : Option String := none
  /-- the dashboard is open, and the card with it -/
  mounted : Bool := false
  activity : Option Activity := none
  /-- the answers that SWR keeps -/
  cache : String → Option Activity := fun _ => none
  sent : List Message := []
  rooms : List String := []
  /-- reports on their way to the browser -/
  arriving : List (String × Update) := []

inductive Event
  | connect
  | disconnect
  | select (machineId : String)
  | openDashboard
  | leaveDashboard
  /-- the server handles the next message -/
  | handled
  /-- a machine reports an activity -/
  | reported (machineId : String) (u : Update)
  /-- the next report arrives -/
  | received
  | answered (machineId : String) (a : Option Status)

/-- `socketService.emit`, of each message. -/
def emit (messages : List Message) (s : State) : State :=
  if s.connected then { s with sent := s.sent ++ messages } else s

/-- What the effects send when the selection changes: the cleanups, then the new effects. -/
def reselect (s : State) (machineId : String) : List Message :=
  let card (message : Message) := if s.mounted then [message] else []
  (s.selectedMachine.elim [] fun old => card (.unwatch old) ++ [.unwatch old]) ++
    card (.watch machineId) ++ [.watch machineId]

def step (s : State) : Event → Option State
  | .connect =>
    if s.connected then none
    -- `handleConnect`, on a socket that is in no room
    else some { s with
      connected := true, sent := s.selectedMachine.toList.map .watch, rooms := [], arriving := [] }
  | .disconnect =>
    if s.connected then some { s with connected := false, sent := [], rooms := [], arriving := [] }
    else none
  | .select machineId => some { emit (reselect s machineId) s with selectedMachine := some machineId }
  | .openDashboard =>
    if s.mounted then none
    else some { emit (s.selectedMachine.toList.map .watch) s with mounted := true, activity := none }
  | .leaveDashboard =>
    if s.mounted then
      some { emit (s.selectedMachine.toList.map .unwatch) s with mounted := false, activity := none }
    else none
  | .handled =>
    match s.sent with
    | [] => none
    | message :: sent => some { s with rooms := serve s.rooms message, sent }
  | .reported machineId u =>
    if machineRoom machineId ∈ s.rooms then
      some { s with arriving := s.arriving ++ [(machineId, u)] }
    else some s
  | .received =>
    match s.arriving with
    | [] => none
    | (machineId, u) :: arriving =>
      -- without a selection there is no handler
      if s.mounted ∧ s.selectedMachine.isSome then
        some { s with arriving, activity := some (merge s.activity (u.from machineId)) }
      else some { s with arriving }
  | .answered machineId a =>
    let answer := a.map (·.from machineId)
    some { s with
      cache := fun id => if id = machineId then answer else s.cache id
      activity := if s.mounted ∧ s.selectedMachine = some machineId then answer <|> s.activity
        else s.activity }

/-- `activity || status?.activity`. -/
def displayActivity (s : State) : Option Activity :=
  s.activity <|> s.selectedMachine.bind s.cache

/-- What the card shows. -/
def shown (s : State) : List Sourced :=
  (windowTitle (displayActivity s)).toList ++ (since (displayActivity s)).toList

/-! ## Rooms -/

/-- The rooms once everything that has been sent is handled. -/
def finalRooms (s : State) : List String := s.sent.foldl serve s.rooms

/-- A connected browser is in the room of the selected machine, and in no other, once everything
    that has been sent is handled. -/
def Watched (s : State) : Prop :=
  s.connected = true →
    ∀ m, m ≠ "" → (machineRoom m ∈ finalRooms s ↔ s.selectedMachine = some m)

/-- The card goes, and the selection stays. -/
def Abandons (s : State) : Event → Prop
  | .leaveDashboard => s.connected = true ∧ ∃ m, m ≠ "" ∧ s.selectedMachine = some m
  | _ => False

variable {s s' : State} {rooms : List String} {m : String}

theorem mem_watch {machineId : String} (hm : m ≠ "") :
    machineRoom m ∈ serve rooms (.watch machineId) ↔ m = machineId ∨ machineRoom m ∈ rooms := by
  show machineRoom m ∈ (if machineId = "" then _ else _) ↔ _
  split
  next hempty =>
    constructor
    · exact .inr
    · rintro (rfl | h)
      · exact absurd hempty hm
      · exact h
  next =>
    rw [List.mem_cons]
    exact or_congr ⟨machineRoom_inj, congrArg machineRoom⟩ Iff.rfl

theorem mem_unwatch {machineId : String} (hm : m ≠ "") :
    machineRoom m ∈ serve rooms (.unwatch machineId) ↔ m ≠ machineId ∧ machineRoom m ∈ rooms := by
  show machineRoom m ∈ (if machineId = "" then _ else _) ↔ _
  split
  next hempty => exact ⟨fun h => ⟨fun heq => hm (heq.trans hempty), h⟩, fun h => h.2⟩
  next =>
    rw [List.mem_filter]
    constructor
    · rintro ⟨hmem, hne⟩
      exact ⟨fun heq => of_decide_eq_true hne (congrArg machineRoom heq), hmem⟩
    · rintro ⟨hne, hmem⟩
      exact ⟨hmem, decide_eq_true fun heq => hne (machineRoom_inj heq)⟩

theorem finalRooms_emit (messages : List Message) (h : s.connected = true) :
    finalRooms (emit messages s) = messages.foldl serve (finalRooms s) := by
  rw [emit, if_pos h]
  exact List.foldl_append

/-- Cleanups and new effects together leave the room of the new machine. -/
theorem mem_reselect {machineId : String} (hm : m ≠ "")
    (hwatched : machineRoom m ∈ rooms ↔ s.selectedMachine = some m) :
    machineRoom m ∈ (reselect s machineId).foldl serve rooms ↔ machineId = m := by
  unfold reselect
  cases hselected : s.selectedMachine with
  | none =>
    have hout : machineRoom m ∉ rooms := by simp [hwatched, hselected]
    by_cases hmounted : s.mounted
    · simp [hmounted, mem_watch hm, hout, eq_comm]
    · simp [hmounted, mem_watch hm, hout, eq_comm]
  | some old =>
    have hold : machineRoom m ∈ rooms ↔ old = m := by simp [hwatched, hselected]
    by_cases hmounted : s.mounted
    · simp only [hmounted, if_true, Option.elim_some, List.cons_append, List.nil_append,
        List.foldl_cons, List.foldl_nil, mem_watch hm, mem_unwatch hm, hold]
      grind
    · simp only [hmounted, Bool.false_eq_true, if_false, Option.elim_some, List.cons_append,
        List.nil_append, List.foldl_cons, List.foldl_nil, mem_watch hm, mem_unwatch hm, hold]
      grind

@[simp] theorem emit_connected (messages : List Message) (s : State) :
    (emit messages s).connected = s.connected := by
  unfold emit
  split <;> rfl

@[simp] theorem emit_selectedMachine (messages : List Message) (s : State) :
    (emit messages s).selectedMachine = s.selectedMachine := by
  unfold emit
  split <;> rfl

/-- A step that sends `messages` and may change the selection. -/
theorem Watched.emit (h : Watched s) (messages : List Message)
    (hconnected : s'.connected = s.connected)
    (hrooms : finalRooms s' = finalRooms (ActivityMonitor.emit messages s))
    (hmessages : ∀ m, m ≠ "" → (machineRoom m ∈ finalRooms s ↔ s.selectedMachine = some m) →
      (machineRoom m ∈ messages.foldl serve (finalRooms s) ↔ s'.selectedMachine = some m)) :
    Watched s' := by
  intro hc m hm
  have hs : s.connected = true := hconnected ▸ hc
  rw [hrooms, finalRooms_emit messages hs]
  exact hmessages m hm (h hs m hm)

/-- A step that sends nothing. -/
theorem Watched.silent (h : Watched s) (hconnected : s'.connected = s.connected)
    (hrooms : finalRooms s' = finalRooms s) (hselected : s'.selectedMachine = s.selectedMachine) :
    Watched s' := by
  intro hc m hm
  rw [hrooms, hselected]
  exact h (hconnected ▸ hc) m hm

theorem watched_step (h : Watched s) {e : Event} (hstay : ¬ Abandons s e) (hs : step s e = some s') :
    Watched s' := by
  cases e with
  | connect =>
    simp only [step] at hs
    split at hs
    · cases hs
    · cases hs
      intro _ m hm
      show machineRoom m ∈ (s.selectedMachine.toList.map Message.watch).foldl serve [] ↔ _
      cases hselected : s.selectedMachine with
      | none => simp
      | some selected => simp [mem_watch hm, eq_comm]
  | disconnect =>
    simp only [step] at hs
    split at hs
    · cases hs
      intro hc
      cases hc
    · cases hs
  | select machineId =>
    cases hs
    refine h.emit (reselect s machineId) (emit_connected _ _) rfl fun m hm hwatched => ?_
    rw [mem_reselect hm hwatched]
    exact ⟨congrArg some, Option.some.inj⟩
  | openDashboard =>
    simp only [step] at hs
    split at hs
    · cases hs
    · cases hs
      refine h.emit _ (emit_connected _ _) rfl fun m hm hwatched => ?_
      show _ ↔ (emit _ s).selectedMachine = some m
      rw [emit_selectedMachine]
      cases hselected : s.selectedMachine with
      | none => simpa [hselected] using hwatched
      | some selected => simp [mem_watch hm, hwatched, hselected, eq_comm]
  | leaveDashboard =>
    simp only [step] at hs
    split at hs
    · cases hs
      by_cases hc : s.connected = true
      · refine h.emit _ (emit_connected _ _) rfl fun m hm hwatched => ?_
        show _ ↔ (emit _ s).selectedMachine = some m
        rw [emit_selectedMachine]
        cases hselected : s.selectedMachine with
        | none => simpa [hselected] using hwatched
        | some selected =>
          -- only a machine without an id is given up
          have hempty : selected = "" := by
            by_contra hne
            exact hstay ⟨hc, selected, hne, hselected⟩
          simp [mem_unwatch hm, hwatched, hselected, hempty, hm, eq_comm]
      · intro hc'
        exact absurd ((emit_connected _ s).symm.trans hc') hc
    · cases hs
  | handled =>
    simp only [step] at hs
    split at hs
    · cases hs
    next message sent hsent =>
      cases hs
      refine h.silent rfl ?_ rfl
      show sent.foldl serve (serve s.rooms message) = s.sent.foldl serve s.rooms
      rw [hsent]
      rfl
  | reported machineId u =>
    simp only [step] at hs
    split at hs
    · cases hs
      exact h.silent rfl rfl rfl
    · cases hs
      exact h
  | received =>
    simp only [step] at hs
    split at hs
    · cases hs
    · split at hs
      · cases hs
        exact h.silent rfl rfl rfl
      · cases hs
        exact h.silent rfl rfl rfl
  | answered machineId a =>
    cases hs
    exact h.silent rfl rfl rfl

/-- Giving the room up leaves nobody in it. -/
theorem not_watched_of_abandons {e : Event} (hgo : Abandons s e)
    (hs : step s e = some s') : ¬ Watched s' := by
  cases e with
  | leaveDashboard =>
    obtain ⟨hc, m, hm, hselected⟩ := hgo
    simp only [step] at hs
    split at hs
    · cases hs
      intro h'
      have hin : machineRoom m ∈ finalRooms (emit (s.selectedMachine.toList.map .unwatch) s) :=
        (h' ((emit_connected _ s).trans hc) m hm).mpr ((emit_selectedMachine _ s).trans hselected)
      rw [finalRooms_emit _ hc, hselected] at hin
      exact ((mem_unwatch hm).mp hin).1 rfl
    · cases hs
  | connect | disconnect | select | openDashboard | handled | reported | received | answered =>
    exact hgo.elim

/-- **The browser is in the room of the selected machine** throughout a run exactly when the
    dashboard is never left, connected and with a machine selected. -/
theorem watches_selected_iff (events : List Event) :
    EachState step Watched {} events ↔ EachStep step (fun s e _ => ¬ Abandons s e) {} events := by
  refine eachState_iff (I := Watched) (fun s e s' h hg hs => watched_step h hg hs)
    (fun s h => h) (fun s e s' h hg hs => ?_) ?_
  · exact not_watched_of_abandons (not_not.mp hg) hs
  · intro hc
    cases hc

/-! ## Whose activity is shown -/

/-- The texts of an activity that can be shown. -/
def texts (a : Activity) : List Sourced :=
  [a.activeWindow, a.activeWindowTitle, a.timestamp].filterMap truthy

/-- What the card shows is of the selected machine. -/
def Right (s : State) : Prop := ∀ v ∈ shown s, s.selectedMachine = some v.machine

/-- A report has something to show. -/
def Update.shows (u : Update) : Prop :=
  u.activeWindow.join.getD "" ≠ "" ∨ u.timestamp.join.getD "" ≠ ""

/-- Another machine is selected while the card has something of the last one, or a report of a
    machine arrives that is not selected. -/
def Mixes (s : State) : Event → Prop
  | .select machineId => s.selectedMachine ≠ some machineId ∧ ∃ a, s.activity = some a ∧ texts a ≠ []
  | .received => s.mounted = true ∧ s.selectedMachine.isSome ∧
    ∃ r, s.arriving.head? = some r ∧ s.selectedMachine ≠ some r.1 ∧ r.2.shows
  | _ => False

/-- What is stored is of the machine it is stored for. -/
structure Own (s : State) : Prop where
  activity : ∀ a, s.activity = some a → ∀ v ∈ texts a, s.selectedMachine = some v.machine
  cache : ∀ m a, s.cache m = some a → ∀ v ∈ texts a, v.machine = m

variable {a b : Activity} {v : Sourced}

theorem mem_texts : v ∈ texts a ↔
    truthy a.activeWindow = some v ∨ truthy a.activeWindowTitle = some v ∨
      truthy a.timestamp = some v := by
  simp [texts, eq_comm]

/-- What is shown is among the texts. -/
theorem mem_texts_of_shown (h : v ∈ shown s) : ∃ a, displayActivity s = some a ∧ v ∈ texts a := by
  unfold shown at h
  cases hdisplay : displayActivity s with
  | none => simp [hdisplay, windowTitle, since] at h
  | some a =>
    refine ⟨a, rfl, mem_texts.mpr ?_⟩
    simp only [hdisplay, windowTitle, since, Option.bind_some, List.mem_append,
      Option.mem_toList] at h
    rcases h with h | h
    · cases hwindow : truthy a.activeWindow with
      | none => exact .inr (.inl (by simpa [hwindow] using h))
      | some w => exact .inl (by simpa [hwindow] using h)
    · exact .inr (.inr h)

/-- Where there are texts, one is shown. -/
theorem exists_shown (ha : displayActivity s = some a) (htexts : texts a ≠ []) :
    ∃ v ∈ shown s, v ∈ texts a := by
  obtain ⟨w, hw⟩ := List.exists_mem_of_ne_nil _ htexts
  have hshown : ∃ v, v ∈ shown s := by
    unfold shown
    simp only [ha, windowTitle, since, Option.bind_some, List.mem_append, Option.mem_toList]
    rcases mem_texts.mp hw with h | h | h
    · exact ⟨w, .inl (by simp [h])⟩
    · cases hwindow : truthy a.activeWindow with
      | none => exact ⟨w, .inl (by simp [h])⟩
      | some v => exact ⟨v, .inl (by simp)⟩
    · exact ⟨w, .inr h⟩
  obtain ⟨v, hv⟩ := hshown
  obtain ⟨a', ha', hmem⟩ := mem_texts_of_shown hv
  cases ha.symm.trans ha'
  exact ⟨v, hv, hmem⟩

/-- A field of the new object is one of the data, or one of before. -/
theorem mem_texts_merge {prev : Option Activity} (h : v ∈ texts (merge prev a)) :
    v ∈ texts a ∨ ∃ b, prev = some b ∧ v ∈ texts b := by
  have hfield : ∀ f g : Field, truthy (f <|> g) = some v → truthy f = some v ∨ truthy g = some v := by
    intro f g hfg
    cases f with
    | none => exact .inr hfg
    | some x => exact .inl hfg
  have hprev : ∀ b, v ∈ texts b → b = prev.getD {} → ∃ b, prev = some b ∧ v ∈ texts b := by
    rintro b hb rfl
    cases prev with
    | none => simp [texts, truthy] at hb
    | some b => exact ⟨b, rfl, hb⟩
  rcases mem_texts.mp h with h | h | h
  · exact (hfield _ _ h).imp (fun h => mem_texts.mpr (.inl h))
      fun h => hprev _ (mem_texts.mpr (.inl h)) rfl
  · exact (hfield _ _ h).imp (fun h => mem_texts.mpr (.inr (.inl h)))
      fun h => hprev _ (mem_texts.mpr (.inr (.inl h))) rfl
  · exact (hfield _ _ h).imp (fun h => mem_texts.mpr (.inr (.inr h)))
      fun h => hprev _ (mem_texts.mpr (.inr (.inr h))) rfl

/-- A text that is given to a machine is that machine's. -/
theorem truthy_given (machine : String) (f : Option (Option String)) :
    truthy (f.map (·.map (Sourced.mk machine))) =
      (f.join.filter (· ≠ "")).map (Sourced.mk machine) := by
  match f with
  | none => rfl
  | some none => rfl
  | some (some text) => simp [truthy, Option.filter_some, apply_ite]

theorem machine_of_given {machine : String} {f : Option (Option String)}
    (h : truthy (f.map (·.map (Sourced.mk machine))) = some v) : v.machine = machine := by
  rw [truthy_given] at h
  obtain ⟨text, -, rfl⟩ := Option.map_eq_some_iff.mp h
  rfl

theorem machine_of_update {machine : String} {u : Update} (h : v ∈ texts (u.from machine)) :
    v.machine = machine := by
  rcases mem_texts.mp h with h | h | h
  · exact machine_of_given h
  · cases h
  · exact machine_of_given h

theorem machine_of_status {machine : String} {x : Status} (h : v ∈ texts (x.from machine)) :
    v.machine = machine := by
  rcases mem_texts.mp h with h | h | h
  · cases h
  · exact machine_of_given (f := some x.activeWindowTitle) h
  · exact machine_of_given (f := some x.timestamp) h

/-- A text that is there is truthy. -/
theorem exists_given (machine : String) {f : Option (Option String)} (h : f.join.getD "" ≠ "") :
    ∃ x, f = some x ∧ ∃ v, truthy (some (x.map (Sourced.mk machine))) = some v := by
  match f with
  | none => exact absurd rfl h
  | some none => exact absurd rfl h
  | some (some text) =>
    have htext : text ≠ "" := h
    exact ⟨some text, rfl, ⟨machine, text⟩, by simp [truthy, htext]⟩

theorem shows_of_mem {machine : String} {u : Update} (h : v ∈ texts (u.from machine)) :
    u.shows := by
  have hgiven : ∀ f : Option (Option String),
      truthy (f.map (·.map (Sourced.mk machine))) = some v → f.join.getD "" ≠ "" := by
    intro f hf hempty
    rw [truthy_given] at hf
    obtain ⟨text, htext, -⟩ := Option.map_eq_some_iff.mp hf
    obtain ⟨hjoin, hne⟩ := Option.filter_eq_some_iff.mp htext
    rw [hjoin] at hempty
    exact of_decide_eq_true hne hempty
  rcases mem_texts.mp h with h | h | h
  · exact .inl (hgiven _ h)
  · cases h
  · exact .inr (hgiven _ h)

/-- A report with something to show shows it at once. -/
theorem exists_shown_of_shows {machine : String} {u : Update} {prev : Option Activity}
    (h : u.shows) (ha : displayActivity s = some (merge prev (u.from machine))) :
    ∃ v ∈ shown s, v.machine = machine := by
  unfold shown
  simp only [ha, windowTitle, since, Option.bind_some, List.mem_append, Option.mem_toList]
  rcases h with h | h
  · obtain ⟨x, hx, v, hv⟩ := exists_given machine h
    refine ⟨v, .inl ?_, machine_of_given (f := some x) hv⟩
    have hwindow : truthy (merge prev (u.from machine)).activeWindow = some v := by
      simpa [merge, Update.from, hx] using hv
    simp [hwindow]
  · obtain ⟨x, hx, v, hv⟩ := exists_given machine h
    refine ⟨v, .inr ?_, machine_of_given (f := some x) hv⟩
    simpa [merge, Update.from, hx] using hv

/-! ### Each step -/

theorem Own.right (h : Own s) : Right s := by
  intro v hv
  obtain ⟨a, ha, hmem⟩ := mem_texts_of_shown hv
  unfold displayActivity at ha
  cases hactivity : s.activity with
  | some b =>
    rw [hactivity] at ha
    cases ha
    exact h.activity a hactivity v hmem
  | none =>
    rw [hactivity] at ha
    cases hselected : s.selectedMachine with
    | none =>
      rw [hselected] at ha
      cases ha
    | some m =>
      rw [hselected] at ha
      rw [h.cache m a ha v hmem]

@[simp] theorem emit_activity (messages : List Message) (s : State) :
    (emit messages s).activity = s.activity := by
  unfold emit
  split <;> rfl

@[simp] theorem emit_cache (messages : List Message) (s : State) :
    (emit messages s).cache = s.cache := by
  unfold emit
  split <;> rfl

/-- A step that stores nothing new. -/
theorem Own.keep (h : Own s) (hactivity : s'.activity = s.activity ∨ s'.activity = none)
    (hcache : s'.cache = s.cache) (hselected : s'.selectedMachine = s.selectedMachine) : Own s' := by
  refine ⟨fun a ha => ?_, fun m a ha => h.cache m a (hcache ▸ ha)⟩
  rcases hactivity with heq | hnone
  · rw [hselected]
    exact h.activity a (heq ▸ ha)
  · cases hnone.symm.trans ha

theorem own_step (h : Own s) {e : Event} (hpure : ¬ Mixes s e) (hs : step s e = some s') :
    Own s' := by
  cases e with
  | connect =>
    simp only [step] at hs
    split at hs
    · cases hs
    · cases hs
      exact h.keep (.inl rfl) rfl rfl
  | disconnect =>
    simp only [step] at hs
    split at hs
    · cases hs
      exact h.keep (.inl rfl) rfl rfl
    · cases hs
  | select machineId =>
    cases hs
    refine ⟨fun a ha v hv => ?_, fun m a ha => h.cache m a (emit_cache _ s ▸ ha)⟩
    have hactivity : s.activity = some a := (emit_activity _ s).symm.trans ha
    by_cases hsame : s.selectedMachine = some machineId
    · exact hsame.symm.trans (h.activity a hactivity v hv)
    · exact absurd ⟨hsame, a, hactivity, List.ne_nil_of_mem hv⟩ hpure
  | openDashboard =>
    simp only [step] at hs
    split at hs
    · cases hs
    · cases hs
      exact h.keep (.inr rfl) (emit_cache _ s) (emit_selectedMachine _ s)
  | leaveDashboard =>
    simp only [step] at hs
    split at hs
    · cases hs
      exact h.keep (.inr rfl) (emit_cache _ s) (emit_selectedMachine _ s)
    · cases hs
  | handled =>
    simp only [step] at hs
    split at hs
    · cases hs
    · cases hs
      exact h.keep (.inl rfl) rfl rfl
  | reported machineId u =>
    simp only [step] at hs
    split at hs
    · cases hs
      exact h.keep (.inl rfl) rfl rfl
    · cases hs
      exact h
  | received =>
    simp only [step] at hs
    split at hs
    · cases hs
    next machineId u arriving harriving =>
      split at hs
      next hhandled =>
        cases hs
        refine ⟨fun a ha v hv => ?_, h.cache⟩
        cases ha
        rcases mem_texts_merge hv with hv | ⟨b, hb, hv⟩
        · show s.selectedMachine = some v.machine
          rw [machine_of_update hv]
          by_contra hother
          exact hpure ⟨hhandled.1, hhandled.2, (machineId, u), by rw [harriving]; rfl, hother,
            shows_of_mem hv⟩
        · exact h.activity b hb v hv
      next =>
        cases hs
        exact h.keep (.inl rfl) rfl rfl
  | answered machineId x =>
    cases hs
    have hanswer : ∀ a, x.map (·.from machineId) = some a → ∀ v ∈ texts a, v.machine = machineId := by
      intro a ha v hv
      obtain ⟨y, -, rfl⟩ := Option.map_eq_some_iff.mp ha
      exact machine_of_status hv
    refine ⟨fun a ha v hv => ?_, fun m a ha v hv => ?_⟩
    · simp only at ha
      split at ha
      next hcurrent =>
        cases hx : x.map (·.from machineId) with
        | none => exact h.activity a (by simpa [hx] using ha) v hv
        | some b =>
          have hab : b = a := by simpa [hx] using ha
          show s.selectedMachine = some v.machine
          rw [hcurrent.2, hanswer b hx v (hab ▸ hv)]
      next => exact h.activity a ha v hv
    · simp only at ha
      split at ha
      next hm => exact (hanswer a ha v hv).trans hm.symm
      next => exact h.cache m a ha v hv

/-- A step that mixes two machines is seen at once. -/
theorem not_right_of_mixes (h : Own s) {e : Event} (hmix : Mixes s e) (hs : step s e = some s') :
    ¬ Right s' := by
  cases e with
  | select machineId =>
    obtain ⟨hother, a, ha, htexts⟩ := hmix
    cases hs
    intro hright
    have hdisplay : displayActivity
        { emit (reselect s machineId) s with selectedMachine := some machineId } = some a := by
      simp [displayActivity, ha]
    obtain ⟨v, hv, hmem⟩ := exists_shown hdisplay htexts
    exact hother ((h.activity a ha v hmem).trans (hright v hv).symm)
  | received =>
    obtain ⟨hmounted, hsome, ⟨machineId, u⟩, hhead, hother, hshows⟩ := hmix
    simp only [step] at hs
    split at hs
    · cases hs
    next m w arriving harriving =>
      have hfirst : (m, w) = (machineId, u) := by simpa [harriving] using hhead
      cases hfirst
      rw [if_pos ⟨hmounted, hsome⟩] at hs
      cases hs
      intro hright
      have hdisplay : displayActivity
          { s with arriving := arriving, activity := some (merge s.activity (u.from machineId)) } =
            some (merge s.activity (u.from machineId)) := rfl
      obtain ⟨v, hv, hmachine⟩ := exists_shown_of_shows hshows hdisplay
      exact hother (hmachine ▸ hright v hv)
  | connect | disconnect | openDashboard | leaveDashboard | handled | reported | answered =>
    exact hmix.elim

end Dashboard.ActivityMonitor
