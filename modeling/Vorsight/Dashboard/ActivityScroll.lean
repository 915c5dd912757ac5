/-
  THE ACTIVITY LOG, scrolled down to its end (client/src/hooks/useActivity.ts and ActivityPage.tsx),
  with the route that its pages come from (server/src/routes/web/activity.ts).

  The route cuts the sessions of a machine into pages by offset, the latest first.  The log loads
  them one after the other and keeps what it has loaded, while the machine goes on reporting:
  between two pages sessions are extended, and others are started.

  1. **Program** — `get` (the route), `getKey` and `isReachingEnd` (the hook).  A step loads the
     next page, or writes what a heartbeat makes of the sessions (`Sessions.record`), which stands
     for both entry points and for whatever the handlers have read before.

  2. **Simulation** (`simulates`) — each step is one of a collection that is read by offset
     (`OffsetPaging`): sessions keep their start times, and none is deleted.

  3. **Are sessions missed?** (`end_shows_all`)  No: where the log ends, it shows every session
     that was there when the scrolling began.

  4. **Are sessions shown twice, or out of order?** (`in_order_iff`)  As soon as a page is loaded
     after a session has been started that is later than the last one shown, and only then.
-/
import Mathlib.Data.Prod.Lex
import Vorsight.Library.OffsetPaging
import Vorsight.Library.Run
import Vorsight.Server.Sessions

namespace Dashboard.ActivityScroll

open Js OffsetPaging Runs Server Server.Sessions Tables

/-! ## The route -/

/-- The order in which the database gives rows of one start time: by a place of their ids. -/
class RowOrder where
  place : Nat → Int
  injective : Function.Injective place

/-- `timestamp` is sent as its ISO text. -/
structure ActivityLogEntry where
  id : Nat
  machineId : String
  timestamp : DateTime
  activeWindow : Option String
  processName : Option String
  duration : Int
  username : Option String
deriving DecidableEq, Repr

/-- Convert to frontend format. -/
def formatted (s : ActivitySession) : ActivityLogEntry where
  id := s.id
  machineId := s.machineId
  timestamp := s.startTime * 1000
  activeWindow := s.activeWindow
  processName := s.processName
  duration := s.durationSeconds
  username := s.username

structure Query where
  machineId : String
  limit : Option String := none
  offset : Option String := none

/-- `skip` and `take`, which counts from the end when it is negative; `none` is an error. -/
def cut {α : Type} (skip take : Int) (xs : List α) : Option (List α) :=
  if skip < 0 then none
  else if take < 0 then some ((xs.reverse.drop skip.toNat).take take.natAbs).reverse
  else some ((xs.drop skip.toNat).take take.toNat)

section Scroll

variable [RowOrder]

/-- What `orderBy: { startTime: 'desc' }` compares. -/
def sessionKey (s : ActivitySession) : Int ×ₗ Int := toLex (s.startTime, RowOrder.place s.id)

def entryKey (e : ActivityLogEntry) : Int ×ₗ Int := toLex (e.timestamp, RowOrder.place e.id)

def sessionsOf (machineId : String) (t : Sequence ActivitySession.id) : List ActivitySession :=
  t.rows.filter (·.machineId = machineId)

/-- `router.get('/:machineId')` -/
def get (t : Sequence ActivitySession.id) (req : Query) : Response (List ActivityLogEntry) :=
  match parseInt (req.limit.getD "100"), parseInt (req.offset.getD "0") with
  | some take, some skip =>
    match cut skip take (descending sessionKey (sessionsOf req.machineId t)) with
    | some sessions => .json (sessions.map formatted)
    | none => .error 500 "Failed to fetch activity"
  | _, _ => .error 500 "Failed to fetch activity"

/-! ## The hook -/

/-- The request for page `pageIndex`; `none` at the end. -/
def getKey (machineId : Option String) (limit pageIndex : Nat)
    (previousPageData : Option (List ActivityLogEntry)) : Option Query :=
  (machineId.filter (· ≠ "")).bind fun machineId =>
    if previousPageData.any (·.length < limit) then none
    else some { machineId, limit := some (toString limit),
                offset := some (toString (pageIndex * limit)) }

def isReachingEnd (limit : Nat) (data : List (List ActivityLogEntry)) : Bool :=
  data.head?.any (·.length = 0) || data.getLast?.any (·.length < limit)

/-! ## The system -/

/-- The database, and the pages of the log. -/
structure State where
  db : Database
  data : List (List ActivityLogEntry) := []

def State.activities (s : State) : List ActivityLogEntry := s.data.flatten

inductive Label
  /-- A handler extends the session it has read, or starts one. -/
  | record (id : String) (b : Beat) (recent : Option ActivitySession) (now : DateTime)
  /-- Any other operation of the database. -/
  | other (db : Database)
  /-- The sentinel is in view. -/
  | load

/-- A page that the route fails to give is not kept. -/
def step (machineId : Option String) (limit : Nat) (s : State) : Label → Option State
  | .record id b recent now => (record id b recent s.db now).map fun db => { s with db }
  | .other db => if db.activitySessions = s.db.activitySessions then some { s with db } else none
  | .load => (getKey machineId limit s.data.length s.data.getLast?).map fun req =>
    match get s.db.activitySessions req with
    | .json page => { s with data := s.data ++ [page] }
    | .error _ _ => s

/-! ## The simulation -/

variable {machine : String} {limit : Nat} {s s' : State}

theorem sessionKey_le_iff (a b : ActivitySession) :
    sessionKey a ≤ sessionKey b ↔ entryKey (formatted a) ≤ entryKey (formatted b) := by
  rw [sessionKey, sessionKey, entryKey, entryKey, Prod.Lex.toLex_le_toLex, Prod.Lex.toLex_le_toLex]
  simp only [formatted]
  omega

theorem map_descending (sessions : List ActivitySession) :
    (descending sessionKey sessions).map formatted =
      descending entryKey (sessions.map formatted) :=
  List.map_insertionSort _ _ formatted sessions fun a _ b _ => sessionKey_le_iff b a

/-- The sessions of the machine, as the log shows them. -/
def rowsOf (machine : String) (t : Sequence ActivitySession.id) : List ActivityLogEntry :=
  (sessionsOf machine t).map formatted

/-- **A page of the log** is a page by offset. -/
theorem get_page (t : Sequence ActivitySession.id) (pageIndex : Nat) :
    get t { machineId := machine, limit := some (toString limit),
            offset := some (toString (pageIndex * limit)) } =
      .json (page entryKey limit pageIndex (rowsOf machine t)) := by
  have hcut : ∀ xs : List ActivitySession, cut ((pageIndex * limit : Nat) : Int) (limit : Int) xs =
      some ((xs.drop (pageIndex * limit)).take limit) := by
    intro xs
    rw [cut, if_neg (Int.not_lt.mpr (Int.natCast_nonneg _)),
      if_neg (Int.not_lt.mpr (Int.natCast_nonneg _)), Int.toNat_natCast, Int.toNat_natCast]
  simp only [get, Option.getD_some, parseInt_toString, hcut]
  rw [List.map_take, List.map_drop, map_descending]
  rfl

/-- The machine's log, as a collection and its pages. -/
def reading (machine : String) (s : State) : Reading ActivityLogEntry where
  rows := rowsOf machine s.db.activitySessions
  pages := s.data

theorem distinct_rowsOf (t : Sequence ActivitySession.id) :
    Distinct entryKey (rowsOf machine t) := by
  have hids : ((sessionsOf machine t).map ActivitySession.id).Nodup :=
    t.nodup.sublist (List.filter_sublist.map _)
  rw [List.Nodup, List.pairwise_map] at hids
  rw [Distinct, rowsOf, List.map_map, List.Nodup, List.pairwise_map]
  refine hids.imp fun hne heq => hne ?_
  exact RowOrder.injective (Prod.ext_iff.mp (toLex.injective heq)).2

omit [RowOrder] in
/-- A heartbeat leaves the start times and the owners of sessions as they are. -/
theorem kept_record {id : String} {b : Beat} {recent : Option ActivitySession} {db db' : Database}
    {now : DateTime} (h : record id b recent db now = some db') :
    ∀ r ∈ db.activitySessions.rows, ∃ r' ∈ db'.activitySessions.rows,
      r'.id = r.id ∧ r'.machineId = r.machineId ∧ r'.startTime = r.startTime := by
  intro r hr
  unfold record at h
  split at h
  · rename_i read hread
    obtain ⟨endTime, -, hupdate⟩ := Option.bind_eq_some_iff.mp h
    unfold Database.updateSession at hupdate
    split at hupdate
    · cases hupdate
      have hupdated := fun q : ActivitySession => @Table.mem_update _ _ _ _
        db.activitySessions.toTable read.id (extended read endTime now) (fun _ => rfl) q
      by_cases hid : r.id = read.id
      · refine ⟨extended read endTime now r, ?_, rfl, rfl, rfl⟩
        exact (hupdated _).mpr (Or.inr ⟨r, hr, hid, rfl⟩)
      · refine ⟨r, ?_, rfl, rfl, rfl⟩
        exact (hupdated _).mpr (Or.inl ⟨hr, hid⟩)
    · cases hupdate
  · obtain ⟨row, -, hcreate⟩ := Option.bind_eq_some_iff.mp h
    obtain ⟨-, rfl⟩ := Database.forMachine_eq_some.mp hcreate
    exact ⟨r, List.mem_append_left _ hr, rfl, rfl, rfl⟩

theorem kept_rowsOf {t t' : Sequence ActivitySession.id}
    (h : ∀ r ∈ t.rows, ∃ r' ∈ t'.rows,
      r'.id = r.id ∧ r'.machineId = r.machineId ∧ r'.startTime = r.startTime) :
    (rowsOf machine t).map entryKey ⊆ (rowsOf machine t').map entryKey := by
  intro k hk
  rw [rowsOf, List.map_map, List.mem_map] at hk ⊢
  obtain ⟨r, hr, rfl⟩ := hk
  obtain ⟨hrow, hmachine⟩ := List.mem_filter.mp hr
  obtain ⟨r', hr', hid, hsame, hstart⟩ := h r hrow
  refine ⟨r', List.mem_filter.mpr ⟨hr', ?_⟩, ?_⟩
  · rw [hsame]
    exact hmachine
  · simp only [Function.comp_apply, entryKey, formatted, hid, hstart]

omit [RowOrder] in
theorem getKey_eq_some {pageIndex : Nat} {previous : Option (List ActivityLogEntry)} {req : Query}
    (h : getKey (some machine) limit pageIndex previous = some req) :
    (∀ last ∈ previous, limit ≤ last.length) ∧
      req = { machineId := machine, limit := some (toString limit),
              offset := some (toString (pageIndex * limit)) } := by
  obtain ⟨m, hm, hreq⟩ := Option.bind_eq_some_iff.mp h
  cases (Option.filter_eq_some_iff.mp hm).1
  split at hreq
  · cases hreq
  · rename_i hfull
    cases hreq
    refine ⟨fun last hlast => ?_, rfl⟩
    rw [Option.mem_def.mp hlast] at hfull
    simpa using hfull

/-- **The crux: a step is one of reading by offset.** -/
theorem simulates {l : Label} (hsound : Sound entryKey limit (reading machine s))
    (hs : step (some machine) limit s l = some s') :
    (l ≠ .load ∧ Grows entryKey (reading machine s) (reading machine s')) ∨
      (l = .load ∧ Reads entryKey limit (reading machine s) (reading machine s')) := by
  cases l with
  | record id b recent now =>
    obtain ⟨db, hdb, rfl⟩ := Option.map_eq_some_iff.mp hs
    exact Or.inl ⟨nofun, kept_rowsOf (kept_record hdb), distinct_rowsOf _, rfl⟩
  | other db =>
    simp only [step] at hs
    split at hs
    · rename_i hsame
      cases hs
      refine Or.inl ⟨nofun, kept_rowsOf fun r hr => ⟨r, ?_, rfl, rfl, rfl⟩, distinct_rowsOf _, rfl⟩
      rw [hsame]
      exact hr
    · cases hs
  | load =>
    obtain ⟨req, hreq, rfl⟩ := Option.map_eq_some_iff.mp hs
    obtain ⟨hfull, rfl⟩ := getKey_eq_some hreq
    rw [get_page]
    refine Or.inr ⟨rfl, fun last hlast => ?_, rfl, rfl⟩
    exact Nat.le_antisymm (hsound.bounded last (List.mem_of_getLast? hlast)) (hfull last hlast)

theorem sound_step {l : Label} (h : Sound entryKey limit (reading machine s))
    (hs : step (some machine) limit s l = some s') : Sound entryKey limit (reading machine s') := by
  rcases simulates h hs with ⟨-, hgrows⟩ | ⟨-, hreads⟩
  · exact h.grows hgrows
  · exact h.reads hreads

theorem sound_initial (machine : String) (limit : Nat) (db : Database) :
    Sound entryKey limit (reading machine { db }) :=
  ⟨distinct_rowsOf _, nofun, nofun, List.nil_subset _⟩

/-! ## None is missed -/

/-- At the end the last page is not full. -/
theorem short_of_isReachingEnd (hlimit : 0 < limit) (h : Sound entryKey limit (reading machine s))
    (hend : isReachingEnd limit s.data = true) :
    ∃ last ∈ s.data.getLast?, last.length < limit := by
  rw [isReachingEnd, Bool.or_eq_true] at hend
  rcases hend with hempty | hlast
  · -- an empty first page is not full, so it is the last one
    obtain ⟨first, hfirst, hlength⟩ := (Option.any_eq_true _ _).mp hempty
    rw [decide_eq_true_eq] at hlength
    obtain ⟨rest, hdata⟩ := List.head?_eq_some_iff.mp hfirst
    rcases List.eq_nil_or_concat rest with rfl | ⟨front, last, rfl⟩
    · refine ⟨first, by simp [hdata], ?_⟩
      omega
    · have hfull := h.full first (by
        rw [reading, hdata, List.concat_eq_append, ← List.cons_append, List.dropLast_concat]
        exact List.mem_cons_self)
      omega
  · obtain ⟨last, hlast, hlength⟩ := (Option.any_eq_true _ _).mp hlast
    exact ⟨last, hlast, of_decide_eq_true hlength⟩

/-- **The end of the log shows all.**  Whatever is reported while the pages are loaded, every
    session that was there in the beginning is shown where the log ends. -/
theorem end_shows_all {labels : List Label} {db : Database} (hlimit : 0 < limit)
    (hrun : run (step (some machine) limit) { db } labels = some s)
    (hend : isReachingEnd limit s.data = true) :
    ∀ r ∈ db.activitySessions.rows, r.machineId = machine →
      ∃ e ∈ s.activities, e.id = r.id ∧ e.timestamp = r.startTime * 1000 := by
  intro r hr hmachine
  have hstored : entryKey (formatted r) ∈ (rowsOf machine db.activitySessions).map entryKey :=
    List.mem_map_of_mem (List.mem_map_of_mem
      (List.mem_filter.mpr ⟨hr, decide_eq_true hmachine⟩))
  have hinv : Sound entryKey limit (reading machine s) ∧
      Covered entryKey limit (entryKey (formatted r)) (reading machine s) := by
    refine inv_of_run (I := fun s => Sound entryKey limit (reading machine s) ∧
      Covered entryKey limit (entryKey (formatted r)) (reading machine s)) ?_
      ⟨sound_initial machine limit db, hstored, Or.inr ⟨nofun, Nat.zero_mul limit ▸ Nat.zero_le _⟩⟩
      hrun
    rintro m l m' ⟨hsound, hcovered⟩ hs
    refine ⟨sound_step hsound hs, ?_⟩
    rcases simulates hsound hs with ⟨-, hgrows⟩ | ⟨-, hreads⟩
    · exact hcovered.grows hsound hgrows
    · exact hcovered.reads hsound hreads
  have hshown := shown_of_short hinv.2 (short_of_isReachingEnd hlimit hinv.1 hend)
  obtain ⟨e, he, hkey⟩ := List.mem_map.mp hshown
  obtain ⟨htime, hplace⟩ := Prod.ext_iff.mp (toLex.injective hkey)
  exact ⟨e, he, RowOrder.injective hplace, htime⟩

/-- The database in which later rows come first. -/
@[reducible] def latestFirst : RowOrder := ⟨fun n => n, fun _ _ h => Int.ofNat_inj.mp h⟩

def browsing : ActivitySession where
  id := 1
  machineId := "PC-1"
  startTime := 100
  endTime := 160
  durationSeconds := 60
  processName := "chrome"
  activeWindow := "Mail"
  username := none
  createdAt := 0
  updatedAt := 0

omit [RowOrder] in
theorem below_browsing : ∀ r ∈ [browsing], r.id < 2 := by
  intro r hr
  rw [List.mem_singleton.mp hr]
  decide

def oneSession : Database :=
  { Database.empty with
    machines := ⟨[{ id := "PC-1", name := "Reception", registrationDate := 0, status := .active,
                    apiKey := "4f1c", createdAt := 0 }], List.nodup_singleton _⟩
    activitySessions := ⟨⟨[browsing], List.nodup_singleton _⟩, 2, below_browsing⟩ }

/-- Another session is started. -/
def editor : Beat where
  continues _ := false
  reach := some 200
  newSession _ := some { browsing with startTime := 200, endTime := 200, processName := "code" }

/-- The log in pages of one, and a session that is started behind the first. -/
def scrolled : Option State :=
  run (@step latestFirst (some "PC-1") 1) { db := oneSession }
    [.load, .record "PC-1" editor none 0, .load, .load]

omit [RowOrder] in
theorem end_shows_all_two :
    ∃ s, scrolled = some s ∧ ∃ e ∈ s.activities, e.id = 1 ∧ e.timestamp = 100 * 1000 := by
  have hsome : scrolled.isSome = true := by decide +kernel
  have hend : scrolled.all (isReachingEnd 1 ·.data) = true := by decide +kernel
  obtain ⟨s, hrun⟩ := Option.isSome_iff_exists.mp hsome
  rw [hrun] at hend
  exact ⟨s, hrun, @end_shows_all latestFirst "PC-1" 1 s _ _ (by decide) hrun hend browsing
    List.mem_cons_self rfl⟩

/-! ## In order -/

/-- The last session shown has as many sessions ahead of it as are shown before it. -/
def Settled (machine : String) (s : State) : Prop :=
  ∀ last ∈ s.activities.getLast?,
    ahead entryKey (rowsOf machine s.db.activitySessions) (entryKey last) + 1 =
      s.activities.length

instance (machine : String) (s : State) : Decidable (Settled machine s) := by
  unfold Settled
  infer_instance

/-- A page is loaded while the last session shown is still in its place. -/
def Steady (machine : String) (s : State) : Label → Prop
  | .load => Settled machine s
  | _ => True

instance (machine : String) (s : State) : ∀ l, Decidable (Steady machine s l)
  | .load => inferInstanceAs (Decidable (Settled machine s))
  | .record .. => .isTrue trivial
  | .other _ => .isTrue trivial

/-- **The log is in order**, and shows no session twice, exactly when each page is loaded while the
    last session shown is still in its place. -/
theorem in_order_iff {labels : List Label} {db : Database}
    (hrun : run (step (some machine) limit) { db } labels = some s) :
    (s.activities.Pairwise fun a b => entryKey b < entryKey a) ↔
      EachStep (step (some machine) limit) (fun s l _ => Steady machine s l) { db } labels := by
  have hmode := mode_of_run
    (I := fun s => Sound entryKey limit (reading machine s) ∧ InOrder entryKey (reading machine s))
    (J := fun s => Sound entryKey limit (reading machine s) ∧
      ¬ InOrder entryKey (reading machine s))
    (G := Steady machine) ?_ ?_ ?_
    ⟨sound_initial machine limit db, List.Pairwise.nil⟩ hrun
  · rcases hmode with ⟨hall, -, horder⟩ | ⟨hnot, -, horder⟩
    · exact ⟨fun _ => hall, fun _ => horder⟩
    · exact ⟨fun h => absurd h horder, fun h => absurd h hnot⟩
  · rintro m l m' ⟨hsound, horder⟩ hsteady hs
    refine ⟨sound_step hsound hs, ?_⟩
    rcases simulates hsound hs with ⟨-, hgrows⟩ | ⟨rfl, hreads⟩
    · exact hgrows.inOrder_iff.mpr horder
    · exact (inOrder_iff_still hsound horder hreads).mpr hsteady
  · rintro m l m' ⟨hsound, horder⟩ hnot hs
    refine ⟨sound_step hsound hs, fun horder' => hnot ?_⟩
    rcases simulates hsound hs with ⟨hne, -⟩ | ⟨rfl, hreads⟩
    · cases l with
      | load => exact absurd rfl hne
      | _ => trivial
    · exact (inOrder_iff_still hsound horder hreads).mp horder'
  · rintro m l m' ⟨hsound, hnot⟩ hs
    refine ⟨sound_step hsound hs, fun horder => hnot ?_⟩
    rcases simulates hsound hs with ⟨-, hgrows⟩ | ⟨-, hreads⟩
    · exact hgrows.inOrder_iff.mp horder
    · exact hreads.inOrder horder

omit [RowOrder] in
/-- The session that is there in the beginning is shown twice. -/
theorem in_order_iff_two :
    ∃ s, scrolled = some s ∧ ¬ s.activities.Pairwise fun a b =>
      @entryKey latestFirst b < @entryKey latestFirst a := by
  have hsome : scrolled.isSome = true := by decide +kernel
  obtain ⟨s, hrun⟩ := Option.isSome_iff_exists.mp hsome
  refine ⟨s, hrun, fun horder => ?_⟩
  have hsteady := (@in_order_iff latestFirst "PC-1" 1 s _ _ hrun).mp horder
  revert hsteady
  decide +kernel

end Scroll

end Dashboard.ActivityScroll
