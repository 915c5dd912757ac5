/-
  THE AUDIT PAGE (client/src/features/audit/AuditPage.tsx and AuditTable.tsx), with the route that
  it asks (server/src/routes/web/audit.ts).

  The server cuts the stored events into pages by limit and offset.  The table takes the page it is
  given for all the events: it counts pages in it, and cuts it again by the page's number.

  1. **Program** — `get` (the route), `useAuditEvents` (one page of it), `passes` (the filters),
     `auditTable` (the rows, and whether Next is offered).

  2. **Specification** — `Walk`: the rows shown from a page on, while Next is pressed as long as it
     is offered.  From the first page on these should be the stored events.

  3. `complete_walk_iff`: they are when there are no more than one page holds.  A received page is
     one page to the table, which therefore never offers Next (`next_auditTable`), and would show
     nothing of a later page (`rows_auditTable_later`).
-/
import Mathlib.Data.List.Sort
import Vorsight.Server.Database

namespace Dashboard.AuditPage

open Js Server Tables

/-! ## The route -/

/-- `JSON.parse`; `none` is an exception. -/
class JsonParser where
  parse : String → Option Json

structure Query where
  machineId : Option String
  limit : Option String := none
  offset : Option String := none
  flaggedOnly : Option String := none
  unacknowledgedOnly : Option String := none

/-- `where` -/
def selects (req : Query) (event : AuditEvent) : Bool :=
  (req.machineId.filter (· ≠ "")).all (· = event.machineId) &&
    (req.flaggedOnly ≠ some "true" || event.isFlagged) &&
    (req.unacknowledgedOnly ≠ some "true" || !event.acknowledged)

/-- `orderBy: { timestamp: 'desc' }` -/
def ordered (events : List AuditEvent) : List AuditEvent :=
  events.insertionSort fun a b => b.timestamp ≤ a.timestamp

/-- `skip` and `take`, which counts from the end when it is negative; `none` is an error. -/
def cut (skip take : Int) (events : List AuditEvent) : Option (List AuditEvent) :=
  if skip < 0 then none
  else if take < 0 then some ((events.reverse.drop skip.toNat).take take.natAbs).reverse
  else some ((events.drop skip.toNat).take take.toNat)

/-- Details as they parse, or else as they are. -/
def formatDetails [JsonParser] : Text → Text
  | .json value => .json value
  | .raw text =>
    match JsonParser.parse text with
    | some value => .json value
    | none => .raw text

def formatted [JsonParser] (event : AuditEvent) : AuditEvent :=
  { event with details := event.details.map formatDetails }

/-- `router.get('/')` -/
def get [JsonParser] (t : Sequence AuditEvent.id) (req : Query) : Response (List AuditEvent) :=
  let events := ordered (t.rows.filter (selects req))
  match parseInt (req.limit.getD "50"), parseInt (req.offset.getD "0") with
  | some take, some skip =>
    match cut skip take events with
    | some events => .json (events.map formatted)
    | none => .error 500 "Failed to fetch audit events"
  | _, _ => .error 500 "Failed to fetch audit events"

/-! ## The page -/

def itemsPerPage : Nat := 50

/-- `/audit?machineId=...&limit=...&offset=...` -/
def pageQuery (machineId : String) (limit offset : Nat) : Query where
  machineId := some machineId
  limit := some (toString limit)
  offset := some (toString offset)

/-- What is there when the request has been answered. -/
def useAuditEvents [JsonParser] (t : Sequence AuditEvent.id) (machineId : String)
    (limit offset : Nat) : Response (List AuditEvent) :=
  if machineId = "" then .json [] else get t (pageQuery machineId limit offset)

inductive StatusFilter
  | all | acknowledged | unacknowledged
deriving DecidableEq, Repr

inductive DateRange
  | day | week | month | all
deriving DecidableEq, Repr

def DateRange.hours : DateRange → Option Int
  | .day => some 24
  | .week => some (24 * 7)
  | .month => some (24 * 30)
  | .all => none

structure Filters where
  statusFilter : StatusFilter := .all
  eventTypeFilter : List String := []
  dateRangeFilter : DateRange := .day

/-- All filters off. -/
def Filters.off : Filters := { dateRangeFilter := .all }

/-- Whether an event gets through the filters. -/
def passes (filters : Filters) (now : DateTime) (event : AuditEvent) : Bool :=
  let status := match filters.statusFilter with
    | .all => true
    | .acknowledged => event.acknowledged
    | .unacknowledged => !event.acknowledged
  let type := filters.eventTypeFilter.isEmpty ||
    event.eventType.any filters.eventTypeFilter.contains
  let date := filters.dateRangeFilter.hours.all fun hours =>
    now - event.timestamp ≤ hours * (1000 * 60 * 60)
  status && type && date

/-- What the table shows of its events. -/
structure AuditTable where
  rows : List AuditEvent
  /-- There is a Next that can be pressed. -/
  next : Bool

/-- `AuditTable`, where `totalItems` is the number of its events. -/
def auditTable (events : List AuditEvent) (currentPage : Nat) : AuditTable :=
  let totalItems := events.length
  let totalPages := (totalItems + itemsPerPage - 1) / itemsPerPage
  let startIndex := (currentPage - 1) * itemsPerPage
  let endIndex := min (startIndex + itemsPerPage) totalItems
  if events.length = 0 then { rows := [], next := false }  -- No audit events found
  else
    { rows := (events.take endIndex).drop startIndex
      next := decide (1 < totalPages) && decide (currentPage ≠ totalPages) }

/-- The table on a page; in place of it there is a message when the request has failed. -/
def auditPage [JsonParser] (t : Sequence AuditEvent.id) (machineId : String) (filters : Filters)
    (now : DateTime) (currentPage : Nat) : AuditTable :=
  let offset := (currentPage - 1) * itemsPerPage
  match useAuditEvents t machineId itemsPerPage offset with
  | .json auditEvents => auditTable (auditEvents.filter (passes filters now)) currentPage
  | .error _ _ => { rows := [], next := false }

/-! ## Walking through the pages -/

/-- The rows shown from a page on, with Next pressed while it is offered. -/
inductive Walk (table : Nat → AuditTable) : Nat → List AuditEvent → Prop
  | last {page : Nat} (h : (table page).next = false) : Walk table page (table page).rows
  | next {page : Nat} {rest : List AuditEvent} (h : (table page).next = true)
      (hrest : Walk table (page + 1) rest) : Walk table page ((table page).rows ++ rest)

/-- The machine's events. -/
def stored (t : Sequence AuditEvent.id) (machineId : String) : List AuditEvent :=
  t.rows.filter fun event => event.machineId = machineId

/-- The walk from the first page ends, and shows each stored event once. -/
def Complete [JsonParser] (t : Sequence AuditEvent.id) (machineId : String) (now : DateTime) :
    Prop :=
  ∃ rows, Walk (auditPage t machineId .off now) 1 rows ∧
    rows.Perm ((stored t machineId).map formatted)

variable {t : Sequence AuditEvent.id} {machineId : String} {now : DateTime}
  {events : List AuditEvent} {page : Nat} {rows : List AuditEvent}

/-- A page as it is received is never more than one page. -/
theorem next_auditTable (h : events.length ≤ itemsPerPage) :
    (auditTable events page).next = false := by
  unfold auditTable
  dsimp only
  split
  · rfl
  · have hpages : (events.length + itemsPerPage - 1) / itemsPerPage ≤ 1 := by
      unfold itemsPerPage at h ⊢
      omega
    simp only [Bool.and_eq_false_iff, decide_eq_false_iff_not]
    omega

theorem rows_auditTable_first (h : events.length ≤ itemsPerPage) :
    (auditTable events 1).rows = events := by
  unfold auditTable
  dsimp only
  split
  · rename_i hnone
    exact (List.length_eq_zero_iff.mp hnone).symm
  · rw [Nat.sub_self, Nat.zero_mul, List.drop_zero, Nat.zero_add, Nat.min_eq_right h,
      List.take_length]

/-- Cut again, a later page has no rows. -/
theorem rows_auditTable_later (h : events.length ≤ itemsPerPage) (hpage : 1 < page) :
    (auditTable events page).rows = [] := by
  unfold auditTable
  dsimp only
  split
  · rfl
  · have hstart : itemsPerPage ≤ (page - 1) * itemsPerPage := Nat.le_mul_of_pos_left _ (by omega)
    refine List.drop_of_length_le ?_
    rw [List.length_take]
    omega

theorem passes_off (event : AuditEvent) : passes .off now event = true := rfl

/-- The table of each page that was received is its whole walk. -/
theorem walk_iff {table : Nat → AuditTable} (h : (table page).next = false) :
    Walk table page rows ↔ rows = (table page).rows := by
  constructor
  · intro hwalk
    cases hwalk with
    | last _ => rfl
    | next hnext _ =>
      rw [h] at hnext
      cases hnext
  · rintro rfl
    exact .last h

theorem filter_selects (hmachine : machineId ≠ "") (limit offset : Nat) :
    t.rows.filter (selects (pageQuery machineId limit offset)) = stored t machineId := by
  refine List.filter_congr fun event _ => ?_
  simp [selects, pageQuery, Option.filter, hmachine, eq_comm]

theorem perm_ordered : (ordered events).Perm events := List.perm_insertionSort _ events

section Rows

variable [JsonParser]

/-- The first page, as it is received. -/
theorem useAuditEvents_first (hmachine : machineId ≠ "") :
    useAuditEvents t machineId itemsPerPage ((1 - 1) * itemsPerPage) =
      .json (((ordered (stored t machineId)).take itemsPerPage).map formatted) := by
  have hlimit : parseInt ((some (toString itemsPerPage)).getD "50") = some 50 := by decide
  have hoffset : parseInt ((some (toString ((1 - 1) * itemsPerPage))).getD "0") = some 0 := by
    decide
  rw [useAuditEvents, if_neg hmachine, get, filter_selects hmachine, pageQuery, hlimit, hoffset]
  rfl

/-- **The walk** from the first page on. -/
theorem walk_first_iff (hmachine : machineId ≠ "") :
    Walk (auditPage t machineId .off now) 1 rows ↔
      rows = ((ordered (stored t machineId)).take itemsPerPage).map formatted := by
  have hlength : (((ordered (stored t machineId)).take itemsPerPage).map formatted).length ≤
      itemsPerPage := by
    rw [List.length_map]
    exact List.length_take_le _ _
  have htable : auditPage t machineId .off now 1 =
      auditTable (((ordered (stored t machineId)).take itemsPerPage).map formatted) 1 := by
    unfold auditPage
    dsimp only
    rw [useAuditEvents_first hmachine]
    dsimp only
    rw [List.filter_eq_self.mpr fun event _ => passes_off event]
  rw [walk_iff (by rw [htable]; exact next_auditTable hlength), htable,
    rows_auditTable_first hlength]

theorem length_le_of_complete (hmachine : machineId ≠ "") (h : Complete t machineId now) :
    (stored t machineId).length ≤ itemsPerPage := by
  obtain ⟨rows, hwalk, hperm⟩ := h
  have hlength := hperm.length_eq
  rw [(walk_first_iff hmachine).mp hwalk, List.length_map, List.length_map, List.length_take,
    perm_ordered.length_eq] at hlength
  omega

/-- **The audit page reaches every event** exactly when one page holds them all. -/
theorem complete_walk_iff (hmachine : machineId ≠ "") :
    Complete t machineId now ↔ (stored t machineId).length ≤ itemsPerPage := by
  constructor
  · exact length_le_of_complete hmachine
  · intro h
    refine ⟨_, (walk_first_iff hmachine).mpr rfl, ?_⟩
    rw [List.take_of_length_le (by rw [perm_ordered.length_eq]; exact h)]
    exact perm_ordered.map _

end Rows

/-- A machine with one event a minute. -/
def everyMinute (n : Nat) : Sequence AuditEvent.id where
  rows := (List.range n).map fun i =>
    { id := i, machineId := "PC-1", eventId := "4720", eventType := some "User Account Created",
      username := some "admin", timestamp := 60000 * i, details := none,
      sourceLogName := some "Security", createdAt := 60000 * i }
  nodup := by
    rw [List.map_map]
    exact (List.map_id' (List.range n)).symm ▸ List.nodup_range
  next := n
  below := by
    intro event hevent
    obtain ⟨i, hi, rfl⟩ := List.mem_map.mp hevent
    exact List.mem_range.mp hi

theorem length_stored_everyMinute (n : Nat) : (stored (everyMinute n) "PC-1").length = n := by
  have hall : stored (everyMinute n) "PC-1" = (everyMinute n).rows := by
    refine List.filter_eq_self.mpr fun event hevent => ?_
    obtain ⟨i, -, rfl⟩ := List.mem_map.mp hevent
    rfl
  rw [hall, everyMinute, List.length_map, List.length_range]

/-- None of these events has details that could be parsed. -/
@[reducible] def noJson : JsonParser := ⟨fun _ => none⟩

theorem complete_fifty : @Complete noJson (everyMinute 50) "PC-1" 0 :=
  (@complete_walk_iff _ _ _ noJson (by decide)).mpr (length_stored_everyMinute 50).le

/-- One event more. -/
theorem not_complete_fiftyOne : ¬ @Complete noJson (everyMinute 51) "PC-1" 0 := by
  intro h
  have hle := @length_le_of_complete _ _ _ noJson (by decide) h
  rw [length_stored_everyMinute] at hle
  exact absurd hle (by decide)

end Dashboard.AuditPage
