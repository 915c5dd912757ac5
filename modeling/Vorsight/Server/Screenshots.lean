/-
  CURSOR PAGINATION OF SCREENSHOTS (server/src/routes/web/screenshots.ts, `GET /`), and the gallery
  that walks it (client/src/features/gallery/ScreenshotGallery.tsx).

  The route asks for one row more than a page holds.  When that look-ahead row is there, it is
  popped off the page and ITS id becomes the cursor; the next request starts at the cursor and
  skips one row.  So the row at index `limit` of the list, the first look-ahead row, is popped from
  the first page and skipped by the second.

  1. **Program** — `get` (the route), `getKey` and `fetcher` (the gallery), `walk` (the requests the
     gallery makes, page after page).

  2. **Specification** — the walk ends, and its pages put together are the machine's screenshots,
     latest first, ids ascending among equal times.

  3. **The crux (`walk_skips`)** — along a whole walk the cursor is either absent or the id of a row
     at index `limit` or later, and a page asked for with such a cursor holds rows at indices other
     than `limit` only.  Hence no page ever shows that row, and the walk is complete exactly for
     machines whose screenshots fit on one page.
-/
import Vorsight.Library.Time
import Vorsight.Server.Database
import Mathlib.Data.List.Sort

namespace Server.Screenshots

open Js Tables

/-! ## The route -/

/-- `prisma.screenshot.findMany`'s arguments. -/
structure FindMany where
  machineId : Option String
  cursor : Option String := none
  skip : Nat := 0
  take : Int

/-- `orderBy: [{ captureTime: 'desc' }, { id: 'asc' }]`. -/
def Before (a b : Screenshot) : Prop :=
  b.captureTime < a.captureTime ∨ (a.captureTime = b.captureTime ∧ a.id ≤ b.id)

instance (a b : Screenshot) : Decidable (Before a b) := by unfold Before; infer_instance

/-- The rows `where` selects, in the order of `orderBy`. -/
def ordered (t : Table Screenshot.id) (machineId : Option String) : List Screenshot :=
  (t.rows.filter fun s => machineId.all (· = s.machineId)).insertionSort Before

/-- `findMany`: the rows from the cursor's row on, without the first `skip`, at most `take`; a
    negative `take` counts from the end. -/
def findMany (t : Table Screenshot.id) (q : FindMany) : List Screenshot :=
  let rows := ordered t q.machineId
  let rows := if q.take < 0 then rows.reverse else rows
  let rows := match q.cursor with
    | none => rows
    | some c => rows.dropWhile (·.id ≠ c)
  let rows := (rows.drop q.skip).take q.take.natAbs
  if q.take < 0 then rows.reverse else rows

/-- A screenshot as the route sends it: the row with the fields the gallery shows. -/
structure View extends Screenshot where
  name : String
  createdTime : String
  webViewLink : String
  thumbnailLink : String
deriving DecidableEq

def view (s : Screenshot) : View where
  toScreenshot := s
  name := "Screenshot " ++ Time.isoDate s.captureTime
  createdTime := Time.toISOString s.captureTime
  webViewLink := "/api/web/v1/media/view/" ++ s.id
  thumbnailLink := "/api/web/v1/media/thumbnail/" ++ s.id

/-- `PaginatedScreenshots`. -/
structure Page where
  screenshots : List View
  cursor : Option String
  hasMore : Bool
deriving DecidableEq

structure Query where
  machineId : Option String
  limit : Option String := none
  cursor : Option String := none

/-- `x && x.length > 0` and `x || null` on strings. -/
def nonEmpty (x : Option String) : Option String := x.filter (· ≠ "")

/-- The answer for the rows found: the look-ahead row is popped and becomes the cursor. -/
def paginate (take : Int) (validScreenshots : List View) : Page :=
  if take < validScreenshots.length then
    { screenshots := validScreenshots.dropLast
      cursor := nonEmpty (validScreenshots.getLast?.map fun nextItem => nextItem.id)
      hasMore := true }
  else { screenshots := validScreenshots, cursor := none, hasMore := false }

def queryOptions (req : Query) (take : Int) : FindMany :=
  match nonEmpty req.cursor with
  | some cursor => { machineId := nonEmpty req.machineId, take := take + 1, cursor, skip := 1 }
  | none => { machineId := nonEmpty req.machineId, take := take + 1 }

/-- `router.get('/')`. -/
def get (t : Table Screenshot.id) (req : Query) : Response Page :=
  match parseInt (req.limit.getD "20") with
  -- `take: NaN` is rejected by Prisma
  | none => .error 500 "Failed to fetch screenshots"
  | some take => .json (paginate take ((findMany t (queryOptions req take)).map view))

/-! ## The gallery -/

/-- `getKey`: the machine and the cursor of page `pageIndex`, or `null` at the end. -/
def getKey (selectedMachine : Option String) (pageIndex : Nat) (previousPageData : Option Page) :
    Option (String × Option String) :=
  selectedMachine.bind fun machine =>
    if pageIndex = 0 then some (machine, none)
    else match previousPageData with
      | some previous => if previous.hasMore then some (machine, previous.cursor) else none
      | none => none

/-- `fetcher`, for any page size: it stops when the answer repeats the cursor it was asked with. -/
def fetcher (t : Table Screenshot.id) (limit : String) : String × Option String → Response Page
  | (machineId, cursor) =>
    match get t { machineId := some machineId, limit := some limit, cursor := nonEmpty cursor } with
    | .json result =>
        if (nonEmpty cursor).isSome ∧ result.cursor = cursor then
          .json { result with hasMore := false, cursor := none }
        else .json result
    | .error status message => .error status message

/-- The pages fetched from page `pageIndex` on, until `getKey` is `null`; `none` when the fuel runs
    out first or a request fails. -/
def walk (t : Table Screenshot.id) (machine limit : String) :
    Nat → Nat → Option Page → Option (List Page)
  | 0, _, _ => none
  | fuel + 1, pageIndex, previousPageData =>
    match getKey (some machine) pageIndex previousPageData with
    | none => some []
    | some key => match fetcher t limit key with
      | .json page => (walk t machine limit fuel (pageIndex + 1) (some page)).map (page :: ·)
      | .error _ _ => none

/-- `map.set(item.id, item)`: an id keeps its first place and takes its last value. -/
def setItem (items : List View) (item : View) : List View :=
  if items.any (·.id = item.id) then items.map fun i => if i.id = item.id then item else i
  else items ++ [item]

/-- `allScreenshots`: the pages put together, one entry for each id. -/
def allScreenshots (data : List Page) : List View :=
  (data.flatMap (·.screenshots)).foldl setItem []

/-! ## What the walk should show -/

/-- The screenshots of a machine in the order of the list. -/
def screenshotsOf (t : Table Screenshot.id) (machine : String) : List Screenshot :=
  (t.rows.filter fun s => s.machineId = machine).insertionSort Before

/-- Starting without a cursor, the walk ends and shows each screenshot once, in order. -/
def Complete (t : Table Screenshot.id) (machine limit : String) : Prop :=
  ∃ fuel pages, walk t machine limit fuel 0 none = some pages ∧
    pages.flatMap (·.screenshots) = (screenshotsOf t machine).map view

/-- How many screenshots the machine has. -/
def count (t : Table Screenshot.id) (machine : String) : Nat :=
  (t.rows.filter fun s => s.machineId = machine).length

theorem before_total (a b : Screenshot) : Before a b ∨ Before b a := by
  unfold Before
  rcases Int.lt_trichotomy a.captureTime b.captureTime with h | h | h
  · exact .inr (.inl h)
  · rcases String.le_total a.id b.id with hid | hid
    · exact .inl (.inr ⟨h, hid⟩)
    · exact .inr (.inr ⟨h.symm, hid⟩)
  · exact .inl (.inl h)

theorem before_trans {a b c : Screenshot} : Before a b → Before b c → Before a c := by
  unfold Before
  rintro (hab | ⟨hab, hid⟩) (hbc | ⟨hbc, hid'⟩)
  · exact .inl (Int.lt_trans hbc hab)
  · exact .inl (hbc ▸ hab)
  · exact .inl (hab ▸ hbc)
  · exact .inr ⟨hab.trans hbc, String.le_trans hid hid'⟩

/-- The list is in the order the gallery promises. -/
theorem pairwise_screenshotsOf (t : Table Screenshot.id) (machine : String) :
    (screenshotsOf t machine).Pairwise Before := by
  have : Std.Total Before := ⟨before_total⟩
  have : IsTrans Screenshot Before := ⟨fun _ _ _ => before_trans⟩
  exact List.pairwise_insertionSort Before _

theorem mem_screenshotsOf {t : Table Screenshot.id} {machine : String} {s : Screenshot} :
    s ∈ screenshotsOf t machine ↔ s ∈ t.rows ∧ s.machineId = machine := by
  simp [screenshotsOf]

theorem length_screenshotsOf (t : Table Screenshot.id) (machine : String) :
    (screenshotsOf t machine).length = count t machine :=
  (List.perm_insertionSort Before _).length_eq

/-- No two screenshots of the list have one id: the id is the key of the table. -/
theorem nodup_screenshotsOf (t : Table Screenshot.id) (machine : String) :
    ((screenshotsOf t machine).map Screenshot.id).Nodup :=
  ((List.perm_insertionSort Before _).map Screenshot.id).nodup_iff.mpr
    (t.nodup.sublist (List.filter_sublist.map Screenshot.id))

theorem eq_of_id {t : Table Screenshot.id} {machine : String} {i j : Nat} {a b : Screenshot}
    (hi : (screenshotsOf t machine)[i]? = some a) (hj : (screenshotsOf t machine)[j]? = some b)
    (hid : a.id = b.id) : i = j := by
  obtain ⟨hi', rfl⟩ := List.getElem?_eq_some_iff.mp hi
  obtain ⟨hj', rfl⟩ := List.getElem?_eq_some_iff.mp hj
  have hids : ((screenshotsOf t machine).map Screenshot.id)[i]? =
      ((screenshotsOf t machine).map Screenshot.id)[j]? := by
    rw [List.getElem?_map, List.getElem?_map, hi, hj]
    exact congrArg some hid
  exact (List.getElem?_inj (by simpa using hi') (nodup_screenshotsOf t machine)).mp hids

theorem ordered_eq {t : Table Screenshot.id} {machine : String} (hmachine : machine ≠ "") :
    ordered t (nonEmpty (some machine)) = screenshotsOf t machine := by
  simp [ordered, screenshotsOf, nonEmpty, Option.filter, hmachine, eq_comm]

/-- Deduplication leaves a list of different ids as it is. -/
theorem foldl_setItem : ∀ {items shown : List View},
    ((shown ++ items).map fun v => v.id).Nodup → items.foldl setItem shown = shown ++ items
  | [], shown, _ => (List.append_nil shown).symm
  | item :: items, shown, h => by
    have hnew : shown.any (·.id = item.id) = false := by
      rw [List.any_eq_false]
      intro v hv
      rw [List.map_append, List.map_cons] at h
      have hdisj := (List.nodup_append.mp h).2.2
      simpa using hdisj _ (List.mem_map.mpr ⟨v, hv, rfl⟩) _ List.mem_cons_self
    have hset : setItem shown item = shown ++ [item] := by
      rw [setItem, if_neg (by simp [hnew])]
    rw [List.foldl_cons, hset, foldl_setItem (by simpa using h), List.append_assoc]
    rfl

/-- What the gallery shows after a complete walk is the machine's list. -/
theorem allScreenshots_of_pages {t : Table Screenshot.id} {machine : String} {pages : List Page}
    (h : pages.flatMap (·.screenshots) = (screenshotsOf t machine).map view) :
    allScreenshots pages = (screenshotsOf t machine).map view := by
  rw [allScreenshots, h]
  have hnodup : (([] ++ (screenshotsOf t machine).map view).map fun (v : View) => v.id).Nodup := by
    rw [List.nil_append, List.map_map]
    exact nodup_screenshotsOf t machine
  exact foldl_setItem hnodup

/-! ## What one request returns -/

/-- Among rows with different ids, the rows from the one at index `i` on are found by its id. -/
theorem dropWhile_id : ∀ {rows : List Screenshot} {i : Nat} {r : Screenshot},
    (rows.map Screenshot.id).Nodup → rows[i]? = some r → rows.dropWhile (·.id ≠ r.id) = rows.drop i
  | [], _, _, _, h => by simp at h
  | a :: rows, 0, r, _, h => by
    have har : a = r := by simpa using h
    simp [har]
  | a :: rows, i + 1, r, hnodup, h => by
    have h' : rows[i]? = some r := by simpa using h
    obtain ⟨hnot, hrest⟩ := List.nodup_cons.mp hnodup
    have hne : a.id ≠ r.id := fun he =>
      hnot (he ▸ List.mem_map.mpr ⟨r, List.mem_of_getElem? h', rfl⟩)
    rw [List.dropWhile_cons_of_pos (by simpa using hne), List.drop_succ_cons]
    exact dropWhile_id hrest h'

/-- The rows of the first request. -/
theorem findMany_first {t : Table Screenshot.id} {machine limit : String} (n : Nat)
    (hmachine : machine ≠ "") {cursor : Option String} (hcursor : nonEmpty cursor = none) :
    findMany t (queryOptions { machineId := some machine, limit := some limit, cursor } n) =
      (screenshotsOf t machine).take (n + 1) := by
  have htake : ¬ ((n : Int) + 1 < 0) := by omega
  have habs : ((n : Int) + 1).natAbs = n + 1 := by omega
  simp [queryOptions, hcursor, findMany, ordered_eq hmachine, htake, habs]

/-- The rows of a request whose cursor is the id of the row at index `i`. -/
theorem findMany_next {t : Table Screenshot.id} {machine limit : String} (n : Nat)
    (hmachine : machine ≠ "") {cursor : Option String} {i : Nat} {r : Screenshot}
    (hr : (screenshotsOf t machine)[i]? = some r) (hcursor : nonEmpty cursor = some r.id) :
    findMany t (queryOptions { machineId := some machine, limit := some limit, cursor } n) =
      ((screenshotsOf t machine).drop (i + 1)).take (n + 1) := by
  have htake : ¬ ((n : Int) + 1 < 0) := by omega
  have habs : ((n : Int) + 1).natAbs = n + 1 := by omega
  have hdrop := dropWhile_id (nodup_screenshotsOf t machine) hr
  simp only [queryOptions, hcursor, findMany, ordered_eq hmachine, htake, habs, if_false]
  rw [hdrop, List.drop_drop]

/-- A list that fits on the page is the page. -/
theorem paginate_short {n : Nat} {rows : List View} (h : rows.length ≤ n) :
    paginate n rows = { screenshots := rows, cursor := none, hasMore := false } := by
  rw [paginate, if_neg (by omega)]

/-- Of `n + 1` rows, the page shows the first `n` and the last one gives the cursor. -/
theorem paginate_full {n : Nat} {rows : List View} (h : rows.length = n + 1) :
    paginate n rows = { screenshots := rows.take n,
                        cursor := nonEmpty (rows[n]?.map fun nextItem => nextItem.id),
                        hasMore := true } := by
  rw [paginate, if_pos (by omega), List.dropLast_eq_take, List.getLast?_eq_getElem?, h]
  rfl

/-! ## The row at index `limit` is never shown -/

section Lost

variable {t : Table Screenshot.id} {machine limit : String} {n : Nat}

/-- A cursor that leads past the row at index `n`, or back to the beginning. -/
def Past (rows : List Screenshot) (n : Nat) (cursor : Option String) : Prop :=
  nonEmpty cursor = none ∨ ∃ i r, n ≤ i ∧ rows[i]? = some r ∧ nonEmpty cursor = some r.id

/-- A page without the row at index `n`, whose cursor leads past that row. -/
structure Skips (rows : List Screenshot) (n : Nat) (page : Page) : Prop where
  shown : ∀ v ∈ page.screenshots, ∃ j r, j ≠ n ∧ rows[j]? = some r ∧ v = view r
  cursor : Past rows n page.cursor

/-- The rows from index `k` on, cut into a page: it shows rows at `k ≤ j < k + n`, and its cursor
    is that of the row at `k + n`. -/
theorem skips_paginate {rows : List Screenshot} {k : Nat} (hk : k = 0 ∨ n < k)
    (hlen : n < rows.length) :
    Skips rows n (paginate n (((rows.drop k).take (n + 1)).map view)) := by
  by_cases hfull : k + n < rows.length
  · have hlength : (((rows.drop k).take (n + 1)).map view).length = n + 1 := by
      simp; omega
    rw [paginate_full hlength]
    constructor
    -- the rows of the page stand at k, ..., k + n - 1, and neither range has n in it
    · intro v hv
      obtain ⟨m, hm⟩ := List.mem_iff_getElem?.mp hv
      simp only [List.getElem?_take, List.getElem?_map, List.getElem?_drop] at hm
      split at hm
      · rename_i hmn
        rw [if_pos (by omega)] at hm
        obtain ⟨r, hr, rfl⟩ := Option.map_eq_some_iff.mp hm
        exact ⟨k + m, r, by omega, hr, rfl⟩
      · cases hm
    -- the row that was taken off the page stands at k + n and becomes the cursor
    · obtain ⟨r, hr⟩ : ∃ r, rows[k + n]? = some r := ⟨_, List.getElem?_eq_getElem hfull⟩
      have hcur : (((rows.drop k).take (n + 1)).map view)[n]? = some (view r) := by
        simp [List.getElem?_drop, hr]
      rw [hcur]
      by_cases hid : r.id = ""
      · exact .inl (by simp [nonEmpty, view, hid])
      · exact .inr ⟨k + n, r, by omega, hr, by simp [nonEmpty, view, hid]⟩
  · have hshort : (((rows.drop k).take (n + 1)).map view).length ≤ n := by
      simp; omega
    rw [paginate_short hshort]
    refine ⟨fun v hv => ?_, .inl rfl⟩
    obtain ⟨r, hr, rfl⟩ := List.mem_map.mp hv
    obtain ⟨m, hm⟩ := List.mem_iff_getElem?.mp (List.mem_of_mem_take hr)
    rw [List.getElem?_drop] at hm
    refine ⟨k + m, r, ?_, hm, rfl⟩
    have := (List.getElem?_eq_some_iff.mp hm).1
    omega

/-- One request with a cursor past the row gives a page without it. -/
theorem skips_fetcher (hmachine : machine ≠ "") (hlimit : parseInt limit = some (n : Int))
    (hlen : n < (screenshotsOf t machine).length) {cursor : Option String}
    (hcursor : Past (screenshotsOf t machine) n cursor) {page : Page}
    (h : fetcher t limit (machine, cursor) = .json page) :
    Skips (screenshotsOf t machine) n page := by
  have hidem : nonEmpty (nonEmpty cursor) = nonEmpty cursor := by
    cases cursor <;> simp [nonEmpty, Option.filter]
    split <;> simp_all
  have hget : ∃ k, (k = 0 ∨ n < k) ∧
      get t { machineId := some machine, limit := some limit, cursor := nonEmpty cursor } =
        .json (paginate n ((((screenshotsOf t machine).drop k).take (n + 1)).map view)) := by
    simp only [get, Option.getD_some, hlimit]
    rcases hcursor with hnone | ⟨i, r, hi, hr, hsome⟩
    · exact ⟨0, .inl rfl, by rw [findMany_first n hmachine (hidem.trans hnone), List.drop_zero]⟩
    · exact ⟨i + 1, .inr (by omega), by rw [findMany_next n hmachine hr (hidem.trans hsome)]⟩
  obtain ⟨k, hk, hget⟩ := hget
  have hskips := skips_paginate hk hlen
  simp only [fetcher, hget] at h
  split at h
  · cases h
    exact ⟨hskips.shown, .inl rfl⟩
  · cases h
    exact hskips

/-- **No page of a walk shows the row at index `limit`.** -/
theorem walk_skips (hmachine : machine ≠ "") (hlimit : parseInt limit = some (n : Int))
    (hlen : n < (screenshotsOf t machine).length) :
    ∀ {fuel pageIndex : Nat} {previous : Option Page} {pages : List Page},
      (∀ page ∈ previous, Past (screenshotsOf t machine) n page.cursor) →
      walk t machine limit fuel pageIndex previous = some pages →
      ∀ page ∈ pages, Skips (screenshotsOf t machine) n page
  | 0, _, _, _, _, h => by cases h
  | fuel + 1, pageIndex, previous, pages, hprev, h => by
    rw [walk] at h
    split at h
    · cases h
      simp
    · rename_i key hkey
      -- the key is the first page's, or has the cursor of the page before
      have hpast : ∃ cursor, key = (machine, cursor) ∧
          Past (screenshotsOf t machine) n cursor := by
        simp only [getKey, Option.bind_some] at hkey
        split at hkey
        · cases hkey
          exact ⟨none, rfl, .inl rfl⟩
        · split at hkey
          · rename_i page
            split at hkey
            · cases hkey
              exact ⟨page.cursor, rfl, hprev page rfl⟩
            · cases hkey
          · cases hkey
      obtain ⟨cursor, rfl, hcursor⟩ := hpast
      split at h
      · rename_i page hpage
        have hskips := skips_fetcher hmachine hlimit hlen hcursor hpage
        obtain ⟨rest, hrest, rfl⟩ := Option.map_eq_some_iff.mp h
        have hnext : ∀ p ∈ some page, Past (screenshotsOf t machine) n p.cursor := by
          rintro _ ⟨⟩
          exact hskips.cursor
        intro p hp
        rcases List.mem_cons.mp hp with rfl | hp
        · exact hskips
        · exact walk_skips hmachine hlimit hlen hnext hrest p hp
      · cases h

/-- A machine with more screenshots than fit on a page has one that no walk shows. -/
theorem not_complete (hmachine : machine ≠ "") (hlimit : parseInt limit = some (n : Int))
    (hlen : n < count t machine) : ¬ Complete t machine limit := by
  rintro ⟨fuel, pages, hwalk, hall⟩
  have hlen' : n < (screenshotsOf t machine).length := by rwa [length_screenshotsOf]
  obtain ⟨r, hr⟩ : ∃ r, (screenshotsOf t machine)[n]? = some r :=
    ⟨_, List.getElem?_eq_getElem hlen'⟩
  have hshown : view r ∈ pages.flatMap (·.screenshots) :=
    hall ▸ List.mem_map.mpr ⟨r, List.mem_of_getElem? hr, rfl⟩
  obtain ⟨page, hpage, hv⟩ := List.mem_flatMap.mp hshown
  have hskips := walk_skips hmachine hlimit hlen' (by rintro _ ⟨⟩) hwalk page hpage
  obtain ⟨j, r', hj, hr', hview⟩ := hskips.shown _ hv
  have hid : r'.id = r.id := congrArg (fun v => v.id) hview.symm
  exact hj (eq_of_id hr' hr hid)

/-- A machine whose screenshots fit on a page is shown completely by the first request. -/
theorem complete_of_fits (hmachine : machine ≠ "") (hlimit : parseInt limit = some (n : Int))
    (hlen : count t machine ≤ n) : Complete t machine limit := by
  rw [← length_screenshotsOf] at hlen
  have hfirst : fetcher t limit (machine, none) =
      .json { screenshots := (screenshotsOf t machine).map view, cursor := none,
              hasMore := false } := by
    have hrows : findMany t (queryOptions
        { machineId := some machine, limit := some limit, cursor := none } n) =
          (screenshotsOf t machine).take (n + 1) := findMany_first n hmachine rfl
    simp only [fetcher, get, nonEmpty, Option.filter_none, Option.getD_some, hlimit, hrows]
    rw [List.take_of_length_le (by omega), paginate_short (by simpa using hlen)]
    rfl
  refine ⟨2, [{ screenshots := (screenshotsOf t machine).map view, cursor := none,
                hasMore := false }], ?_, by simp⟩
  simp [walk, getKey, hfirst]

end Lost

/-- **Pagination is complete exactly for machines that fit on one page**: the walk shows the whole
    list, each screenshot once and in order, iff the machine has at most `limit` screenshots. -/
theorem complete_iff (t : Table Screenshot.id) {machine limit : String} {n : Nat}
    (hmachine : machine ≠ "") (hlimit : parseInt limit = some (n : Int)) :
    Complete t machine limit ↔ count t machine ≤ n := by
  constructor
  · intro h
    by_cases hlen : count t machine ≤ n
    · exact hlen
    · exact absurd h (not_complete hmachine hlimit (by omega))
  · exact complete_of_fits hmachine hlimit

/-- A machine that took one screenshot a minute. -/
def everyMinute (n : Nat) (h : (List.range n |>.map (toString ·)).Nodup) : Table Screenshot.id where
  rows := (List.range n).map fun (i : Nat) =>
    { id := toString i, machineId := "PC-1", captureTime := 60000 * i, triggerType := some "Timer" }
  nodup := by simpa [Function.comp_def] using h

theorem complete_iff_twenty :
    Complete (everyMinute 20 (by decide)) "PC-1" "20" ↔
      count (everyMinute 20 (by decide)) "PC-1" ≤ 20 :=
  complete_iff (everyMinute 20 (by decide)) (by decide) (by decide)

/-- With the gallery's page size, the walk over twenty-one screenshots loses one of them. -/
theorem not_complete_twentyOne : ¬ Complete (everyMinute 21 (by decide)) "PC-1" "20" :=
  not_complete (n := 20) (by decide) (by decide) (by decide)

/-- Of three screenshots on pages of one, the middle one is lost. -/
example : (walk (everyMinute 3 (by decide)) "PC-1" "1" 3 0 none).map
    (fun pages => pages.flatMap fun page => page.screenshots.map fun s => s.id) =
      some ["2", "0"] := by decide

end Server.Screenshots
