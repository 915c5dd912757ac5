/-
  PAGES READ BY OFFSET from a collection that changes while it is read.

  Page n is the n-th stretch of `limit` rows, in descending order of their keys.  Between two pages
  rows are added and changed, but no key goes away.

  1. **Place** (`ahead`) — the number of rows with greater keys.  It says on which page a row is
     (`mem_page_iff`), and it does not go down while the collection grows (`ahead_mono`).

  2. **Is a row missed?** (`Covered`)  No: a row that has not been read is never ahead of the next
     page, so the first page that is not full comes behind all of them (`shown_of_short`).

  3. **Is a row read twice?** (`inOrder_iff_still`)  What has been read stays in order exactly when
     each page is read while the last row still has as many rows ahead of it as when it was read.
-/
import Mathlib.Data.List.Nodup
import Mathlib.Data.List.Perm.Subperm
import Mathlib.Data.List.Sort
import Mathlib.Order.Lattice

namespace OffsetPaging

variable {α κ : Type} [LinearOrder κ]

section Pages

variable (key : α → κ)

def descending (rows : List α) : List α := rows.insertionSort fun a b => key b ≤ key a

def page (limit n : Nat) (rows : List α) : List α :=
  ((descending key rows).drop (n * limit)).take limit

/-- The number of rows whose keys are greater. -/
def ahead (rows : List α) (k : κ) : Nat := rows.countP fun r => k < key r

/-- No two rows have one key. -/
def Distinct (rows : List α) : Prop := (rows.map key).Nodup

end Pages

variable {key : α → κ} {rows rows' : List α} {limit n : Nat} {k k' : κ}

/-! ## Places -/

variable (key) in
theorem perm_descending (rows : List α) : (descending key rows).Perm rows :=
  List.perm_insertionSort _ rows

theorem pairwise_descending (hdistinct : Distinct key rows) :
    (descending key rows).Pairwise fun a b => key b < key a := by
  have htotal : Std.Total fun a b : α => key b ≤ key a := ⟨fun a b => le_total (key b) (key a)⟩
  have htrans : IsTrans α fun a b => key b ≤ key a := ⟨fun _ _ _ hab hbc => hbc.trans hab⟩
  have hsorted : (descending key rows).Pairwise fun a b => key b ≤ key a :=
    List.pairwise_insertionSort _ rows
  have hne : (descending key rows).Pairwise fun a b => key a ≠ key b := by
    have hnodup : ((descending key rows).map key).Nodup :=
      ((perm_descending key rows).map key).nodup_iff.mpr hdistinct
    rw [List.Nodup, List.pairwise_map] at hnodup
    exact hnodup
  refine (hsorted.and hne).imp ?_
  rintro a b ⟨hle, hne⟩
  exact lt_of_le_of_ne hle (Ne.symm hne)

variable (key) in
theorem length_descending (rows : List α) : (descending key rows).length = rows.length :=
  (perm_descending key rows).length_eq

theorem length_page (rows : List α) :
    (page key limit n rows).length = min limit (rows.length - n * limit) := by
  rw [page, List.length_take, List.length_drop, length_descending]

theorem ahead_anti (h : k ≤ k') (rows : List α) : ahead key rows k' ≤ ahead key rows k := by
  refine List.countP_mono_left fun r _ hr => ?_
  rw [decide_eq_true_eq] at *
  exact lt_of_le_of_lt h hr

/-- A row that is there is itself ahead of what is behind it. -/
theorem ahead_lt_ahead : ∀ {rows : List α} {r : α}, r ∈ rows → k < key r →
    ahead key rows (key r) < ahead key rows k
  | x :: rows, r, hr, hlt => by
    simp only [ahead, List.countP_cons, decide_eq_true_eq]
    rcases List.mem_cons.mp hr with rfl | hr
    · have hrest : ahead key rows (key r) ≤ ahead key rows k := ahead_anti (le_of_lt hlt) rows
      rw [if_neg (lt_irrefl _), if_pos hlt]
      exact Nat.lt_succ_of_le hrest
    · have hrest : ahead key rows (key r) < ahead key rows k := ahead_lt_ahead hr hlt
      simp only [ahead] at hrest
      by_cases hx : key r < key x
      · rw [if_pos hx, if_pos (hlt.trans hx)]
        omega
      · rw [if_neg hx]
        omega

/-- In a list in order, the rows before one are those with greater keys. -/
theorem countP_getElem : ∀ {xs : List α}, (xs.Pairwise fun a b => key b < key a) →
    ∀ {i : Nat} (hi : i < xs.length), xs.countP (fun r => key xs[i] < key r) = i
  | x :: xs, h, 0, _ => by
    have hbehind := (List.pairwise_cons.mp h).1
    rw [List.countP_eq_zero]
    intro r hr
    rw [decide_eq_true_eq, not_lt]
    rcases List.mem_cons.mp hr with rfl | hr
    · exact le_refl _
    · exact le_of_lt (hbehind r hr)
  | x :: xs, h, i + 1, hi => by
    obtain ⟨hbehind, hrest⟩ := List.pairwise_cons.mp h
    have hi' : i < xs.length := Nat.lt_of_succ_lt_succ hi
    have hahead : decide (key xs[i] < key x) = true :=
      decide_eq_true (hbehind _ (List.getElem_mem hi'))
    show (x :: xs).countP (fun r => key xs[i] < key r) = i + 1
    rw [List.countP_cons, countP_getElem hrest hi', if_pos hahead]

/-- **The i-th row** has i rows ahead of it. -/
theorem ahead_getElem (hdistinct : Distinct key rows) {i : Nat}
    (hi : i < (descending key rows).length) :
    ahead key rows (key (descending key rows)[i]) = i := by
  rw [ahead, ← (perm_descending key rows).countP_eq]
  exact countP_getElem (pairwise_descending hdistinct) hi

variable (key) in
theorem exists_getElem {r : α} (hr : r ∈ rows) :
    ∃ i, ∃ hi : i < (descending key rows).length, (descending key rows)[i] = r :=
  List.mem_iff_getElem.mp ((perm_descending key rows).mem_iff.mpr hr)

theorem ahead_lt_length (hdistinct : Distinct key rows) {r : α} (hr : r ∈ rows) :
    ahead key rows (key r) < rows.length := by
  obtain ⟨i, hi, rfl⟩ := exists_getElem key hr
  rw [ahead_getElem hdistinct hi, ← length_descending key]
  exact hi

/-- **On which page a row is.** -/
theorem mem_page_iff (hdistinct : Distinct key rows) {r : α} : r ∈ page key limit n rows ↔
    r ∈ rows ∧ n * limit ≤ ahead key rows (key r) ∧ ahead key rows (key r) < n * limit + limit := by
  constructor
  · intro hr
    obtain ⟨j, hj, rfl⟩ := List.mem_iff_getElem.mp hr
    have hj' := hj
    rw [page, List.length_take, List.length_drop] at hj'
    have hi : n * limit + j < (descending key rows).length := by omega
    have hget : (page key limit n rows)[j] = (descending key rows)[n * limit + j] := by
      simp only [page, List.getElem_take, List.getElem_drop]
    rw [hget, ahead_getElem hdistinct hi]
    exact ⟨(perm_descending key rows).mem_iff.mp (List.getElem_mem _), by omega, by omega⟩
  · rintro ⟨hr, hle, hlt⟩
    obtain ⟨i, hi, rfl⟩ := exists_getElem key hr
    rw [ahead_getElem hdistinct hi] at hle hlt
    rw [page, List.mem_iff_getElem]
    refine ⟨i - n * limit, ?_, ?_⟩
    · rw [List.length_take, List.length_drop]
      omega
    · rw [List.getElem_take, List.getElem_drop]
      congr 1
      omega

/-- A place does not go down when keys are added. -/
theorem ahead_mono (hdistinct : Distinct key rows) (hkept : rows.map key ⊆ rows'.map key) (k : κ) :
    ahead key rows k ≤ ahead key rows' k := by
  have hcount : ∀ rows : List α, ahead key rows k = ((rows.map key).filter (k < ·)).length := by
    intro rows
    rw [ahead, List.filter_map, List.length_map, List.countP_eq_length_filter]
    rfl
  rw [hcount, hcount]
  refine (List.Nodup.subperm (hdistinct.filter _) fun x hx => ?_).length_le
  rw [List.mem_filter] at hx ⊢
  exact ⟨hkept hx.1, hx.2⟩

/-! ## Reading -/

/-- A collection, and the pages that have been read of it. -/
structure Reading (α : Type) where
  rows : List α
  pages : List (List α)

def Reading.shown (s : Reading α) : List α := s.pages.flatten

variable (key) in
/-- Rows are added or changed, and no key goes away. -/
structure Grows (s s' : Reading α) : Prop where
  kept : s.rows.map key ⊆ s'.rows.map key
  distinct : Distinct key s'.rows
  pages : s'.pages = s.pages

variable (key limit) in
/-- The next page is read; the one before was full. -/
structure Reads (s s' : Reading α) : Prop where
  before : ∀ last ∈ s.pages.getLast?, last.length = limit
  rows : s'.rows = s.rows
  pages : s'.pages = s.pages ++ [page key limit s.pages.length s.rows]

variable (key limit) in
/-- All pages but the last are full, and what they show is still there. -/
structure Sound (s : Reading α) : Prop where
  distinct : Distinct key s.rows
  full : ∀ p ∈ s.pages.dropLast, p.length = limit
  bounded : ∀ p ∈ s.pages, p.length ≤ limit
  kept : s.shown.map key ⊆ s.rows.map key

variable {s s' : Reading α}

omit [LinearOrder κ] in
theorem Sound.grows (h : Sound key limit s) (hg : Grows key s s') : Sound key limit s' := by
  obtain ⟨hkept, hdistinct, hpages⟩ := hg
  refine ⟨hdistinct, hpages ▸ h.full, hpages ▸ h.bounded, ?_⟩
  rw [Reading.shown, hpages]
  exact fun x hx => hkept (h.kept hx)

omit [LinearOrder κ] in
/-- Where the last page is full, all of them are. -/
theorem Sound.all_full (h : Sound key limit s)
    (hlast : ∀ last ∈ s.pages.getLast?, last.length = limit) :
    ∀ p ∈ s.pages, p.length = limit := by
  intro p hp
  rcases List.eq_nil_or_concat s.pages with hnil | ⟨front, last, heq⟩
  · rw [hnil] at hp
    cases hp
  · have hfull := h.full
    rw [heq, List.concat_eq_append] at hp hlast hfull
    rw [List.dropLast_concat] at hfull
    rcases List.mem_append.mp hp with hp | hp
    · exact hfull p hp
    · rw [List.mem_singleton.mp hp]
      exact hlast last (by simp)

theorem length_shown (hfull : ∀ p ∈ s.pages, p.length = limit) :
    s.shown.length = s.pages.length * limit := by
  rw [Reading.shown, List.length_flatten, List.map_congr_left hfull, List.map_const',
    List.sum_replicate_nat]

theorem Reads.shown (hr : Reads key limit s s') :
    s'.shown = s.shown ++ page key limit s.pages.length s.rows := by
  rw [Reading.shown, hr.pages, List.flatten_append, List.flatten_singleton]
  rfl

omit [LinearOrder κ] in
theorem Grows.shown (hg : Grows key s s') : s'.shown = s.shown := by
  rw [Reading.shown, hg.pages]
  rfl

theorem Sound.reads (h : Sound key limit s) (hr : Reads key limit s s') : Sound key limit s' := by
  have hfull := h.all_full hr.before
  have hshown := hr.shown
  refine ⟨hr.rows ▸ h.distinct, ?_, ?_, ?_⟩
  · rw [hr.pages, List.dropLast_concat]
    exact hfull
  · intro p hp
    rw [hr.pages] at hp
    rcases List.mem_append.mp hp with hp | hp
    · exact h.bounded p hp
    · rw [List.mem_singleton.mp hp, length_page]
      exact Nat.min_le_left _ _
  · rw [hshown, hr.rows, List.map_append]
    refine List.append_subset.mpr ⟨h.kept, ?_⟩
    exact List.map_subset key fun r hr => ((mem_page_iff h.distinct).mp hr).1

/-! ## None is missed -/

variable (key limit) in
/-- A row that is there has been read, or it is not ahead of the next page. -/
structure Covered (k : κ) (s : Reading α) : Prop where
  stored : k ∈ s.rows.map key
  covered : k ∈ s.shown.map key ∨
    (∀ p ∈ s.pages, p.length = limit) ∧ s.pages.length * limit ≤ ahead key s.rows k

theorem Covered.grows (h : Covered key limit k s) (hs : Sound key limit s) (hg : Grows key s s') :
    Covered key limit k s' := by
  refine ⟨hg.kept h.stored, ?_⟩
  rw [hg.shown, hg.pages]
  refine h.covered.imp id fun hahead => ⟨hahead.1, ?_⟩
  exact Nat.le_trans hahead.2 (ahead_mono hs.distinct hg.kept k)

theorem Covered.reads (h : Covered key limit k s) (hs : Sound key limit s)
    (hr : Reads key limit s s') : Covered key limit k s' := by
  have hshown := hr.shown
  refine ⟨hr.rows ▸ h.stored, ?_⟩
  rcases h.covered with hread | ⟨hfull, hahead⟩
  · refine Or.inl ?_
    rw [hshown, List.map_append]
    exact List.mem_append_left _ hread
  · obtain ⟨r, hmem, rfl⟩ := List.mem_map.mp h.stored
    by_cases hlt : ahead key s.rows (key r) < s.pages.length * limit + limit
    · refine Or.inl (List.mem_map_of_mem ?_)
      rw [hshown]
      exact List.mem_append_right _ ((mem_page_iff hs.distinct).mpr ⟨hmem, hahead, hlt⟩)
    · -- there are more rows than this page holds, so it is full
      refine Or.inr ⟨?_, ?_⟩
      · intro p hp
        rw [hr.pages] at hp
        rcases List.mem_append.mp hp with hp | hp
        · exact hfull p hp
        · have hlength := ahead_lt_length hs.distinct hmem
          rw [List.mem_singleton.mp hp, length_page]
          omega
      · rw [hr.pages, hr.rows, List.length_append, List.length_singleton, Nat.succ_mul]
        omega

/-- **Behind a page that is not full** there is nothing to read. -/
theorem shown_of_short (h : Covered key limit k s)
    (hshort : ∃ last ∈ s.pages.getLast?, last.length < limit) : k ∈ s.shown.map key := by
  refine h.covered.resolve_right ?_
  rintro ⟨hfull, -⟩
  obtain ⟨last, hlast, hlt⟩ := hshort
  have hlength := hfull last (List.mem_of_getLast? hlast)
  omega

/-! ## In order -/

variable (key) in
/-- What has been read is in order, so no row has been read twice. -/
def InOrder (s : Reading α) : Prop := s.shown.Pairwise fun a b => key b < key a

variable (key) in
/-- The last row read has as many rows ahead of it as have been read before it. -/
def Still (s : Reading α) : Prop :=
  ∀ last ∈ s.shown.getLast?, ahead key s.rows (key last) + 1 = s.shown.length

instance (s : Reading α) : Decidable (Still key s) := by
  unfold Still
  infer_instance

theorem Grows.inOrder_iff (hg : Grows key s s') : InOrder key s' ↔ InOrder key s := by
  rw [InOrder, InOrder, hg.shown]

/-- What is read later comes behind. -/
theorem Reads.inOrder (hr : Reads key limit s s') (h : InOrder key s') : InOrder key s := by
  rw [InOrder, hr.shown, List.pairwise_append] at h
  exact h.1

/-- The rows that were read before the last one are ahead of it. -/
theorem length_le_ahead {front : List α} {last : α} (hs : Sound key limit s)
    (horder : InOrder key s) (hshown : s.shown = front ++ [last]) :
    front.length ≤ ahead key s.rows (key last) := by
  rw [InOrder, hshown, List.pairwise_append] at horder
  have hkept := hs.kept
  rw [hshown, List.map_append] at hkept
  have hnodup : (front.map key).Nodup := by
    rw [List.Nodup, List.pairwise_map]
    exact horder.1.imp fun h => ne_of_gt h
  have hsub : (front.map key).Subperm ((s.rows.map key).filter (key last < ·)) := by
    refine List.Nodup.subperm hnodup fun x hx => ?_
    obtain ⟨r, hr, rfl⟩ := List.mem_map.mp hx
    exact List.mem_filter.mpr ⟨hkept (List.mem_append_left _ hx),
      decide_eq_true (horder.2.2 r hr last List.mem_cons_self)⟩
  have hlength := hsub.length_le
  rw [List.length_map, List.filter_map, List.length_map, ← List.countP_eq_length_filter] at hlength
  exact hlength

/-- **The next page continues the order** exactly when the last row has stayed in its place. -/
theorem inOrder_iff_still (hs : Sound key limit s) (horder : InOrder key s)
    (hr : Reads key limit s s') : InOrder key s' ↔ Still key s := by
  have hlength := length_shown (hs.all_full hr.before)
  have hpage : (page key limit s.pages.length s.rows).Pairwise fun a b => key b < key a :=
    ((pairwise_descending hs.distinct).sublist (List.drop_sublist _ _)).sublist
      (List.take_sublist _ _)
  have hiff : InOrder key s' ↔
      ∀ a ∈ s.shown, ∀ b ∈ page key limit s.pages.length s.rows, key b < key a := by
    rw [InOrder, hr.shown, List.pairwise_append]
    exact ⟨fun h => h.2.2, fun h => ⟨horder, hpage, h⟩⟩
  rw [hiff]
  rcases List.eq_nil_or_concat s.shown with hnil | ⟨front, last, heq⟩
  · simp [Still, hnil]
  rw [List.concat_eq_append] at heq
  have hfront := length_le_ahead hs horder heq
  have hlast : last ∈ s.shown := by
    rw [heq]
    simp
  have hcount : s.shown.length = front.length + 1 := by
    rw [heq, List.length_append, List.length_singleton]
  have hstill : Still key s ↔ ahead key s.rows (key last) = front.length := by
    rw [Still, heq, List.getLast?_concat]
    simp
  rw [hstill]
  constructor
  · intro h
    obtain ⟨r, hrows, hkey⟩ := List.mem_map.mp (hs.kept (List.mem_map_of_mem hlast))
    refine Nat.le_antisymm (Nat.le_of_not_lt fun hlt => ?_) hfront
    -- the row at the head of the page is not behind the last one
    have hmore : s.pages.length * limit < s.rows.length := by
      have hr' := ahead_lt_length hs.distinct hrows
      rw [hkey] at hr'
      omega
    have hi : s.pages.length * limit < (descending key s.rows).length := by
      rw [length_descending]
      exact hmore
    have hfirst := ahead_getElem hs.distinct hi
    have hpos : 0 < limit := by
      rcases Nat.eq_zero_or_pos limit with rfl | hpos
      · omega
      · exact hpos
    have hmem : (descending key s.rows)[s.pages.length * limit] ∈
        page key limit s.pages.length s.rows := by
      refine (mem_page_iff hs.distinct).mpr ⟨?_, ?_, ?_⟩
      · exact (perm_descending key s.rows).mem_iff.mp (List.getElem_mem hi)
      · omega
      · omega
    have hahead := ahead_lt_ahead hrows (hkey ▸ h last hlast _ hmem)
    rw [hfirst, hkey] at hahead
    omega
  · intro hahead a ha b hb
    have hb' := ((mem_page_iff hs.distinct).mp hb).2.1
    have hbehind : key b < key last := by
      rcases lt_or_ge (key b) (key last) with hlt | hge
      · exact hlt
      · have hle : ahead key s.rows (key b) ≤ ahead key s.rows (key last) := ahead_anti hge s.rows
        omega
    rw [heq] at ha
    rcases List.mem_append.mp ha with ha | ha
    · rw [InOrder, heq, List.pairwise_append] at horder
      exact hbehind.trans (horder.2.2 a ha last List.mem_cons_self)
    · rw [List.mem_singleton.mp ha]
      exact hbehind

end OffsetPaging
