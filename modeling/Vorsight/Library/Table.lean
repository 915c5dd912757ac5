/-
  KEYED TABLES, with the uniqueness of the key in the type.

  `Table key` is a list of rows whose keys are pairwise different; `Sequence key` adds the counter
  an auto-incrementing primary key is drawn from, above every key in use.  `create` and `update`
  return tables again, so no later proof re-establishes uniqueness: an insertion that would
  repeat a key is `none`, and an update has to leave the key alone.

  What an operation does is said twice: by `find` (which row is there under a key afterwards) and
  by membership of rows.
-/
import Mathlib.Data.List.Nodup

namespace Tables

variable {ρ κ : Type}

/-- Rows, no two of them with one key. -/
structure Table (key : ρ → κ) where
  rows : List ρ
  nodup : (rows.map key).Nodup

namespace Table

variable {key : ρ → κ}

@[ext] theorem ext : ∀ {t u : Table key}, t.rows = u.rows → t = u
  | ⟨_, _⟩, ⟨_, _⟩, rfl => rfl

instance [DecidableEq ρ] : DecidableEq (Table key) := fun t u =>
  decidable_of_iff (t.rows = u.rows) ⟨ext, fun h => h ▸ rfl⟩

def empty : Table key := ⟨[], List.nodup_nil⟩

/-- Two rows of a table with one key are one row. -/
theorem eq_of_key {t : Table key} {r r' : ρ} (hr : r ∈ t.rows) (hr' : r' ∈ t.rows)
    (hk : key r = key r') : r = r' :=
  List.inj_on_of_nodup_map t.nodup hr hr' hk

@[simp] theorem rows_empty : (empty : Table key).rows = [] := rfl

/-- Keep some of the rows. -/
def filter (t : Table key) (p : ρ → Bool) : Table key :=
  ⟨t.rows.filter p, t.nodup.sublist (List.filter_sublist.map key)⟩

@[simp] theorem rows_filter (t : Table key) (p : ρ → Bool) :
    (t.filter p).rows = t.rows.filter p := rfl

variable [DecidableEq κ]

/-- The row under a key. -/
def find (t : Table key) (k : κ) : Option ρ := t.rows.find? fun r => key r = k

/-- Add a row, unless its key is taken. -/
def create (t : Table key) (r : ρ) : Option (Table key) :=
  if h : key r ∈ t.rows.map key then none
  else some ⟨t.rows ++ [r], by
    rw [List.map_append]
    exact List.nodup_append.mpr ⟨t.nodup, by simp, by
      intro a ha b hb
      rw [List.map_singleton, List.mem_singleton] at hb
      exact fun hab => h (hb ▸ hab ▸ ha)⟩⟩

/-- Change the row under a key, if there is one, by a change that leaves its key alone. -/
def update (t : Table key) (k : κ) (f : ρ → ρ) (hf : ∀ r, key (f r) = key r) : Table key :=
  ⟨t.rows.map fun r => if key r = k then f r else r, by
    have hmap : (t.rows.map fun r => if key r = k then f r else r).map key = t.rows.map key := by
      rw [List.map_map]
      refine List.map_congr_left fun r _ => ?_
      show key (if key r = k then f r else r) = key r
      split
      · exact hf r
      · rfl
    rw [hmap]
    exact t.nodup⟩

@[simp] theorem rows_update (t : Table key) (k : κ) (f : ρ → ρ) (hf : ∀ r, key (f r) = key r) :
    (t.update k f hf).rows = t.rows.map fun r => if key r = k then f r else r := rfl

theorem find_eq_some {t : Table key} {k : κ} {r : ρ} :
    t.find k = some r ↔ r ∈ t.rows ∧ key r = k := by
  constructor
  · intro h
    exact ⟨List.mem_of_find?_eq_some h, by simpa using List.find?_some h⟩
  · rintro ⟨hr, rfl⟩
    cases hf : t.find (key r) with
    | none =>
      have := List.find?_eq_none.mp hf r hr
      simp at this
    | some r' =>
      have hk : key r' = key r := by simpa using List.find?_some hf
      rw [eq_of_key (List.mem_of_find?_eq_some hf) hr hk]

theorem find_eq_none {t : Table key} {k : κ} : t.find k = none ↔ ∀ r ∈ t.rows, key r ≠ k := by
  simp [find, List.find?_eq_none]

/-- An insertion succeeds exactly for a new key, and adds the row at the end. -/
theorem create_eq_some {t t' : Table key} {r : ρ} :
    t.create r = some t' ↔ t.find (key r) = none ∧ t'.rows = t.rows ++ [r] := by
  rw [find_eq_none, create]
  split
  · rename_i h
    obtain ⟨r', hr', hk⟩ := List.mem_map.mp h
    simp only [reduceCtorEq, false_iff, not_and]
    exact fun hnone => absurd hk (hnone r' hr')
  · rename_i h
    constructor
    · rintro ⟨⟩
      exact ⟨fun r' hr' hk => h (List.mem_map.mpr ⟨r', hr', hk⟩), rfl⟩
    · rintro ⟨-, hrows⟩
      exact congrArg some (ext hrows.symm)

/-- A new key can be inserted. -/
theorem exists_create {t : Table key} {r : ρ} (h : t.find (key r) = none) :
    ∃ t', t.create r = some t' := by
  have hnot : ¬ key r ∈ t.rows.map key := by
    intro hmem
    obtain ⟨r', hr', hk⟩ := List.mem_map.mp hmem
    exact find_eq_none.mp h r' hr' hk
  rw [create, dif_neg hnot]
  exact ⟨_, rfl⟩

theorem mem_update {t : Table key} {k : κ} {f : ρ → ρ} {hf : ∀ r, key (f r) = key r} {r : ρ} :
    r ∈ (t.update k f hf).rows ↔
      (r ∈ t.rows ∧ key r ≠ k) ∨ ∃ r' ∈ t.rows, key r' = k ∧ r = f r' := by
  rw [rows_update, List.mem_map]
  constructor
  · rintro ⟨r', hr', rfl⟩
    split
    · rename_i hk
      exact .inr ⟨r', hr', hk, rfl⟩
    · rename_i hk
      exact .inl ⟨hr', hk⟩
  · rintro (⟨hr, hk⟩ | ⟨r', hr', hk, rfl⟩)
    · exact ⟨r, hr, if_neg hk⟩
    · exact ⟨r', hr', if_pos hk⟩

/-- What is under a key after an update. -/
theorem find_update (t : Table key) (k k' : κ) (f : ρ → ρ) (hf : ∀ r, key (f r) = key r) :
    (t.update k f hf).find k' = if k' = k then (t.find k).map f else t.find k' := by
  by_cases hk : k' = k
  · subst hk
    rw [if_pos rfl]
    cases hfind : t.find k' with
    | none =>
      refine find_eq_none.mpr fun r hr => ?_
      rcases mem_update.mp hr with ⟨-, hne⟩ | ⟨r', hr', hk', -⟩
      · exact hne
      · exact absurd hk' (find_eq_none.mp hfind r' hr')
    | some r =>
      obtain ⟨hr, hk⟩ := find_eq_some.mp hfind
      exact find_eq_some.mpr ⟨mem_update.mpr (.inr ⟨r, hr, hk, rfl⟩), (hf r).trans hk⟩
  · rw [if_neg hk]
    cases hfind : t.find k' with
    | none =>
      refine find_eq_none.mpr fun r hr => ?_
      rcases mem_update.mp hr with ⟨hr, -⟩ | ⟨r', hr', hk', rfl⟩
      · exact find_eq_none.mp hfind r hr
      · rw [hf]
        exact find_eq_none.mp hfind r' hr'
    | some r =>
      obtain ⟨hr, rfl⟩ := find_eq_some.mp hfind
      exact find_eq_some.mpr ⟨mem_update.mpr (.inl ⟨hr, hk⟩), rfl⟩

/-- What is under a key after an insertion. -/
theorem find_create {t t' : Table key} {r : ρ} (h : t.create r = some t') (k : κ) :
    t'.find k = if k = key r then some r else t.find k := by
  obtain ⟨hnone, hrows⟩ := create_eq_some.mp h
  by_cases hk : k = key r
  · rw [if_pos hk]
    exact find_eq_some.mpr ⟨hrows ▸ by simp, hk.symm⟩
  · rw [if_neg hk]
    simp [find, hrows, List.find?_append, Ne.symm hk]

end Table

/-- A table whose key counts up: `next` is the key the next row gets. -/
structure Sequence (key : ρ → Nat) extends Table key where
  next : Nat
  below : ∀ r ∈ rows, key r < next

namespace Sequence

variable {key : ρ → Nat}

@[ext] theorem ext : ∀ {t u : Sequence key}, t.rows = u.rows → t.next = u.next → t = u
  | ⟨⟨_, _⟩, _, _⟩, ⟨⟨_, _⟩, _, _⟩, rfl, rfl => rfl

instance [DecidableEq ρ] : DecidableEq (Sequence key) := fun t u =>
  decidable_of_iff (t.rows = u.rows ∧ t.next = u.next)
    ⟨fun h => ext h.1 h.2, fun h => h ▸ ⟨rfl, rfl⟩⟩

def empty : Sequence key := ⟨Table.empty, 1, by simp⟩

/-- Add the row `mk n` under the next number `n`. -/
def create (t : Sequence key) (mk : Nat → ρ) (hmk : ∀ n, key (mk n) = n) : Sequence key where
  rows := t.rows ++ [mk t.next]
  nodup := by
    rw [List.map_append]
    refine List.nodup_append.mpr ⟨t.nodup, by simp, ?_⟩
    intro a ha b hb
    obtain ⟨r, hr, rfl⟩ := List.mem_map.mp ha
    rw [List.map_singleton, List.mem_singleton, hmk] at hb
    exact hb ▸ Nat.ne_of_lt (t.below r hr)
  next := t.next + 1
  below := by
    intro r hr
    rcases List.mem_append.mp hr with hr | hr
    · exact Nat.lt_succ_of_lt (t.below r hr)
    · rw [List.mem_singleton.mp hr, hmk]
      exact Nat.lt_succ_self _

/-- Change the row under a key, if there is one. -/
def update (t : Sequence key) (k : Nat) (f : ρ → ρ) (hf : ∀ r, key (f r) = key r) :
    Sequence key where
  toTable := t.toTable.update k f hf
  next := t.next
  below := by
    intro r hr
    rcases Table.mem_update.mp hr with ⟨hr, -⟩ | ⟨r', hr', -, rfl⟩
    · exact t.below r hr
    · rw [hf]
      exact t.below r' hr'

/-- Keep some of the rows; the numbers of the others are not given out again. -/
def filter (t : Sequence key) (p : ρ → Bool) : Sequence key where
  toTable := t.toTable.filter p
  next := t.next
  below := fun r hr => t.below r (List.mem_of_mem_filter hr)

@[simp] theorem rows_empty : (empty : Sequence key).rows = [] := rfl

@[simp] theorem rows_create (t : Sequence key) (mk : Nat → ρ) (hmk : ∀ n, key (mk n) = n) :
    (t.create mk hmk).rows = t.rows ++ [mk t.next] := rfl

@[simp] theorem rows_update (t : Sequence key) (k : Nat) (f : ρ → ρ)
    (hf : ∀ r, key (f r) = key r) :
    (t.update k f hf).rows = t.rows.map fun r => if key r = k then f r else r := rfl

@[simp] theorem rows_filter (t : Sequence key) (p : ρ → Bool) :
    (t.filter p).rows = t.rows.filter p := rfl

end Sequence

end Tables
