/-
  COUNTERS THAT ARE INCREMENTED BY A READ AND A LATER WRITE.

  A client reads a counter, holds the value, and later writes that value plus one, whatever the
  counter has become in the meantime; or it adds a counter of its own, at one.

  1. **The books** — `credit` says how many increments each counter has been sent, and `Exact`,
     `Short` compare it with the values.  `n` is the sum of all credits.

  2. **Exact books stay exact** under increments that find the counter as it was read
     (`Exact.increment`).  One that does not find it so leaves the books short (`Exact.stale`).

  3. **Short books stay short** whatever comes (`Short.increment`): a client that still holds an
     older value writes less than its increments are worth.
-/
import Mathlib.Algebra.Order.BigOperators.Group.List
import Mathlib.Algebra.Order.Ring.Int
import Mathlib.Data.List.Nodup
import Mathlib.Logic.Function.Basic

namespace Counters

/-- The counters, and what each client has read and not yet written. -/
structure State (κ ι : Type) where
  cells : List (κ × Int)
  held : ι → Option (κ × Int)

namespace State

variable {κ ι : Type} [DecidableEq κ] [DecidableEq ι]

/-- Client `i` reads counter `k`, which is at `v`. -/
def read (s : State κ ι) (i : ι) (k : κ) (v : Int) : State κ ι :=
  { s with held := Function.update s.held i (some (k, v)) }

/-- Client `i`, which has read `v`, writes `v + 1`. -/
def increment (s : State κ ι) (i : ι) (k : κ) (v : Int) : State κ ι where
  cells := s.cells.map fun x => if x.1 = k then (k, v + 1) else x
  held := Function.update s.held i none

/-- Client `i` adds counter `k`, at one. -/
def add (s : State κ ι) (i : ι) (k : κ) : State κ ι where
  cells := s.cells ++ [(k, 1)]
  held := Function.update s.held i none

def keys (s : State κ ι) : List κ := s.cells.map Prod.fst

def total (s : State κ ι) : Int := (s.cells.map Prod.snd).sum

/-- The sum of the credits of all counters. -/
def credited (c : κ → Int) (s : State κ ι) : Int := (s.cells.map fun x => c x.1).sum

/-- A client holds a counter that is there, and no more than its credit. -/
def Held (c : κ → Int) (s : State κ ι) : Prop :=
  ∀ i k v, s.held i = some (k, v) → k ∈ s.keys ∧ v ≤ c k

/-- Every counter is at its credit; the credits come to `n`. -/
def Exact (s : State κ ι) (n : Int) : Prop :=
  ∃ c, (∀ x ∈ s.cells, x.2 = c x.1) ∧ s.Held c ∧ s.credited c = n

/-- Some counter is below its credit, and so is what anyone holds of it. -/
def Short (s : State κ ι) (n : Int) : Prop :=
  ∃ c, (∀ x ∈ s.cells, x.2 ≤ c x.1) ∧ s.Held c ∧ s.credited c = n ∧
    ∃ x ∈ s.cells, x.2 < c x.1 ∧ ∀ i v, s.held i = some (x.1, v) → v < c x.1

variable {s : State κ ι} {n : Int} {i : ι} {k : κ} {v : Int}

omit [DecidableEq κ] [DecidableEq ι] in
theorem Exact.held_mem (h : s.Exact n) (hi : s.held i = some (k, v)) : k ∈ s.keys := by
  obtain ⟨c, -, hheld, -⟩ := h
  exact (hheld i k v hi).1

omit [DecidableEq κ] [DecidableEq ι] in
theorem Short.held_mem (h : s.Short n) (hi : s.held i = some (k, v)) : k ∈ s.keys := by
  obtain ⟨c, -, hheld, -⟩ := h
  exact (hheld i k v hi).1

/-! ## What the books say of the total -/

omit [DecidableEq κ] [DecidableEq ι] in
theorem Exact.total_eq (h : s.Exact n) : s.total = n := by
  obtain ⟨c, hcells, -, hn⟩ := h
  rw [← hn]
  exact congrArg List.sum (List.map_congr_left hcells)

omit [DecidableEq κ] [DecidableEq ι] in
theorem Short.total_lt (h : s.Short n) : s.total < n := by
  obtain ⟨c, hcells, -, hn, x, hx, hlt, -⟩ := h
  rw [← hn]
  exact List.sum_lt_sum _ _ hcells ⟨x, hx, hlt⟩

omit [DecidableEq ι] in
/-- As long as nobody holds anything, the books are exact. -/
theorem exact_init (hnodup : s.keys.Nodup) (hheld : ∀ i, s.held i = none) : s.Exact s.total := by
  have hlookup : ∀ cells : List (κ × Int), (cells.map Prod.fst).Nodup →
      ∀ x ∈ cells, x.2 = (cells.lookup x.1).getD 0 := by
    intro cells hnd x hmem
    induction cells with
    | nil => cases hmem
    | cons y cells ih =>
      obtain ⟨k, v⟩ := y
      rcases List.mem_cons.mp hmem with rfl | hx
      · simp
      · have hne : x.1 ≠ k := by
          rintro rfl
          exact (List.nodup_cons.mp hnd).1 (List.mem_map.mpr ⟨x, hx, rfl⟩)
        have hbeq : (x.1 == k) = false := by simpa using hne
        rw [List.lookup_cons, hbeq]
        exact ih (List.nodup_cons.mp hnd).2 hx
  refine ⟨fun k => (s.cells.lookup k).getD 0, hlookup s.cells hnodup, ?_, ?_⟩
  · intro i k v hi
    rw [hheld i] at hi
    cases hi
  · have hsame := List.map_congr_left (hlookup s.cells hnodup)
    exact (congrArg List.sum hsame).symm

/-! ## Reading -/

omit [DecidableEq κ] in
/-- Client `i` now holds `o`, and the others what they held. -/
theorem held_update {c c' : κ → Int} {cells : List (κ × Int)} {o : Option (κ × Int)}
    (hheld : s.Held c) (hkeys : ∀ k ∈ s.keys, k ∈ cells.map Prod.fst ∧ c k ≤ c' k)
    (ho : ∀ k v, o = some (k, v) → k ∈ cells.map Prod.fst ∧ v ≤ c' k) :
    State.Held c' { cells, held := Function.update s.held i o } := by
  intro j k v hj
  by_cases hji : j = i
  · subst hji
    simp only [Function.update_self] at hj
    exact ho k v hj
  · simp only [Function.update_of_ne hji] at hj
    obtain ⟨hmem, hle⟩ := hheld j k v hj
    obtain ⟨hmem', hle'⟩ := hkeys k hmem
    exact ⟨hmem', le_trans hle hle'⟩

omit [DecidableEq κ] [DecidableEq ι] in
theorem mem_keys (hcell : (k, v) ∈ s.cells) : k ∈ s.keys := List.mem_map.mpr ⟨_, hcell, rfl⟩

omit [DecidableEq κ] in
theorem Exact.read (h : s.Exact n) (hcell : (k, v) ∈ s.cells) : (s.read i k v).Exact n := by
  obtain ⟨c, hcells, hheld, hn⟩ := h
  refine ⟨c, hcells, held_update hheld (fun k hk => ⟨hk, le_refl _⟩) ?_, hn⟩
  rintro k' v' ⟨⟩
  exact ⟨mem_keys hcell, le_of_eq (hcells _ hcell)⟩

omit [DecidableEq κ] in
theorem Short.read (h : s.Short n) (hnodup : s.keys.Nodup) (hcell : (k, v) ∈ s.cells) :
    (s.read i k v).Short n := by
  obtain ⟨c, hcells, hheld, hn, x, hx, hlt, hlost⟩ := h
  refine ⟨c, hcells, held_update hheld (fun k hk => ⟨hk, le_refl _⟩) ?_, hn, x, hx, hlt,
    fun j v' hj => ?_⟩
  · rintro k' v' ⟨⟩
    exact ⟨mem_keys hcell, hcells _ hcell⟩
  · by_cases hji : j = i
    · subst hji
      simp only [State.read, Function.update_self, Option.some.injEq, Prod.mk.injEq] at hj
      obtain ⟨rfl, rfl⟩ := hj
      -- what is read is the value of the one counter with that key
      have heq : (x.1, v) = x := List.inj_on_of_nodup_map hnodup hcell hx rfl
      rw [← heq] at hlt
      exact hlt
    · simp only [State.read, Function.update_of_ne hji] at hj
      exact hlost j v' hj

/-! ## Writing -/

/-- One more increment for counter `k`. -/
def bump (c : κ → Int) (k : κ) : κ → Int := Function.update c k (c k + 1)

theorem le_bump (c : κ → Int) (k k' : κ) : c k' ≤ bump c k k' := by
  unfold bump
  by_cases h : k' = k
  · subst h
    rw [Function.update_self]
    omega
  · rw [Function.update_of_ne h]

theorem keys_increment : (s.increment i k v).keys = s.keys := by
  unfold keys increment
  rw [List.map_map]
  refine List.map_congr_left fun x _ => ?_
  show (if x.1 = k then (k, v + 1) else x).1 = x.1
  split
  · rename_i h
    exact h.symm
  · rfl

/-- An increment is credited once. -/
theorem credited_increment {c : κ → Int} (hnodup : s.keys.Nodup) (hk : k ∈ s.keys) :
    (s.increment i k v).credited (bump c k) = s.credited c + 1 := by
  have hsame : (s.increment i k v).credited (bump c k) =
      (s.keys.map (bump c k)).sum := by
    rw [← keys_increment (s := s) (i := i) (k := k) (v := v), keys, List.map_map]
    rfl
  have hsum : ∀ ks : List κ, ks.Nodup → k ∈ ks →
      (ks.map (bump c k)).sum = (ks.map c).sum + 1 := by
    intro ks
    induction ks with
    | nil => exact fun _ h => nomatch h
    | cons a ks ih =>
      intro hnd hmem
      rw [List.map_cons, List.map_cons, List.sum_cons, List.sum_cons]
      by_cases ha : a = k
      · subst ha
        have hrest : ks.map (bump c a) = ks.map c := by
          refine List.map_congr_left fun b hb => ?_
          have hne : b ≠ a := fun h => (List.nodup_cons.mp hnd).1 (h ▸ hb)
          exact Function.update_of_ne hne _ _
        rw [hrest, bump, Function.update_self]
        omega
      · have hks : k ∈ ks := (List.mem_cons.mp hmem).resolve_left (Ne.symm ha)
        rw [ih (List.nodup_cons.mp hnd).2 hks, bump, Function.update_of_ne ha]
        omega
  rw [hsame, hsum s.keys hnodup hk, keys, List.map_map]
  rfl

theorem mem_increment {x : κ × Int} (hx : x ∈ (s.increment i k v).cells) :
    x = (k, v + 1) ∨ x ∈ s.cells ∧ x.1 ≠ k := by
  obtain ⟨y, hy, rfl⟩ := List.mem_map.mp hx
  by_cases hk : y.1 = k
  · rw [if_pos hk]
    exact Or.inl rfl
  · rw [if_neg hk]
    exact Or.inr ⟨hy, hk⟩

theorem new_mem_increment (hk : k ∈ s.keys) : (k, v + 1) ∈ (s.increment i k v).cells := by
  obtain ⟨y, hy, rfl⟩ := List.mem_map.mp hk
  exact List.mem_map.mpr ⟨y, hy, if_pos rfl⟩

theorem old_mem_increment {x : κ × Int} (hx : x ∈ s.cells) (hne : x.1 ≠ k) :
    x ∈ (s.increment i k v).cells :=
  List.mem_map.mpr ⟨x, hx, if_neg hne⟩

/-- The others hold what they held, and are credited at least as much. -/
theorem held_increment {c : κ → Int} (hheld : s.Held c) :
    (s.increment i k v).Held (bump c k) := by
  refine held_update hheld (fun k' hk' => ⟨?_, le_bump c k k'⟩) fun k' v' h => nomatch h
  show k' ∈ (s.increment i k v).keys
  rw [keys_increment]
  exact hk'

theorem bump_self (c : κ → Int) (k : κ) : bump c k k = c k + 1 := Function.update_self ..

theorem bump_of_ne {c : κ → Int} {k k' : κ} (h : k' ≠ k) : bump c k k' = c k' :=
  Function.update_of_ne h ..

/-- **An increment of a counter that is as it was read** is kept. -/
theorem Exact.increment (h : s.Exact n) (hnodup : s.keys.Nodup) (hcell : (k, v) ∈ s.cells) :
    (s.increment i k v).Exact (n + 1) := by
  obtain ⟨c, hcells, hheld, hn⟩ := h
  refine ⟨bump c k, fun x hx => ?_, held_increment hheld, ?_⟩
  · rcases mem_increment hx with rfl | ⟨hx, hne⟩
    · rw [bump_self]
      have hv : v = c k := hcells _ hcell
      show v + 1 = c k + 1
      omega
    · rw [bump_of_ne hne]
      exact hcells x hx
  · rw [credited_increment hnodup (mem_keys hcell), hn]

/-- **An increment of a counter that has changed** since it was read is lost, or loses another. -/
theorem Exact.stale (h : s.Exact n) (hnodup : s.keys.Nodup) (hheld : s.held i = some (k, v))
    (hcell : (k, v) ∉ s.cells) : (s.increment i k v).Short (n + 1) := by
  obtain ⟨c, hcells, hholds, hn⟩ := h
  obtain ⟨hk, hle⟩ := hholds i k v hheld
  -- the counter is at its credit, so what was read is below that
  have hlt : v < c k := by
    obtain ⟨⟨k', u⟩, hu, rfl⟩ := List.mem_map.mp hk
    have hu' : u = c k' := hcells _ hu
    rcases lt_or_eq_of_le hle with hlt | heq
    · exact hlt
    · exact absurd (by rw [heq, ← hu']; exact hu) hcell
  refine ⟨bump c k, fun x hx => ?_, held_increment hholds, ?_, (k, v + 1), new_mem_increment hk,
    ?_, fun j v' hj => ?_⟩
  · rcases mem_increment hx with rfl | ⟨hx, hne⟩
    · rw [bump_self]
      show v + 1 ≤ c k + 1
      omega
    · rw [bump_of_ne hne]
      exact le_of_eq (hcells x hx)
  · rw [credited_increment hnodup hk, hn]
  · rw [bump_self]
    show v + 1 < c k + 1
    omega
  · -- whoever else holds the counter has read it before this write
    rw [bump_self]
    by_cases hji : j = i
    · subst hji
      simp [State.increment] at hj
    · simp only [State.increment, Function.update_of_ne hji] at hj
      have := (hholds j k v' hj).2
      omega

/-- **What is lost stays lost**, whatever is written next. -/
theorem Short.increment (h : s.Short n) (hnodup : s.keys.Nodup)
    (hheld : s.held i = some (k, v)) : (s.increment i k v).Short (n + 1) := by
  obtain ⟨c, hcells, hholds, hn, x, hx, hlt, hlost⟩ := h
  obtain ⟨hk, hle⟩ := hholds i k v hheld
  have hcells' : ∀ y ∈ (s.increment i k v).cells, y.2 ≤ bump c k y.1 := by
    intro y hy
    rcases mem_increment hy with rfl | ⟨hy, hne⟩
    · rw [bump_self]
      show v + 1 ≤ c k + 1
      omega
    · rw [bump_of_ne hne]
      exact hcells y hy
  have hothers : ∀ j v', (s.increment i k v).held j = some (x.1, v') → v' < c x.1 := by
    intro j v' hj
    by_cases hji : j = i
    · subst hji
      simp [State.increment] at hj
    · simp only [State.increment, Function.update_of_ne hji] at hj
      exact hlost j v' hj
  refine ⟨bump c k, hcells', held_increment hholds, ?_, ?_⟩
  · rw [credited_increment hnodup hk, hn]
  · by_cases hxk : x.1 = k
    · -- the write goes to the counter that is short: what it held is below its credit
      have hv : v < c x.1 := hlost i v (by rw [hxk]; exact hheld)
      refine ⟨(x.1, v + 1), ?_, ?_, fun j v' hj => ?_⟩
      · rw [hxk]
        exact new_mem_increment hk
      · rw [← hxk, bump_self]
        show v + 1 < c x.1 + 1
        omega
      · rw [← hxk, bump_self]
        have := hothers j v' hj
        omega
    · refine ⟨x, old_mem_increment hx hxk, ?_, fun j v' hj => ?_⟩
      · rw [bump_of_ne hxk]
        exact hlt
      · rw [bump_of_ne hxk]
        exact hothers j v' hj

/-! ## A new counter -/

/-- A new counter is credited with what it starts at. -/
theorem credited_add {c : κ → Int} (hk : k ∉ s.keys) :
    (s.add i k).credited (Function.update c k 1) = s.credited c + 1 := by
  have hsame : s.cells.map (fun x => Function.update c k 1 x.1) = s.cells.map fun x => c x.1 := by
    refine List.map_congr_left fun x hx => Function.update_of_ne ?_ _ _
    rintro rfl
    exact hk (mem_keys hx)
  unfold credited add
  rw [List.map_append, List.sum_append, hsame]
  simp

theorem held_add {c : κ → Int} (hheld : s.Held c) (hk : k ∉ s.keys) :
    (s.add i k).Held (Function.update c k 1) := by
  refine held_update hheld (fun k' hk' => ⟨?_, ?_⟩) fun k' v' h => nomatch h
  · rw [List.map_append]
    exact List.mem_append_left _ hk'
  · have hne : k' ≠ k := fun h => hk (h ▸ hk')
    rw [Function.update_of_ne hne]

omit [DecidableEq κ] in
theorem mem_add {x : κ × Int} (hx : x ∈ (s.add i k).cells) : x ∈ s.cells ∨ x = (k, 1) := by
  rcases List.mem_append.mp hx with hx | hx
  · exact Or.inl hx
  · exact Or.inr (List.mem_singleton.mp hx)

theorem Exact.add (h : s.Exact n) (hk : k ∉ s.keys) : (s.add i k).Exact (n + 1) := by
  obtain ⟨c, hcells, hheld, hn⟩ := h
  refine ⟨Function.update c k 1, fun x hx => ?_, held_add hheld hk, ?_⟩
  · rcases mem_add hx with hx | rfl
    · have hne : x.1 ≠ k := fun h => hk (h ▸ mem_keys hx)
      rw [Function.update_of_ne hne]
      exact hcells x hx
    · rw [Function.update_self]
  · rw [credited_add hk, hn]

theorem Short.add (h : s.Short n) (hk : k ∉ s.keys) : (s.add i k).Short (n + 1) := by
  obtain ⟨c, hcells, hheld, hn, x, hx, hlt, hlost⟩ := h
  have hxk : x.1 ≠ k := fun h => hk (h ▸ mem_keys hx)
  refine ⟨Function.update c k 1, fun y hy => ?_, held_add hheld hk, ?_, x,
    List.mem_append_left _ hx, ?_, fun j v hj => ?_⟩
  · rcases mem_add hy with hy | rfl
    · have hne : y.1 ≠ k := fun h => hk (h ▸ mem_keys hy)
      rw [Function.update_of_ne hne]
      exact hcells y hy
    · rw [Function.update_self]
  · rw [credited_add hk, hn]
  · rw [Function.update_of_ne hxk]
    exact hlt
  · rw [Function.update_of_ne hxk]
    by_cases hji : j = i
    · subst hji
      simp [State.add] at hj
    · simp only [State.add, Function.update_of_ne hji] at hj
      exact hlost j v hj

end State

end Counters
