/-
  STABLE SORTING by a comparator, where the result of `sort` is specified: a comparator that is not
  consistent may leave the elements in any order.

  That an element comes before another is `[a, b] <+ xs`, which in a list without duplicates is one
  of two exclusive cases.  In the sorted list a comes before b when its key is greater, or the keys
  are equal and it came before it in the first place (`pair_mergeSort_iff`); how many come before an
  element decides whether it is among the first ones (`mem_take_iff`).
-/
import Mathlib.Data.List.Pairwise
import Mathlib.Order.Lattice

namespace StableSort

variable {α : Type}

/-- A comparator that orders the elements. -/
structure Consistent (cmp : α → α → Int) (xs : List α) : Prop where
  antisymm : ∀ a ∈ xs, ∀ b ∈ xs, cmp a b < 0 ↔ 0 < cmp b a
  trans : ∀ a ∈ xs, ∀ b ∈ xs, ∀ c ∈ xs, cmp a b ≤ 0 → cmp b c ≤ 0 → cmp a c ≤ 0

/-- `xs.sort(cmp)` may result in `ys`. -/
structure Sorts (cmp : α → α → Int) (xs ys : List α) : Prop where
  perm : ys.Perm xs
  stable : Consistent cmp xs → ys = xs.mergeSort fun a b => cmp a b ≤ 0

/-! ## Before and after -/

variable {xs : List α} {a b : α}

theorem pair_sublist_total : ∀ {xs : List α}, a ∈ xs → b ∈ xs → a ≠ b →
    [a, b].Sublist xs ∨ [b, a].Sublist xs
  | x :: xs, ha, hb, hne => by
    rcases List.mem_cons.mp ha with rfl | hrestA
    · have hrestB := (List.mem_cons.mp hb).resolve_left hne.symm
      exact Or.inl (List.Sublist.cons_cons _ (List.singleton_sublist.mpr hrestB))
    · rcases List.mem_cons.mp hb with rfl | hrestB
      · exact Or.inr (List.Sublist.cons_cons _ (List.singleton_sublist.mpr hrestA))
      · exact (pair_sublist_total hrestA hrestB hne).imp (List.Sublist.cons _) (List.Sublist.cons _)

theorem mem_of_pair (h : [a, b].Sublist xs) : a ∈ xs ∧ b ∈ xs :=
  ⟨h.subset List.mem_cons_self, h.subset (List.mem_cons_of_mem _ List.mem_cons_self)⟩

theorem ne_of_pair (hnodup : xs.Nodup) (h : [a, b].Sublist xs) : a ≠ b := by
  have hpair := hnodup.sublist h
  simpa using hpair

theorem pair_sublist_asymm : ∀ {xs : List α}, xs.Nodup → [a, b].Sublist xs → ¬ [b, a].Sublist xs
  | x :: xs, hnodup, hab, hba => by
    obtain ⟨hx, hrest⟩ := List.nodup_cons.mp hnodup
    cases hab with
    | cons _ hab =>
      cases hba with
      | cons _ hba => exact pair_sublist_asymm hrest hab hba
      | cons_cons _ hba => exact hx (mem_of_pair hab).2
    | cons_cons _ hab =>
      cases hba with
      | cons _ hba => exact hx (mem_of_pair hba).2
      | cons_cons _ hba => exact hx (List.singleton_sublist.mp hab)

/-- What comes before an element in the middle. -/
theorem pair_sublist_iff {s t : List α} {c : α} (hnodup : (s ++ a :: t).Nodup) :
    [c, a].Sublist (s ++ a :: t) ↔ c ∈ s := by
  constructor
  · intro h
    have hmem := (mem_of_pair h).1
    rcases List.mem_append.mp hmem with hs | ht
    · exact hs
    · rcases List.mem_cons.mp ht with rfl | ht
      · exact absurd rfl (ne_of_pair hnodup h)
      · refine absurd h (pair_sublist_asymm hnodup ?_)
        exact ((List.singleton_sublist.mpr ht).cons_cons a).trans (List.sublist_append_right _ _)
  · intro hs
    exact (List.singleton_sublist.mpr hs).append (List.singleton_sublist.mpr List.mem_cons_self)

/-- **Among the first**: fewer come before it. -/
theorem mem_take_iff [DecidableEq α] (hnodup : xs.Nodup) (ha : a ∈ xs) (k : Nat) :
    a ∈ xs.take k ↔ xs.countP (fun c => [c, a].Sublist xs) < k := by
  obtain ⟨s, t, rfl⟩ := List.append_of_mem ha
  have hcount : (s ++ a :: t).countP (fun c => [c, a].Sublist (s ++ a :: t)) = s.length := by
    simp only [pair_sublist_iff hnodup]
    obtain ⟨-, hright, hdisjoint⟩ := List.nodup_append.mp hnodup
    rw [List.countP_append, List.countP_eq_length.mpr (by simp), List.countP_eq_zero.mpr]
    · rfl
    · intro c hc
      simpa using fun hs => hdisjoint c hs c hc rfl
  rw [hcount, List.take_append, List.mem_append]
  constructor
  · rintro (hs | ht)
    · obtain ⟨-, -, hdisjoint⟩ := List.nodup_append.mp hnodup
      exact absurd rfl (hdisjoint a (List.mem_of_mem_take hs) a List.mem_cons_self)
    · by_contra hlt
      rw [Nat.sub_eq_zero_of_le (Nat.not_lt.mp hlt)] at ht
      cases ht
  · intro hlt
    obtain ⟨n, hn⟩ := Nat.exists_eq_add_of_lt hlt
    refine Or.inr ?_
    rw [show k - s.length = n + 1 by omega, List.take_succ_cons]
    exact List.mem_cons_self

/-! ## Sorting by a key -/

section key

variable {κ : Type} [LinearOrder κ] {key : α → κ}

theorem key_trans (a b c : α) (hab : decide (key a ≤ key b) = true)
    (hbc : decide (key b ≤ key c) = true) : decide (key a ≤ key c) = true :=
  decide_eq_true (le_trans (of_decide_eq_true hab) (of_decide_eq_true hbc))

theorem key_total (a b : α) : (decide (key a ≤ key b) || decide (key b ≤ key a)) = true := by
  simp only [Bool.or_eq_true, decide_eq_true_eq]
  exact le_total _ _

theorem pairwise_sorted (key : α → κ) (xs : List α) :
    (xs.mergeSort fun a b => key a ≤ key b).Pairwise fun a b => key a ≤ key b :=
  (List.pairwise_mergeSort key_trans key_total xs).imp fun h => of_decide_eq_true h

/-- **Different keys** leave no choice to the sort. -/
theorem sorted_eq_of_perm {ys : List α} (hdistinct : xs.Pairwise fun a b => key a ≠ key b)
    (hperm : ys.Perm xs) : (ys.mergeSort fun a b => key a ≤ key b) =
      xs.mergeSort fun a b => key a ≤ key b := by
  have hys := List.mergeSort_perm ys fun a b => decide (key a ≤ key b)
  have hxs := List.mergeSort_perm xs fun a b => decide (key a ≤ key b)
  refine List.Perm.eq_of_pairwise ?_ (pairwise_sorted key ys) (pairwise_sorted key xs)
    ((hys.trans hperm).trans hxs.symm)
  intro a b ha hb hab hba
  by_contra hne
  have hmemA := hperm.mem_iff.mp (hys.mem_iff.mp ha)
  have hmemB := hxs.mem_iff.mp hb
  have hsymm : Std.Symm fun a b => key a ≠ key b := ⟨fun _ _ h => Ne.symm h⟩
  exact hdistinct.forall hmemA hmemB hne (le_antisymm hab hba)

/-- **In the sorted list**, by rising keys. -/
theorem pair_mergeSort_iff (hnodup : xs.Nodup) (ha : a ∈ xs) (hb : b ∈ xs) (hne : a ≠ b) :
    [a, b].Sublist (xs.mergeSort fun a b => key a ≤ key b) ↔
      key a < key b ∨ key a = key b ∧ [a, b].Sublist xs := by
  have hperm := List.mergeSort_perm xs fun a b => decide (key a ≤ key b)
  have hordered : ∀ {a b : α}, [a, b].Sublist (xs.mergeSort fun a b => key a ≤ key b) →
      key a ≤ key b := by
    intro a b h
    simpa using (pairwise_sorted key xs).sublist h
  have hkeeps : ∀ {a b : α}, key a ≤ key b → [a, b].Sublist xs →
      [a, b].Sublist (xs.mergeSort fun a b => key a ≤ key b) := by
    intro a b hle h
    exact List.pair_sublist_mergeSort key_trans key_total (decide_eq_true hle) h
  have hnodup' := hperm.nodup_iff.mpr hnodup
  constructor
  · intro h
    rcases (hordered h).eq_or_lt with hsame | hlt
    · refine Or.inr ⟨hsame, (pair_sublist_total ha hb hne).resolve_right fun hba => ?_⟩
      exact pair_sublist_asymm hnodup' h (hkeeps hsame.ge hba)
    · exact Or.inl hlt
  · rintro (hlt | ⟨hsame, h⟩)
    · refine (pair_sublist_total (hperm.mem_iff.mpr ha) (hperm.mem_iff.mpr hb) hne).resolve_right ?_
      intro hba
      exact absurd (hordered hba) (not_le.mpr hlt)
    · exact hkeeps hsame.le h

end key

/-- A comparator that subtracts keys. -/
theorem mergeSort_eq_of_key {cmp : α → α → Int} {key : α → Int}
    (hkey : ∀ a ∈ xs, ∀ b ∈ xs, cmp a b = key a - key b) :
    (xs.mergeSort fun a b => cmp a b ≤ 0) = xs.mergeSort fun a b => key a ≤ key b := by
  have hmap := @List.map_mergeSort _ _ (fun a b => decide (cmp a b ≤ 0))
    (fun a b => decide (key a ≤ key b)) id xs fun a ha b hb => by
      rw [hkey a ha b hb, decide_eq_decide, id, id]
      omega
  simpa using hmap

/-- It sorts by them. -/
theorem sorts_iff {cmp : α → α → Int} {key : α → Int} {ys : List α}
    (hkey : ∀ a ∈ xs, ∀ b ∈ xs, cmp a b = key a - key b) :
    Sorts cmp xs ys ↔ ys = xs.mergeSort fun a b => key a ≤ key b := by
  have hconsistent : Consistent cmp xs := by
    constructor
    · intro a ha b hb
      rw [hkey a ha b hb, hkey b hb a ha]
      omega
    · intro a ha b hb c hc
      rw [hkey a ha b hb, hkey b hb c hc, hkey a ha c hc]
      omega
  have hsame := mergeSort_eq_of_key hkey
  constructor
  · intro h
    rw [h.stable hconsistent, hsame]
  · rintro rfl
    exact ⟨List.mergeSort_perm _ _, fun _ => hsame.symm⟩

/-! ## The first ones -/

/-- The first `k` are listed by falling values, and no other has a greater value than they. -/
def OnTop (value : α → Int) (k : Nat) (ys : List α) : Prop :=
  (ys.take k).Pairwise (fun a b => value b ≤ value a) ∧
    ∀ a ∈ ys.take k, ∀ b ∈ ys.drop k, value b ≤ value a

theorem onTop_iff {value : α → Int} {k : Nat} {ys : List α} (hnodup : ys.Nodup) :
    OnTop value k ys ↔ ∀ a b, [a, b].Sublist ys → a ∈ ys.take k → value b ≤ value a := by
  constructor
  · rintro ⟨hpairs, hrest⟩ a b hab ha
    have hb : b ∈ ys.take k ++ ys.drop k := by
      rw [List.take_append_drop]
      exact (mem_of_pair hab).2
    rcases List.mem_append.mp hb with hb | hb
    · rcases pair_sublist_total ha hb (ne_of_pair hnodup hab) with h | h
      · exact hpairs.forall_sublist h
      · exact absurd (h.trans (List.take_sublist k ys)) (pair_sublist_asymm hnodup hab)
    · exact hrest a ha b hb
  · intro h
    refine ⟨List.pairwise_of_forall_sublist fun {a b} hab => ?_, fun a ha b hb => ?_⟩
    · exact h a b (hab.trans (List.take_sublist k ys)) (mem_of_pair hab).1
    · refine h a b ?_ ha
      have hpair := (List.singleton_sublist.mpr ha).append (List.singleton_sublist.mpr hb)
      rwa [List.take_append_drop] at hpair

end StableSort
