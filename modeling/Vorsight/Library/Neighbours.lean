/-
  MERGING EQUAL NEIGHBOURS of a list, in one pass that has the current run in hand.

  Which neighbours are equal is told by a key, and `combine` takes an element into the current run;
  the run keeps the key of its first element.

  1. **What comes out** (`stands_merge`): one element for each maximal run of equal neighbours, in
     their order, and the runs are Mathlib's `splitBy` (`maximalRuns_splitBy`).

  2. **What is kept**: a total that `combine` adds up (`sum_merge`), and the order of whatever a
     run has from its first element (`sublist_merge`).  No two neighbours are equal afterwards
     (`isChain_merge`), so that merging again changes nothing (`merge_of_isChain`).
-/
import Mathlib.Data.List.SplitBy
import Mathlib.Algebra.BigOperators.Group.List.Basic

namespace Neighbours

variable {α κ : Type} [DecidableEq κ]

/-- `current` stands for the run so far. -/
def merge (key : α → κ) (combine : α → α → α) (current : α) : List α → List α
  | [] => [current]
  | x :: xs =>
    if key x = key current then merge key combine (combine current x) xs
    else current :: merge key combine x xs

/-- Runs of equal neighbours, as long as they can be. -/
structure MaximalRuns (key : α → κ) (xs : List α) (runs : List (List α)) : Prop where
  flatten : runs.flatten = xs
  nonempty : [] ∉ runs
  same : ∀ run ∈ runs, ∀ a ∈ run, ∀ b ∈ run, key a = key b
  maximal : runs.IsChain fun run next => ∀ a ∈ run, ∀ b ∈ next, key a ≠ key b

/-- The run, taken together from its first element on. -/
def Stands (combine : α → α → α) (a : α) (run : List α) : Prop :=
  ∃ first rest, run = first :: rest ∧ a = rest.foldl combine first

variable {key : α → κ} {combine : α → α → α}

/-! ## The runs -/

theorem key_eq_of_isChain : ∀ {xs : List α} {a : α},
    (a :: xs).IsChain (fun a b => decide (key a = key b) = true) → ∀ b ∈ xs, key b = key a
  | [], _, _, _, hb => by cases hb
  | x :: xs, a, h, b, hb => by
    obtain ⟨hax, hrest⟩ := List.isChain_cons_cons.mp h
    have hx : key a = key x := of_decide_eq_true hax
    rcases List.mem_cons.mp hb with rfl | hb
    · exact hx.symm
    · exact (key_eq_of_isChain hrest b hb).trans hx.symm

theorem isChain_of_key_eq : ∀ {xs : List α} {a : α}, (∀ b ∈ xs, key b = key a) →
    (a :: xs).IsChain (fun a b => decide (key a = key b) = true)
  | [], a, _ => List.isChain_singleton a
  | x :: xs, a, h => by
    have hx : key x = key a := h x List.mem_cons_self
    refine List.isChain_cons_cons.mpr ⟨decide_eq_true hx.symm, isChain_of_key_eq fun b hb => ?_⟩
    exact (h b (List.mem_cons_of_mem _ hb)).trans hx.symm

theorem maximalRuns_splitBy (key : α → κ) (xs : List α) :
    MaximalRuns key xs (xs.splitBy fun a b => key a = key b) := by
  have hsame : ∀ run ∈ xs.splitBy (fun a b => key a = key b), ∀ a ∈ run, ∀ b ∈ run,
      key a = key b := by
    intro run hrun
    cases run with
    | nil => exact fun a ha => by cases ha
    | cons first rest =>
      have hfirst := key_eq_of_isChain (List.isChain_of_mem_splitBy hrun)
      have hall : ∀ a ∈ first :: rest, key a = key first := by
        intro a ha
        rcases List.mem_cons.mp ha with rfl | ha
        · rfl
        · exact hfirst a ha
      exact fun a ha b hb => (hall a ha).trans (hall b hb).symm
  refine ⟨List.flatten_splitBy _ xs, List.nil_notMem_splitBy _ xs, hsame, ?_⟩
  refine (List.isChain_getLast_head_splitBy _ xs).imp_of_mem_imp ?_
  rintro run next hrun hnext ⟨hne, hne', hdiffer⟩ a ha b hb hab
  have hlast := hsame run hrun a ha _ (List.getLast_mem hne)
  have hhead := hsame next hnext b hb _ (List.head_mem hne')
  exact of_decide_eq_false hdiffer (hlast.symm.trans (hab.trans hhead))

omit [DecidableEq κ] in
theorem key_foldl (hkey : ∀ a b, key (combine a b) = key a) : ∀ (run : List α) (first : α),
    key (run.foldl combine first) = key first
  | [], _ => rfl
  | x :: run, first => by
    rw [List.foldl_cons, key_foldl hkey run, hkey]

/-- The pass, with a run in hand. -/
theorem stands_merge_foldl (hkey : ∀ a b, key (combine a b) = key a) :
    ∀ (xs : List α) {first : α} {run : List α}, (∀ b ∈ run, key b = key first) →
      List.Forall₂ (Stands combine) (merge key combine (run.foldl combine first) xs)
        ((first :: run ++ xs).splitBy fun a b => key a = key b)
  | [], first, run, hrun => by
    rw [List.append_nil, List.splitBy_of_isChain (List.cons_ne_nil _ _) (isChain_of_key_eq hrun)]
    exact .cons ⟨first, run, rfl, rfl⟩ .nil
  | x :: xs, first, run, hrun => by
    rw [merge, key_foldl hkey]
    by_cases hx : key x = key first
    · rw [if_pos hx]
      have hlonger : ∀ b ∈ run ++ [x], key b = key first := by
        intro b hb
        rcases List.mem_append.mp hb with hb | hb
        · exact hrun b hb
        · rw [List.mem_singleton.mp hb]
          exact hx
      have hrest := stands_merge_foldl hkey xs hlonger
      rw [List.foldl_concat] at hrest
      simpa using hrest
    · rw [if_neg hx]
      have hends : ∀ a ∈ (first :: run).getLast?, decide (key a = key x) = false := by
        intro a ha
        have hsame : key a = key first := by
          rcases List.mem_cons.mp (List.mem_of_getLast? ha) with rfl | ha
          · rfl
          · exact hrun a ha
        exact decide_eq_false fun h => hx (h.symm.trans hsame)
      rw [List.splitBy_append_cons xs hends,
        List.splitBy_of_isChain (List.cons_ne_nil _ _) (isChain_of_key_eq hrun)]
      have hnext := @stands_merge_foldl hkey xs x [] fun b hb => by cases hb
      exact .cons ⟨first, run, rfl, rfl⟩ hnext

/-- **One element for each maximal run.** -/
theorem stands_merge (hkey : ∀ a b, key (combine a b) = key a) (first : α) (xs : List α) :
    List.Forall₂ (Stands combine) (merge key combine first xs)
      ((first :: xs).splitBy fun a b => key a = key b) :=
  @stands_merge_foldl _ _ _ key combine hkey xs first [] fun b hb => by cases hb

/-! ## What is kept -/

theorem sum_merge {M : Type} [AddMonoid M] {weight : α → M}
    (hweight : ∀ a b, weight (combine a b) = weight a + weight b) : ∀ (xs : List α) (current : α),
    ((merge key combine current xs).map weight).sum = ((current :: xs).map weight).sum
  | [], _ => rfl
  | x :: xs, current => by
    rw [merge]
    split
    · rw [sum_merge hweight xs, List.map_cons, List.sum_cons, hweight, add_assoc]
      rfl
    · rw [List.map_cons, List.sum_cons, sum_merge hweight xs]
      rfl

/-- What a run has from its first element comes in the order of these. -/
theorem sublist_merge {τ : Type} {mark : α → τ} (hmark : ∀ a b, mark (combine a b) = mark a) :
    ∀ (xs : List α) (current : α),
      ((merge key combine current xs).map mark).Sublist ((current :: xs).map mark)
  | [], _ => List.Sublist.refl _
  | x :: xs, current => by
    rw [merge]
    split
    · have hrest := sublist_merge hmark xs (combine current x)
      rw [List.map_cons, hmark] at hrest
      exact hrest.trans ((List.sublist_cons_self _ _).cons_cons _)
    · exact (sublist_merge hmark xs x).cons_cons _

theorem head?_merge (hkey : ∀ a b, key (combine a b) = key a) : ∀ (xs : List α) (current : α),
    (merge key combine current xs).head?.map key = some (key current)
  | [], _ => rfl
  | x :: xs, current => by
    rw [merge]
    split
    · rw [head?_merge hkey xs, hkey]
    · rfl

/-- **No two neighbours are equal** afterwards. -/
theorem isChain_merge (hkey : ∀ a b, key (combine a b) = key a) : ∀ (xs : List α) (current : α),
    (merge key combine current xs).IsChain fun a b => key a ≠ key b
  | [], current => List.isChain_singleton current
  | x :: xs, current => by
    rw [merge]
    split
    · exact isChain_merge hkey xs _
    · rename_i hx
      refine List.isChain_cons.mpr ⟨fun y hy => ?_, isChain_merge hkey xs x⟩
      have hhead := head?_merge hkey xs x
      rw [show (merge key combine x xs).head? = some y from hy, Option.map_some,
        Option.some_inj] at hhead
      rw [hhead]
      exact Ne.symm hx

theorem merge_of_isChain : ∀ {xs : List α} {current : α},
    (current :: xs).IsChain (fun a b => key a ≠ key b) →
      merge key combine current xs = current :: xs
  | [], _, _ => rfl
  | x :: xs, current, h => by
    obtain ⟨hx, hrest⟩ := List.isChain_cons_cons.mp h
    rw [merge, if_neg (Ne.symm hx), merge_of_isChain hrest]

end Neighbours
