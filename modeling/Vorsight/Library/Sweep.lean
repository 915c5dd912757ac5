/-
  THE LENGTH OF A UNION of half-open intervals of integers.

  The intervals are sorted by their starts and walked through from left to right; `sweep` keeps the
  stretch that is open and adds its length up when the next interval does not begin before its end.
  What it has closed lies left of the open stretch, so nothing is counted twice
  (`mergedLength_eq`).
-/
import Mathlib.Data.Set.Card
import Vorsight.Library.Intervals
import Vorsight.Library.StableSort

namespace Intervals

/-! ## The union -/

/-- The integers of an interval. -/
def stretch (start stop : Int) : Finset Int :=
  (Finset.range (stop - start).toNat).image fun n : Nat => start + n

theorem mem_stretch {start stop x : Int} : x ∈ stretch start stop ↔ start ≤ x ∧ x < stop := by
  simp only [stretch, Finset.mem_image, Finset.mem_range]
  constructor
  · rintro ⟨n, hn, rfl⟩
    omega
  · rintro ⟨hge, hlt⟩
    exact ⟨(x - start).toNat, by omega, by omega⟩

theorem card_stretch (start stop : Int) : (stretch start stop).card = (stop - start).toNat := by
  have hinjective : Function.Injective fun n : Nat => start + n := by
    intro m n h
    simpa using h
  rw [stretch, Finset.card_image_of_injective _ hinjective, Finset.card_range]

/-- The integers of the union. -/
def points : List (Int × Int) → Finset Int
  | [] => ∅
  | w :: ws => stretch w.1 w.2 ∪ points ws

theorem mem_points {x : Int} : ∀ {ws : List (Int × Int)}, x ∈ points ws ↔ Covered ws x
  | [] => by simp [points, Covered]
  | w :: ws => by
    rw [points, Finset.mem_union, mem_stretch, mem_points]
    unfold Covered
    rw [List.exists_mem_cons_iff]

/-- The length of the union. -/
def unionLength (ws : List (Int × Int)) : Nat := (points ws).card

theorem unionLength_eq_ncard (ws : List (Int × Int)) :
    unionLength ws = {x | Covered ws x}.ncard := by
  have hset : {x | Covered ws x} = (points ws : Set Int) := by
    ext x
    exact mem_points.symm
  rw [hset, Set.ncard_coe_finset, unionLength]

theorem unionLength_congr {vs ws : List (Int × Int)} (h : ∀ x, Covered vs x ↔ Covered ws x) :
    unionLength vs = unionLength ws := by
  have hpoints : points vs = points ws := by
    ext x
    rw [mem_points, mem_points, h x]
  rw [unionLength, unionLength, hpoints]

/-! ## The sweep -/

/-- The intervals still to come, with the length that is merged so far and the open stretch. -/
def sweep (merged start stop : Int) : List (Int × Int) → Int
  | [] => merged + (stop - start)
  | next :: rest =>
    if next.1 < stop then sweep merged start (max stop next.2) rest
    else sweep (merged + (stop - start)) next.1 next.2 rest

/-- The intervals, sorted and swept. -/
def mergedLength (ws : List (Int × Int)) : Int :=
  match ws.mergeSort fun v w => v.1 ≤ w.1 with
  | [] => 0
  | first :: rest => sweep 0 first.1 first.2 rest

/-- What lies left of the open stretch does not meet it. -/
theorem card_union_stretch {closed : Finset Int} {start stop : Int} (hle : start ≤ stop)
    (hclosed : ∀ x ∈ closed, x < start) :
    ((closed ∪ stretch start stop).card : Int) = closed.card + (stop - start) := by
  have hdisjoint : Disjoint closed (stretch start stop) := by
    rw [Finset.disjoint_left]
    intro x hx hmem
    have hlt := hclosed x hx
    have hge := (mem_stretch.mp hmem).1
    omega
  rw [Finset.card_union_of_disjoint hdisjoint, card_stretch]
  omega

/-- **The sweep invariant**: `closed` is what has been merged, and lies left of the open stretch. -/
theorem sweep_eq : ∀ (rest : List (Int × Int)) (closed : Finset Int) (start stop : Int),
    start ≤ stop → (∀ x ∈ closed, x < start) → (∀ w ∈ rest, start ≤ w.1 ∧ w.1 ≤ w.2) →
    rest.Pairwise (fun v w => v.1 ≤ w.1) →
    sweep closed.card start stop rest = (closed ∪ stretch start stop ∪ points rest).card
  | [], closed, start, stop, hle, hclosed, _, _ => by
    rw [points, Finset.union_empty, card_union_stretch hle hclosed]
    rfl
  | next :: rest, closed, start, stop, hle, hclosed, hrest, hsorted => by
    obtain ⟨hnext, hnextLe⟩ := hrest next List.mem_cons_self
    obtain ⟨hfirst, hsorted⟩ := List.pairwise_cons.mp hsorted
    have htail : ∀ w ∈ rest, w.1 ≤ w.2 := fun w hw => (hrest w (List.mem_cons_of_mem _ hw)).2
    rw [sweep]
    split
    · rename_i hoverlap
      have hunion : stretch start (max stop next.2) =
          stretch start stop ∪ stretch next.1 next.2 := by
        ext x
        simp only [mem_stretch, Finset.mem_union]
        omega
      rw [sweep_eq rest closed start (max stop next.2) (by omega) hclosed
        (fun w hw => ⟨(hrest w (List.mem_cons_of_mem _ hw)).1, htail w hw⟩) hsorted, hunion, points]
      simp only [Finset.union_assoc]
    · rename_i hgap
      have hclosed' : ∀ x ∈ closed ∪ stretch start stop, x < next.1 := by
        intro x hx
        rcases Finset.mem_union.mp hx with hx | hx
        · have hlt := hclosed x hx
          omega
        · have hlt := (mem_stretch.mp hx).2
          omega
      rw [← card_union_stretch hle hclosed, sweep_eq rest _ next.1 next.2 hnextLe hclosed'
        (fun w hw => ⟨hfirst w hw, htail w hw⟩) hsorted, points]
      simp only [Finset.union_assoc]

/-- **The merged length is that of the union.** -/
theorem mergedLength_eq {ws : List (Int × Int)} (h : ∀ w ∈ ws, w.1 ≤ w.2) :
    mergedLength ws = unionLength ws := by
  have hperm := List.mergeSort_perm ws fun v w => decide (v.1 ≤ w.1)
  have hsorted := StableSort.pairwise_sorted Prod.fst ws
  have hsame : unionLength ws = unionLength (ws.mergeSort fun v w => decide (v.1 ≤ w.1)) := by
    refine unionLength_congr fun x => ?_
    unfold Covered
    simp only [hperm.mem_iff]
  rw [hsame]
  unfold mergedLength
  generalize (ws.mergeSort fun v w => decide (v.1 ≤ w.1)) = sorted at hperm hsorted
  cases sorted with
  | nil => rfl
  | cons first rest =>
    obtain ⟨hfirst, hrest⟩ := List.pairwise_cons.mp hsorted
    have hle : ∀ w ∈ first :: rest, w.1 ≤ w.2 := fun w hw => h w (hperm.mem_iff.mp hw)
    have hswept := sweep_eq rest ∅ first.1 first.2 (hle first List.mem_cons_self) (by simp)
      (fun w hw => ⟨hfirst w hw, hle w (List.mem_cons_of_mem _ hw)⟩) hrest
    rw [Finset.empty_union] at hswept
    exact hswept

/-! ## Disjoint intervals -/

/-- The lengths added up. -/
def totalLength : List (Int × Int) → Int
  | [] => 0
  | w :: ws => (w.2 - w.1) + totalLength ws

/-- No integer lies in two of them. -/
def Apart (v w : Int × Int) : Prop := ∀ x, v.1 ≤ x → x < v.2 → w.1 ≤ x → x < w.2 → False

/-- Of intervals that are apart the union is as long as they are together. -/
theorem totalLength_eq : ∀ {ws : List (Int × Int)}, (∀ w ∈ ws, w.1 ≤ w.2) → ws.Pairwise Apart →
    totalLength ws = unionLength ws
  | [], _, _ => rfl
  | w :: ws, hle, hapart => by
    obtain ⟨hfirst, hrest⟩ := List.pairwise_cons.mp hapart
    have hdisjoint : Disjoint (stretch w.1 w.2) (points ws) := by
      rw [Finset.disjoint_left]
      intro x hx hmem
      obtain ⟨v, hv, hstart, hstop⟩ := mem_points.mp hmem
      obtain ⟨hge, hlt⟩ := mem_stretch.mp hx
      exact hfirst v hv x hge hlt hstart hstop
    have hwle := hle w List.mem_cons_self
    rw [totalLength, totalLength_eq (fun v hv => hle v (List.mem_cons_of_mem _ hv)) hrest,
      unionLength, unionLength, points, Finset.card_union_of_disjoint hdisjoint, card_stretch]
    omega

end Intervals
