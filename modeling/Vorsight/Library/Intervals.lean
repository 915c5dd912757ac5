/-
  FINITE UNIONS OF HALF-OPEN INTERVALS over a linear order.

  Whether a stretch is covered without a gap is decided at the ends of the intervals: a gap begins
  at one of them (`covered_Ico_iff`).  So is whether the union is one given interval
  (`covered_iff_mem_Ico`).
-/
import Mathlib.Data.Finset.Max

namespace Intervals

variable {α : Type} [LinearOrder α]

/-- The point lies in one of the intervals `[start, stop)`. -/
def Covered (ws : List (α × α)) (x : α) : Prop := ∃ w ∈ ws, w.1 ≤ x ∧ x < w.2

instance (ws : List (α × α)) (x : α) : Decidable (Covered ws x) :=
  inferInstanceAs (Decidable (∃ w ∈ ws, w.1 ≤ x ∧ x < w.2))

/-- **A gap begins at the end of an interval.**  From a point that is covered on, all are, exactly
    when the ends in between are. -/
theorem covered_Ico_iff {ws : List (α × α)} {t stop : α} (ht : Covered ws t) :
    (∀ x, t ≤ x → x < stop → Covered ws x) ↔
      ∀ w ∈ ws, t < w.2 → w.2 < stop → Covered ws w.2 := by
  constructor
  · intro h w _ hlt hstop
    exact h w.2 (le_of_lt hlt) hstop
  · intro h x htx hx
    by_contra hgap
    obtain ⟨w, hw, hstart, hend⟩ := ht
    -- of the ends up to `x`, the last one is covered by an interval that reaches beyond `x`
    let ends := (ws.map Prod.snd).toFinset.filter fun e => t < e ∧ e ≤ x
    have hmem : w.2 ∈ ends := by
      have hle : w.2 ≤ x := by
        by_contra hlt
        exact hgap ⟨w, hw, le_trans hstart htx, not_le.mp hlt⟩
      exact Finset.mem_filter.mpr ⟨List.mem_toFinset.mpr (List.mem_map_of_mem hw), hend, hle⟩
    obtain ⟨last, hlast, hmax⟩ := Finset.exists_max_image ends id ⟨w.2, hmem⟩
    obtain ⟨hends, htlast, hlastx⟩ := Finset.mem_filter.mp hlast
    obtain ⟨w', hw', rfl⟩ := List.mem_map.mp (List.mem_toFinset.mp hends)
    obtain ⟨v, hv, hvstart, hvend⟩ := h w' hw' htlast (lt_of_le_of_lt hlastx hx)
    have hvx : v.2 ≤ x := by
      by_contra hlt
      exact hgap ⟨v, hv, le_trans hvstart hlastx, not_le.mp hlt⟩
    have hvmem : v.2 ∈ ends := Finset.mem_filter.mpr
      ⟨List.mem_toFinset.mpr (List.mem_map_of_mem hv), lt_trans htlast hvend, hvx⟩
    exact absurd (hmax v.2 hvmem) (not_le.mpr hvend)

/-- The intervals together are `[start, stop)`: none goes beyond it, and they leave no gap. -/
structure Fills (ws : List (α × α)) (start stop : α) : Prop where
  within : ∀ w ∈ ws, w.1 < w.2 → start ≤ w.1 ∧ w.2 ≤ stop
  first : start < stop → Covered ws start
  noGap : start < stop → ∀ w ∈ ws, start < w.2 → w.2 < stop → Covered ws w.2

theorem covered_iff_mem_Ico {ws : List (α × α)} {start stop : α} :
    (∀ x, Covered ws x ↔ start ≤ x ∧ x < stop) ↔ Fills ws start stop := by
  constructor
  · intro h
    refine ⟨fun w hw hlt => ?_, fun hlt => (h start).mpr ⟨le_rfl, hlt⟩, fun hlt => ?_⟩
    · have hstart := (h w.1).mp ⟨w, hw, le_rfl, hlt⟩
      refine ⟨hstart.1, ?_⟩
      by_contra hbeyond
      have hstop := (h stop).mp ⟨w, hw, le_of_lt hstart.2, not_le.mp hbeyond⟩
      exact absurd hstop.2 (lt_irrefl stop)
    · have hcovered := (h start).mpr ⟨le_rfl, hlt⟩
      exact (covered_Ico_iff hcovered).mp fun x hx hxstop => (h x).mpr ⟨hx, hxstop⟩
  · rintro ⟨hwithin, hfirst, hnoGap⟩ x
    constructor
    · rintro ⟨w, hw, hstart, hstop⟩
      obtain ⟨hle, hle'⟩ := hwithin w hw (lt_of_le_of_lt hstart hstop)
      exact ⟨le_trans hle hstart, lt_of_lt_of_le hstop hle'⟩
    · rintro ⟨hstart, hstop⟩
      have hlt := lt_of_le_of_lt hstart hstop
      exact (covered_Ico_iff (hfirst hlt)).mpr (hnoGap hlt) x hstart hstop

/-- Of an interval among them only the others matter. -/
theorem fills_iff_of_mem {ws : List (α × α)} {start stop : α} (h : (start, stop) ∈ ws) :
    Fills ws start stop ↔ ∀ w ∈ ws, w.1 < w.2 → start ≤ w.1 ∧ w.2 ≤ stop := by
  constructor
  · exact Fills.within
  · intro hwithin
    exact ⟨hwithin, fun hlt => ⟨_, h, le_rfl, hlt⟩,
      fun _ w _ hstart hstop => ⟨_, h, le_of_lt hstart, hstop⟩⟩

end Intervals
