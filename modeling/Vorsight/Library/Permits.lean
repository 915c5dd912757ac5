/-
  PERMITS, AND THE PARTIES THAT HOLD THEM.

  A semaphore knows how many permits are free, and not who has the others.  A party that has one is
  told from one that has none by its state (`holds`).

  1. **Conservation** — the free permits and the parties that hold one make up the total.  It is
     kept by a party that takes a free permit, by one that gives its own back, and by whatever
     leaves the permits alone.

  2. **What it gives** — no more parties hold a permit than there are, and all are free when
     nobody holds one.
-/
import Mathlib.Data.List.Count

namespace Permits

variable {α : Type} {holds : α → Bool} {total free : Nat} {parties : List α} {i : Nat} {x y : α}

/-- The free permits and the held ones make up the total. -/
def Conserved (holds : α → Bool) (total free : Nat) (parties : List α) : Prop :=
  free + parties.countP holds = total

/-- How many hold a permit once party `i` has changed. -/
theorem countP_set (holds : α → Bool) (hi : parties[i]? = some x) (y : α) :
    (parties.set i y).countP holds + (if holds x then 1 else 0) =
      parties.countP holds + (if holds y then 1 else 0) := by
  obtain ⟨hlt, hx⟩ := List.getElem?_eq_some_iff.mp hi
  rw [List.countP_set hlt, hx]
  have hpos : holds x = true → 0 < parties.countP holds := by
    intro hholds
    exact List.countP_pos_iff.mpr ⟨x, List.mem_of_getElem? hi, hholds⟩
  by_cases hholds : holds x = true
  · have hone := hpos hholds
    simp only [hholds, if_true]
    omega
  · simp [hholds]

/-! ## What keeps it -/

/-- A party without a permit joins. -/
theorem Conserved.join (h : Conserved holds total free parties) (hx : holds x = false) :
    Conserved holds total free (parties ++ [x]) := by
  simpa [Conserved, hx] using h

/-- A party goes on with what it has. -/
theorem Conserved.keep (h : Conserved holds total free parties) (hi : parties[i]? = some x)
    (hy : holds y = holds x) : Conserved holds total free (parties.set i y) := by
  have hcount : (parties.set i y).countP holds = parties.countP holds := by
    have hset := countP_set holds hi y
    rw [hy] at hset
    omega
  rw [Conserved, hcount]
  exact h

/-- A party takes a free permit. -/
theorem Conserved.take (h : Conserved holds total free parties) (hi : parties[i]? = some x)
    (hx : holds x = false) (hy : holds y = true) (hfree : 0 < free) :
    Conserved holds total (free - 1) (parties.set i y) := by
  have hset := countP_set holds hi y
  simp only [hx, hy, if_true] at hset
  unfold Conserved at h ⊢
  simp at hset
  omega

/-- A party gives its own permit back. -/
theorem Conserved.give (h : Conserved holds total free parties) (hi : parties[i]? = some x)
    (hx : holds x = true) (hy : holds y = false) :
    Conserved holds total (free + 1) (parties.set i y) := by
  have hset := countP_set holds hi y
  simp only [hx, hy, if_true] at hset
  unfold Conserved at h ⊢
  simp at hset
  omega

/-! ## What it gives -/

/-- A permit that is held is not free. -/
theorem Conserved.lt_of_holds (h : Conserved holds total free parties) (hx : x ∈ parties)
    (hholds : holds x = true) : free < total := by
  have hpos : 0 < parties.countP holds := List.countP_pos_iff.mpr ⟨x, hx, hholds⟩
  unfold Conserved at h
  omega

/-- Those that need a permit are no more than there are permits. -/
theorem Conserved.countP_le (h : Conserved holds total free parties) {needs : α → Bool}
    (hneeds : ∀ x, needs x = true → holds x = true) : parties.countP needs ≤ total := by
  have hle : parties.countP needs ≤ parties.countP holds :=
    List.countP_mono_left fun x _ hx => hneeds x hx
  unfold Conserved at h
  omega

/-- When nobody holds a permit, all are free. -/
theorem Conserved.idle (h : Conserved holds total free parties)
    (hnone : ∀ x ∈ parties, holds x = false) : free = total := by
  have hzero : parties.countP holds = 0 :=
    List.countP_eq_zero.mpr fun x hx => by simp [hnone x hx]
  unfold Conserved at h
  omega

end Permits
