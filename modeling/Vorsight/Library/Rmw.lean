/-
  READ, MODIFY, WRITE BACK: clients that share a register without a transaction.

  Client `i` reads the register, computes `merge read (input i)` on its own, and writes that back.
  A write throws away what others have written since the client's read, so what is stored is the
  work of a CHAIN of clients: the last one to write, the one whose write that one had read, and so
  on to the start.  `Trace` follows the chains; they depend on the schedule alone, not on the
  values.  `survivors schedule` is the chain a schedule ends with.
-/
import Mathlib.Data.List.Induction
import Mathlib.Data.List.Nodup
import Mathlib.Logic.Function.Basic

namespace Rmw

variable {ι : Type} [DecidableEq ι]

/-- How far a client is; `holding read` has read the register while it stored that chain. -/
inductive Phase (ι : Type)
  | waiting
  | holding (read : List ι)
  | finished

/-- The chain that is stored, and each client's phase. -/
structure Trace (ι : Type) where
  stored : List ι := []
  phase : ι → Phase ι := fun _ => .waiting

namespace Trace

/-- The client's next step; what it does after its write does not matter here. -/
def advance (c : Trace ι) (i : ι) : Trace ι :=
  match c.phase i with
  | .waiting => { c with phase := Function.update c.phase i (.holding c.stored) }
  | .holding read => { stored := read ++ [i], phase := Function.update c.phase i .finished }
  | .finished => c

/-- A chain is made of clients that have written, each once. -/
def Written (c : Trace ι) (chain : List ι) : Prop :=
  chain.Nodup ∧ ∀ i ∈ chain, c.phase i = .finished

structure Inv (c : Trace ι) : Prop where
  stored : c.Written c.stored
  holding : ∀ i read, c.phase i = .holding read → c.Written read
  nonempty : ∀ i, c.phase i = .finished → c.stored ≠ []

omit [DecidableEq ι] in
theorem inv_init : Inv ({} : Trace ι) :=
  ⟨⟨List.nodup_nil, by simp⟩, by simp, by simp⟩

/-- A client that has not written is in no chain, so its next step breaks none. -/
theorem Written.update {c : Trace ι} {chain : List ι} (h : c.Written chain) {i : ι}
    (hi : c.phase i ≠ .finished) (next : Phase ι) :
    ∀ j ∈ chain, Function.update c.phase i next j = .finished := by
  intro j hj
  have hne : j ≠ i := fun he => hi (he ▸ h.2 j hj)
  rw [Function.update_of_ne hne]
  exact h.2 j hj

theorem inv_advance {c : Trace ι} (h : c.Inv) (i : ι) : (c.advance i).Inv := by
  unfold advance
  split
  -- a read: the client now holds a copy of the stored chain
  · rename_i hi
    have hnot : c.phase i ≠ .finished := by simp [hi]
    refine ⟨⟨h.stored.1, h.stored.update hnot _⟩, fun j read hj => ?_, fun j hj => ?_⟩
    · by_cases hji : j = i
      · subst hji
        obtain rfl : c.stored = read := by simpa using hj
        exact ⟨h.stored.1, h.stored.update hnot _⟩
      · have hread := h.holding j read (by simpa [hji] using hj)
        exact ⟨hread.1, hread.update hnot _⟩
    · have hji : j ≠ i := by rintro rfl; simp at hj
      exact h.nonempty j (by simpa [hji] using hj)
  -- a write: the chain it holds, which it is not on itself, is stored with it at the end
  · rename_i held hi
    have hnot : c.phase i ≠ .finished := by simp [hi]
    have hheld := h.holding i held hi
    have hmem : i ∉ held := fun hmem => hnot (hheld.2 i hmem)
    refine ⟨⟨?_, fun j hj => ?_⟩, fun j read hj => ?_, fun _ _ => by simp⟩
    · exact List.concat_eq_append ▸ List.Nodup.concat hmem hheld.1
    · rcases List.mem_append.mp hj with hj | hj
      · exact hheld.update hnot _ j hj
      · rw [List.mem_singleton.mp hj]
        exact Function.update_self ..
    · have hji : j ≠ i := by rintro rfl; simp at hj
      have hread := h.holding j read (by simpa [hji] using hj)
      exact ⟨hread.1, hread.update hnot _⟩
  · exact h

end Trace

/-- The chains after a schedule. -/
def trace (schedule : List ι) : Trace ι := schedule.foldl .advance {}

/-- The clients whose work is stored after a schedule, in the order of their writes. -/
def survivors (schedule : List ι) : List ι := (trace schedule).stored

theorem trace_concat (schedule : List ι) (i : ι) :
    trace (schedule ++ [i]) = (trace schedule).advance i := List.foldl_concat ..

theorem inv_trace (schedule : List ι) : (trace schedule).Inv := by
  induction schedule using List.reverseRecOn with
  | nil => exact Trace.inv_init
  | append_singleton schedule i ih => rw [trace_concat]; exact Trace.inv_advance ih i

theorem survivors_nodup (schedule : List ι) : (survivors schedule).Nodup :=
  (inv_trace schedule).stored.1

theorem survivors_ne_nil {schedule : List ι} {i : ι}
    (h : (trace schedule).phase i = .finished) : survivors schedule ≠ [] :=
  (inv_trace schedule).nonempty i h

/-! ## One client after the other -/

theorem foldl_advance_finished {c : Trace ι} {i : ι} (h : c.phase i = .finished) (n : Nat) :
    (List.replicate n i).foldl .advance c = c := by
  induction n with
  | zero => rfl
  | succ n ih =>
    rw [List.replicate_succ, List.foldl_cons, show c.advance i = c by simp [Trace.advance, h], ih]

/-- A client that reads and writes undisturbed adds itself to the chain. -/
theorem foldl_advance_alone {c : Trace ι} {i : ι} (h : c.phase i = .waiting) (n : Nat) :
    (List.replicate (n + 2) i).foldl .advance c =
      { stored := c.stored ++ [i], phase := Function.update c.phase i .finished } := by
  rw [List.replicate_succ, List.replicate_succ, List.foldl_cons, List.foldl_cons,
    show (c.advance i).advance i =
      { stored := c.stored ++ [i], phase := Function.update c.phase i .finished } by
        simp [Trace.advance, h]]
  exact foldl_advance_finished (by simp) n

/-- Clients that run one after the other, each with its `n + 2` steps, all survive. -/
theorem stored_sequential {n : Nat} :
    ∀ {order : List ι} {c : Trace ι}, order.Nodup → (∀ i ∈ order, c.phase i = .waiting) →
      ((order.flatMap (List.replicate (n + 2))).foldl .advance c).stored = c.stored ++ order
  | [], c, _, _ => by simp
  | i :: order, c, hnodup, hwait => by
    obtain ⟨hi, hnodup⟩ := List.nodup_cons.mp hnodup
    rw [List.flatMap_cons, List.foldl_append,
      foldl_advance_alone (hwait i List.mem_cons_self), stored_sequential hnodup]
    · simp
    · intro j hj
      have hne : j ≠ i := fun he => hi (he ▸ hj)
      simpa [hne] using hwait j (List.mem_cons_of_mem i hj)

theorem survivors_sequential {n : Nat} {order : List ι} (h : order.Nodup) :
    survivors (order.flatMap (List.replicate (n + 2))) = order := by
  rw [survivors, trace, stored_sequential h fun _ _ => rfl]
  rfl

end Rmw
