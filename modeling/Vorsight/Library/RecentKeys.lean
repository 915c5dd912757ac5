/-
  RECENT KEYS: a filter that lets an event pass unless one with the same key has passed within a
  window of time.  What has passed is kept with its time, and what is older than the window is swept
  out at each call.

  `run` is a run of calls, with what has passed beside what is kept.  By a clock that does not go
  back, what is kept is what has passed within the window (`kept_eq`), so that an event is held back
  exactly when one with its key passed within the window (`seen_iff`); one that is held back leaves
  no trace.
-/
import Mathlib.Data.List.Induction
import Mathlib.Data.List.Nodup

namespace RecentKeys

variable {τ ε κ : Type} (time : τ → Int) (key : ε → κ) (window : Int)

/-- What is kept, without what is older than the window. -/
def sweep (kept : List (κ × τ)) (now : τ) : List (κ × τ) :=
  kept.filter fun entry => ¬ (time now - time entry.2 > window)

/-- The calls that are not older than the window. -/
def within (calls : List (τ × ε)) (now : τ) : List (τ × ε) :=
  calls.filter fun call => time now - time call.1 ≤ window

/-- The clock does not go back. -/
def Forward (calls : List (τ × ε)) : Prop := calls.Pairwise fun a b => time a.1 ≤ time b.1

section sweep

variable {time window} {kept : List (κ × τ)} {calls : List (τ × ε)} {now later : τ} {event : ε}

/-- Sweeping later makes up for having swept before. -/
theorem sweep_sweep (h : time now ≤ time later) :
    sweep time window (sweep time window kept now) later = sweep time window kept later := by
  unfold sweep
  rw [List.filter_filter]
  refine List.filter_congr fun entry _ => ?_
  rw [← Bool.decide_and, decide_eq_decide]
  omega

theorem sweep_append (newer : List (κ × τ)) : sweep time window (kept ++ newer) now =
    sweep time window kept now ++ sweep time window newer now := List.filter_append ..

theorem within_append (newer : List (τ × ε)) : within time window (calls ++ newer) now =
    within time window calls now ++ within time window newer now := List.filter_append ..

theorem sweep_map (key : ε → κ) :
    sweep time window (calls.map fun call => (key call.2, call.1)) now =
      (within time window calls now).map fun call => (key call.2, call.1) := by
  unfold sweep within
  rw [List.filter_map]
  congr 1
  refine List.filter_congr fun call _ => ?_
  show decide (¬ (time now - time call.1 > window)) = decide (time now - time call.1 ≤ window)
  rw [decide_eq_decide]
  omega

theorem forward_concat : Forward time (calls ++ [(now, event)]) ↔
    Forward time calls ∧ ∀ call ∈ calls, time call.1 ≤ time now := by
  simp [Forward, List.pairwise_append]

end sweep

variable [DecidableEq κ]

/-- A call: whether the key is there already, and what is kept then. -/
def see (kept : List (κ × τ)) (now : τ) (event : ε) : Bool × List (κ × τ) :=
  let kept := sweep time window kept now
  if kept.any (·.1 = key event) then (true, kept) else (false, kept ++ [(key event, now)])

/-- A call, with what has passed. -/
def record (s : List (κ × τ) × List (τ × ε)) (call : τ × ε) : List (κ × τ) × List (τ × ε) :=
  let (seen, kept) := see time key window s.1 call.1 call.2
  (kept, if seen then s.2 else s.2 ++ [call])

/-- What is kept and what has passed, after some calls. -/
def run (calls : List (τ × ε)) : List (κ × τ) × List (τ × ε) :=
  calls.foldl (record time key window) ([], [])

variable {time key window} {calls : List (τ × ε)} {kept : List (κ × τ)} {now later : τ} {event : ε}

theorem see_cases (time : τ → Int) (key : ε → κ) (window : Int) (kept : List (κ × τ)) (now : τ)
    (event : ε) :
    ((∃ entry ∈ sweep time window kept now, entry.1 = key event) ∧
      see time key window kept now event = (true, sweep time window kept now)) ∨
    ((∀ entry ∈ sweep time window kept now, entry.1 ≠ key event) ∧
      see time key window kept now event =
        (false, sweep time window kept now ++ [(key event, now)])) := by
  unfold see
  cases hany : (sweep time window kept now).any (·.1 = key event) with
  | true => exact .inl ⟨by simpa using hany, if_pos hany⟩
  | false =>
    refine .inr ⟨by simpa using hany, if_neg ?_⟩
    rw [hany]
    exact Bool.false_ne_true

theorem run_concat : run time key window (calls ++ [(now, event)]) =
    record time key window (run time key window calls) (now, event) := by
  rw [run, List.foldl_append]
  rfl

/-! ## What is kept -/

/-- One call, seen from the sweep that comes after it. -/
theorem sweep_record {s : List (κ × τ) × List (τ × ε)} (h : time now ≤ time later)
    (hs : sweep time window s.1 later =
      (within time window s.2 later).map fun call => (key call.2, call.1)) :
    sweep time window (record time key window s (now, event)).1 later =
      (within time window (record time key window s (now, event)).2 later).map
        fun call => (key call.2, call.1) := by
  unfold record
  rcases see_cases time key window s.1 now event with ⟨-, hsee⟩ | ⟨-, hsee⟩
  · rw [hsee]
    show sweep time window (sweep time window s.1 now) later = _
    rw [sweep_sweep h, hs]
    rfl
  · rw [hsee]
    show sweep time window (sweep time window s.1 now ++ [(key event, now)]) later =
      (within time window (s.2 ++ [(now, event)]) later).map _
    have hnew := @sweep_map _ _ _ time window [(now, event)] later key
    rw [sweep_append, within_append, List.map_append, sweep_sweep h, hs, ← hnew, List.map_singleton]

/-- **What is kept**, as far as it is in the window of a later instant: what has passed in it. -/
theorem sweep_run (hforward : Forward time calls)
    (hnow : ∀ call ∈ calls, time call.1 ≤ time now) :
    sweep time window (run time key window calls).1 now =
      (within time window (run time key window calls).2 now).map
        fun call => (key call.2, call.1) := by
  induction calls using List.reverseRecOn with
  | nil => rfl
  | append_singleton calls call ih =>
    obtain ⟨hforward, hlast⟩ := forward_concat.mp hforward
    rw [run_concat]
    refine sweep_record (hnow call (by simp)) (ih hforward fun earlier hearlier => ?_)
    exact hnow earlier (List.mem_append_left _ hearlier)

/-- **An event is held back** exactly when one with its key has passed within the window. -/
theorem seen_iff (hforward : Forward time (calls ++ [(now, event)])) :
    (see time key window (run time key window calls).1 now event).1 = true ↔
      ∃ call ∈ (run time key window calls).2, key call.2 = key event ∧
        time now - time call.1 ≤ window := by
  obtain ⟨hcalls, hnow⟩ := forward_concat.mp hforward
  have hmem : (∃ entry ∈ sweep time window (run time key window calls).1 now,
      entry.1 = key event) ↔ ∃ call ∈ (run time key window calls).2, key call.2 = key event ∧
        time now - time call.1 ≤ window := by
    rw [sweep_run hcalls hnow]
    constructor
    · rintro ⟨_, hentry, hkey⟩
      obtain ⟨call, hcall, rfl⟩ := List.mem_map.mp hentry
      obtain ⟨hpassed, hin⟩ := List.mem_filter.mp hcall
      exact ⟨call, hpassed, hkey, of_decide_eq_true hin⟩
    · rintro ⟨call, hpassed, hkey, hin⟩
      exact ⟨_, List.mem_map_of_mem (List.mem_filter.mpr ⟨hpassed, decide_eq_true hin⟩), hkey⟩
  rw [← hmem]
  rcases see_cases time key window (run time key window calls).1 now event with
    ⟨hseen, hsee⟩ | ⟨hnew, hsee⟩
  · rw [hsee]
    exact iff_of_true rfl hseen
  · rw [hsee]
    refine iff_of_false Bool.false_ne_true ?_
    rintro ⟨entry, hentry, hkey⟩
    exact hnew entry hentry hkey

/-- **After a call** what is kept is what has passed within the window, the call with it. -/
theorem kept_eq (hwindow : 0 ≤ window) (hforward : Forward time (calls ++ [(now, event)])) :
    (run time key window (calls ++ [(now, event)])).1 =
      (within time window (run time key window (calls ++ [(now, event)])).2 now).map
        fun call => (key call.2, call.1) := by
  obtain ⟨hcalls, hnow⟩ := forward_concat.mp hforward
  have hswept := @sweep_run _ _ _ time key window _ calls now hcalls hnow
  rw [run_concat]
  unfold record
  rcases see_cases time key window (run time key window calls).1 now event with
    ⟨-, hsee⟩ | ⟨-, hsee⟩
  · rw [hsee]
    exact hswept
  · rw [hsee]
    have hself : within time window [(now, event)] now = [(now, event)] :=
      List.filter_eq_self.mpr fun call hcall => by
        rw [List.mem_singleton.mp hcall]
        exact decide_eq_true (show time now - time now ≤ window by omega)
    show sweep time window (run time key window calls).1 now ++ [(key event, now)] =
      (within time window ((run time key window calls).2 ++ [(now, event)]) now).map _
    rw [within_append, List.map_append, hself, hswept]
    rfl

/-- A key is kept once. -/
theorem nodup_keys : ((run time key window calls).1.map (·.1)).Nodup := by
  induction calls using List.reverseRecOn with
  | nil => exact List.nodup_nil
  | append_singleton calls call ih =>
    have hswept : ((sweep time window (run time key window calls).1 call.1).map (·.1)).Nodup :=
      ih.sublist (List.filter_sublist.map _)
    rw [run_concat]
    unfold record
    rcases see_cases time key window (run time key window calls).1 call.1 call.2 with
      ⟨-, hsee⟩ | ⟨hnew, hsee⟩
    · rw [hsee]
      exact hswept
    · rw [hsee, List.map_append, List.nodup_append]
      refine ⟨hswept, List.nodup_singleton _, ?_⟩
      rintro k hk _ hkey rfl
      obtain ⟨entry, hentry, rfl⟩ := List.mem_map.mp hk
      exact hnew entry hentry (List.mem_singleton.mp hkey)

/-- What has passed is part of the calls. -/
theorem passed_sublist : (run time key window calls).2.Sublist calls := by
  induction calls using List.reverseRecOn with
  | nil => exact List.Sublist.refl _
  | append_singleton calls call ih =>
    rw [run_concat]
    show (if (see time key window _ _ _).1 then _ else _ ++ [call]).Sublist _
    split
    · exact ih.trans (List.sublist_append_left _ _)
    · exact ih.append (List.Sublist.refl _)

end RecentKeys
