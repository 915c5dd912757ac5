/-
  RUNS OF A LABELLED STEP FUNCTION, and the induction rules for them.

  A system is a partial step function `step : σ → α → Option σ`: in state `s` the label `a` is
  enabled iff `step s a` is `some s'`.  Every choice a scheduler, a client or the outside world
  makes is in the label, so a list of labels determines the run and a concrete run evaluates.

  Four things are said of a run:

  * `run step s as`          — the state it ends in (`none` when a label was not enabled);
  * `EachStep step Q s as`   — `Q` holds of every step `(state, label, next state)` it takes;
  * `EachState step P s as`  — `P` holds of every state it visits;
  * `Persists step R s as`   — `R` holds between each state and every later one.

  `EachStep` also serves as a GUARD: a condition on the state and the label before the step.  The
  rules below carry an invariant through a run whose steps all meet the guard; `eachState_iff`
  adds the converse, for a property that a step breaking the guard destroys at once.
-/

namespace Runs

variable {σ α : Type}

/-- Execute the labels from left to right. -/
def run (step : σ → α → Option σ) : σ → List α → Option σ
  | s, [] => some s
  | s, a :: as => (step s a).bind fun s' => run step s' as

/-- `Q` holds of every step taken from `s` under the labels. -/
def EachStep (step : σ → α → Option σ) (Q : σ → α → σ → Prop) : σ → List α → Prop
  | _, [] => True
  | s, a :: as => ∀ s', step s a = some s' → Q s a s' ∧ EachStep step Q s' as

/-- `P` holds of `s` and of every state reached from it under the labels. -/
def EachState (step : σ → α → Option σ) (P : σ → Prop) (s : σ) (as : List α) : Prop :=
  P s ∧ EachStep step (fun _ _ s' => P s') s as

/-- `s` is reached from `init` by some run. -/
def Reachable (step : σ → α → Option σ) (init s : σ) : Prop :=
  ∃ as, run step init as = some s

variable {step : σ → α → Option σ}

@[simp] theorem run_nil (s : σ) : run step s [] = some s := rfl

@[simp] theorem run_cons (s : σ) (a : α) (as : List α) :
    run step s (a :: as) = (step s a).bind fun s' => run step s' as := rfl

/-- A run that takes `a` first takes an enabled step and then runs on. -/
theorem run_cons_eq_some {s s'' : σ} {a : α} {as : List α} :
    run step s (a :: as) = some s'' ↔ ∃ s', step s a = some s' ∧ run step s' as = some s'' := by
  rw [run_cons, Option.bind_eq_some_iff]

theorem run_append (s : σ) (as bs : List α) :
    run step s (as ++ bs) = (run step s as).bind fun s' => run step s' bs := by
  induction as generalizing s with
  | nil => rfl
  | cons a as ih =>
    rw [List.cons_append, run_cons, run_cons]
    cases hs : step s a with
    | none => rfl
    | some s' => exact ih s'

theorem run_append_eq_some {s s'' : σ} {as bs : List α} :
    run step s (as ++ bs) = some s'' ↔
      ∃ s', run step s as = some s' ∧ run step s' bs = some s'' := by
  rw [run_append, Option.bind_eq_some_iff]

/-! ## Properties of each step -/

instance EachStep.decidable {Q : σ → α → σ → Prop} [∀ s a s', Decidable (Q s a s')] :
    ∀ (s : σ) (as : List α), Decidable (EachStep step Q s as)
  | _, [] => .isTrue trivial
  | s, a :: as =>
    match hs : step s a with
    | none => .isTrue fun s' hs' => by
      rw [hs] at hs'
      cases hs'
    | some m =>
      have := EachStep.decidable (Q := Q) m as
      decidable_of_iff (Q s a m ∧ EachStep step Q m as)
        ⟨fun h s' hs' => Option.some.inj (hs.symm.trans hs') ▸ h, fun h => h m hs⟩

theorem EachStep.imp {Q Q' : σ → α → σ → Prop} (h : ∀ s a s', Q s a s' → Q' s a s') :
    ∀ {s : σ} {as : List α}, EachStep step Q s as → EachStep step Q' s as
  | _, [], _ => trivial
  | _, _ :: _, hs => fun s' hstep => ⟨h _ _ _ (hs s' hstep).1, (hs s' hstep).2.imp h⟩

theorem EachStep.and {Q Q' : σ → α → σ → Prop} :
    ∀ {s : σ} {as : List α}, EachStep step Q s as → EachStep step Q' s as →
      EachStep step (fun s a s' => Q s a s' ∧ Q' s a s') s as
  | _, [], _, _ => trivial
  | _, _ :: _, h, h' => fun s' hstep =>
    ⟨⟨(h s' hstep).1, (h' s' hstep).1⟩, (h s' hstep).2.and (h' s' hstep).2⟩

/-- A property of every state is inherited by the state the run ends in. -/
theorem EachState.last {P : σ → Prop} :
    ∀ {as : List α} {s s' : σ}, EachState step P s as → run step s as = some s' → P s'
  | [], _, _, h, hr => Option.some.inj hr ▸ h.1
  | _ :: _, _, _, h, hr => by
    obtain ⟨m, hm, hr'⟩ := run_cons_eq_some.mp hr
    exact EachState.last ⟨(h.2 m hm).1, (h.2 m hm).2⟩ hr'

theorem eachStep_append {Q : σ → α → σ → Prop} {bs : List α} : ∀ {as : List α} {s : σ},
    EachStep step Q s (as ++ bs) ↔
      EachStep step Q s as ∧ ∀ m, run step s as = some m → EachStep step Q m bs
  | [], s => by
    constructor
    · rintro h
      refine ⟨trivial, fun m hm => ?_⟩
      cases hm
      exact h
    · rintro ⟨-, h⟩
      exact h s rfl
  | a :: as, s => by
    rw [List.cons_append]
    constructor
    · intro h
      refine ⟨fun m hm => ⟨(h m hm).1, (eachStep_append.mp (h m hm).2).1⟩, fun m' hm' => ?_⟩
      obtain ⟨m, hm, hr⟩ := run_cons_eq_some.mp hm'
      exact (eachStep_append.mp (h m hm).2).2 m' hr
    · rintro ⟨hfirst, hrest⟩ m hm
      refine ⟨(hfirst m hm).1, eachStep_append.mpr ⟨(hfirst m hm).2, fun m' hm' => ?_⟩⟩
      exact hrest m' (run_cons_eq_some.mpr ⟨m, hm, hm'⟩)

/-! ## Earlier and later states -/

/-- `R` holds between any state of the run and any later one. -/
def Persists (step : σ → α → Option σ) (R : σ → σ → Prop) (s : σ) (as : List α) : Prop :=
  ∀ bs cs ds m m', as = bs ++ cs ++ ds → run step s bs = some m → run step m cs = some m' → R m m'

section Persists

variable {R : σ → σ → Prop}

/-- What each step keeps is kept from the first state to the last. -/
theorem rel_of_run (hrefl : ∀ s, R s s) (htrans : ∀ s m s', R s m → R m s' → R s s') :
    ∀ {as : List α} {s s' : σ}, EachStep step (fun s _ s' => R s s') s as →
      run step s as = some s' → R s s'
  | [], s, _, _, hr => by
    cases hr
    exact hrefl s
  | _ :: _, s, s', h, hr => by
    obtain ⟨m, hm, hr'⟩ := run_cons_eq_some.mp hr
    exact htrans s m s' (h m hm).1 (rel_of_run hrefl htrans (h m hm).2 hr')

/-- **A preorder** relates earlier to later states exactly when every step goes along it. -/
theorem persists_iff (hrefl : ∀ s, R s s) (htrans : ∀ s m s', R s m → R m s' → R s s')
    {as : List α} {s : σ} :
    Persists step R s as ↔ EachStep step (fun s _ s' => R s s') s as := by
  constructor
  · intro h
    induction as generalizing s with
    | nil => trivial
    | cons a as ih =>
      intro m hm
      refine ⟨h [] [a] as s m rfl rfl ?_, ih ?_⟩
      · rw [run_cons, hm]
        rfl
      · intro bs cs ds m' m'' has hr hr'
        refine h (a :: bs) cs ds m' m'' ?_ (run_cons_eq_some.mpr ⟨m, hm, hr⟩) hr'
        rw [has]
        rfl
  · rintro h bs cs ds m m' rfl hr hr'
    rw [List.append_assoc] at h
    have hlater := (eachStep_append.mp h).2 m hr
    exact rel_of_run hrefl htrans (eachStep_append.mp hlater).1 hr'

end Persists

/-! ## Carrying an invariant through a run -/

variable {I P : σ → Prop} {G : σ → α → Prop} {Q : σ → α → σ → Prop}

/-- **The run rule.**  An invariant that every guarded step keeps holds where a guarded run
    ends. -/
theorem inv_of_guard (hkeep : ∀ s a s', I s → G s a → step s a = some s' → I s') :
    ∀ {as : List α} {s s' : σ}, I s → EachStep step (fun s a _ => G s a) s as →
      run step s as = some s' → I s'
  | [], _, _, hi, _, hr => Option.some.inj hr ▸ hi
  | _ :: _, s, _, hi, hg, hr => by
    obtain ⟨m, hm, hr'⟩ := run_cons_eq_some.mp hr
    exact inv_of_guard hkeep (hkeep s _ m hi (hg m hm).1 hm) (hg m hm).2 hr'

/-- The run rule without a guard. -/
theorem inv_of_run (hkeep : ∀ s a s', I s → step s a = some s' → I s') {as : List α} {s s' : σ}
    (hi : I s) (hr : run step s as = some s') : I s' :=
  inv_of_guard (G := fun _ _ => True) (fun s a m h _ hs => hkeep s a m h hs) hi
    (unguarded as s) hr
where
  unguarded : ∀ (as : List α) (s : σ), EachStep step (fun _ _ _ => True) s as
    | [], _ => trivial
    | _ :: as, _ => fun m _ => ⟨trivial, unguarded as m⟩

/-- **A measure that every guarded step lowers** bounds the length of a guarded run. -/
theorem length_add_le {μ : σ → Nat} (hkeep : ∀ s a s', I s → G s a → step s a = some s' → I s')
    (hlt : ∀ s a s', I s → G s a → step s a = some s' → μ s' < μ s) :
    ∀ {as : List α} {s s' : σ}, I s → EachStep step (fun s a _ => G s a) s as →
      run step s as = some s' → as.length + μ s' ≤ μ s
  | [], _, _, _, _, hr => by
    cases hr
    simp
  | _ :: as, s, _, hi, hg, hr => by
    obtain ⟨m, hm, hr'⟩ := run_cons_eq_some.mp hr
    have hrest := length_add_le hkeep hlt (hkeep s _ m hi (hg m hm).1 hm) (hg m hm).2 hr'
    have hstep := hlt s _ m hi (hg m hm).1 hm
    rw [List.length_cons]
    omega

/-- What a guarded step from an invariant state establishes holds of every step of a guarded
    run. -/
theorem eachStep_of_guard (hkeep : ∀ s a s', I s → G s a → step s a = some s' → I s')
    (hQ : ∀ s a s', I s → G s a → step s a = some s' → Q s a s') :
    ∀ {as : List α} {s : σ}, I s → EachStep step (fun s a _ => G s a) s as →
      EachStep step Q s as
  | [], _, _, _ => trivial
  | _ :: _, s, hi, hg => fun m hm =>
    ⟨hQ s _ m hi (hg m hm).1 hm,
      eachStep_of_guard hkeep hQ (hkeep s _ m hi (hg m hm).1 hm) (hg m hm).2⟩

/-- What every step from an invariant state establishes holds of every step of every run. -/
theorem eachStep_of_inv (hkeep : ∀ s a s', I s → step s a = some s' → I s')
    (hQ : ∀ s a s', I s → step s a = some s' → Q s a s') :
    ∀ {as : List α} {s : σ}, I s → EachStep step Q s as
  | [], _, _ => trivial
  | _ :: _, s, hi => fun m hm =>
    ⟨hQ s _ m hi hm, eachStep_of_inv hkeep hQ (hkeep s _ m hi hm)⟩

/-- A step property that, from invariant states and under the assumption `H`, says the same as the
    guard: where `H` holds of every step of a run, the property does iff the guard does. -/
theorem eachStep_iff_of {H : σ → α → Prop}
    (hkeep : ∀ s a s', I s → H s a → G s a → step s a = some s' → I s')
    (hQ : ∀ s a s', I s → H s a → step s a = some s' → (Q s a s' ↔ G s a)) :
    ∀ {as : List α} {s : σ}, I s → EachStep step (fun s a _ => H s a) s as →
      (EachStep step Q s as ↔ EachStep step (fun s a _ => G s a) s as)
  | [], _, _, _ => Iff.rfl
  | _ :: _, s, hi, hH => by
    constructor
    · intro h m hm
      obtain ⟨hHs, hHm⟩ := hH m hm
      have hg := (hQ s _ m hi hHs hm).mp (h m hm).1
      exact ⟨hg, (eachStep_iff_of hkeep hQ (hkeep s _ m hi hHs hg hm) hHm).mp (h m hm).2⟩
    · intro h m hm
      obtain ⟨hHs, hHm⟩ := hH m hm
      have hi' := hkeep s _ m hi hHs (h m hm).1 hm
      exact ⟨(hQ s _ m hi hHs hm).mpr (h m hm).1,
        (eachStep_iff_of hkeep hQ hi' hHm).mpr (h m hm).2⟩

/-- The same without an assumption. -/
theorem eachStep_iff (hkeep : ∀ s a s', I s → G s a → step s a = some s' → I s')
    (hQ : ∀ s a s', I s → step s a = some s' → (Q s a s' ↔ G s a)) {as : List α} {s : σ}
    (hi : I s) : EachStep step Q s as ↔ EachStep step (fun s a _ => G s a) s as :=
  eachStep_iff_of (H := fun _ _ => True) (fun s a s' hi _ hg hs => hkeep s a s' hi hg hs)
    (fun s a s' hi _ hs => hQ s a s' hi hs) hi (inv_of_run.unguarded as s)

/-- **Two modes.**  Guarded steps keep the first mode, a step that breaks the guard leaves it for
    the second, and that is never left: a run whose steps all meet the guard ends in the first mode,
    and any other in the second. -/
theorem mode_of_run {J : σ → Prop} (hkeep : ∀ s a s', I s → G s a → step s a = some s' → I s')
    (hleave : ∀ s a s', I s → ¬ G s a → step s a = some s' → J s')
    (hstay : ∀ s a s', J s → step s a = some s' → J s') :
    ∀ {as : List α} {s s' : σ}, I s → run step s as = some s' →
      (EachStep step (fun s a _ => G s a) s as ∧ I s') ∨
        (¬ EachStep step (fun s a _ => G s a) s as ∧ J s')
  | [], _, _, hi, hr => .inl ⟨trivial, Option.some.inj hr ▸ hi⟩
  | a :: as, s, s', hi, hr => by
    obtain ⟨m, hm, hr'⟩ := run_cons_eq_some.mp hr
    by_cases hg : G s a
    · rcases mode_of_run hkeep hleave hstay (hkeep s a m hi hg hm) hr' with ⟨hall, hend⟩ |
        ⟨hnot, hend⟩
      · refine .inl ⟨fun m' hm' => ⟨hg, ?_⟩, hend⟩
        cases hm.symm.trans hm'
        exact hall
      · exact .inr ⟨fun h => hnot (h m hm).2, hend⟩
    · refine .inr ⟨fun h => hg (h m hm).1, ?_⟩
      exact inv_of_run hstay (hleave s a m hi hg hm) hr'

/-- **The exact guard.**  If guarded steps keep the invariant, the invariant gives `P`, and a step
    that breaks the guard leaves a state without `P`, then `P` holds throughout a run iff every
    step of it meets the guard. -/
theorem eachState_iff (hkeep : ∀ s a s', I s → G s a → step s a = some s' → I s')
    (hP : ∀ s, I s → P s) (hbreak : ∀ s a s', I s → ¬ G s a → step s a = some s' → ¬ P s')
    {as : List α} {s : σ} (hi : I s) :
    EachState step P s as ↔ EachStep step (fun s a _ => G s a) s as := by
  have hQ : ∀ s a s', I s → step s a = some s' → (P s' ↔ G s a) := by
    intro s a s' hi hs
    refine ⟨fun hp => ?_, fun hg => hP s' (hkeep s a s' hi hg hs)⟩
    by_cases hg : G s a
    · exact hg
    · exact absurd hp (hbreak s a s' hi hg hs)
  constructor
  · intro h
    exact (eachStep_iff hkeep hQ hi).mp h.2
  · intro h
    exact ⟨hP s hi, (eachStep_iff hkeep hQ hi).mpr h⟩

/-! ## What can still be reached -/

section Reach

variable {A B : α → Prop} {P Q : σ → Prop} {s s' : σ} {a : α}

/-- Steps with labels in `A` can lead from `s` to a state with `P`. -/
def CanReach (step : σ → α → Option σ) (A : α → Prop) (P : σ → Prop) (s : σ) : Prop :=
  ∃ as s', (∀ a ∈ as, A a) ∧ run step s as = some s' ∧ P s'

theorem CanReach.here (h : P s) : CanReach step A P s := ⟨[], s, by simp, rfl, h⟩

theorem CanReach.cons (ha : A a) (hs : step s a = some s') (h : CanReach step A P s') :
    CanReach step A P s := by
  obtain ⟨as, s'', hlabels, hr, hP⟩ := h
  refine ⟨a :: as, s'', ?_, run_cons_eq_some.mpr ⟨s', hs, hr⟩, hP⟩
  intro b hb
  rcases List.mem_cons.mp hb with rfl | hb
  · exact ha
  · exact hlabels b hb

theorem CanReach.trans (h : CanReach step A P s) (hQ : ∀ s', P s' → CanReach step A Q s') :
    CanReach step A Q s := by
  obtain ⟨as, s', hlabels, hr, hP⟩ := h
  obtain ⟨bs, s'', hlabels', hr', hQ'⟩ := hQ s' hP
  refine ⟨as ++ bs, s'', ?_, run_append_eq_some.mpr ⟨s', hr, hr'⟩, hQ'⟩
  intro b hb
  rcases List.mem_append.mp hb with hb | hb
  · exact hlabels b hb
  · exact hlabels' b hb

theorem CanReach.mono (hA : ∀ a, A a → B a) (h : CanReach step A P s) : CanReach step B P s := by
  obtain ⟨as, s', hlabels, hr, hP⟩ := h
  exact ⟨as, s', fun a ha => hA a (hlabels a ha), hr, hP⟩

/-- The labels of a run, seen from its steps. -/
theorem eachStep_of_labels : ∀ {as : List α} {s : σ}, (∀ a ∈ as, A a) →
    EachStep step (fun _ a _ => A a) s as
  | [], _, _ => trivial
  | _ :: _, _, h => fun _ _ => ⟨h _ List.mem_cons_self,
    eachStep_of_labels fun b hb => h b (List.mem_cons_of_mem _ hb)⟩

/-- **What cannot be reached any more**: an invariant without `P` keeps it away. -/
theorem not_canReach {I : σ → Prop} (hkeep : ∀ s a s', I s → A a → step s a = some s' → I s')
    (hP : ∀ s, I s → ¬ P s) (hi : I s) : ¬ CanReach step A P s := by
  rintro ⟨as, s', hlabels, hr, hPs'⟩
  exact hP s' (inv_of_guard hkeep hi (eachStep_of_labels hlabels) hr) hPs'

end Reach

end Runs
