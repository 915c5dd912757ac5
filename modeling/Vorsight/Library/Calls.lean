/-
  PROGRAMS THAT CALL THE OUTSIDE WORLD, with exceptions and `finally`, and the resources they hold.

  `Prog Reply α` is the behaviour of a program that ends with an `α`, a tree of calls:

  * `call c next fail` — the world answers (`next` sees the answer) or the call throws (`fail`);
  * `tell c next`      — a call that cannot throw and whose answer nobody reads.

  `>>=`, `handle` (a `try`/`catch`) and `ensuring` (a `try`/`finally`) build programs the way the
  source text does.  The world is a function of what has happened so far, so nothing is assumed of
  it; `exec` runs a program against one and gives the events and the result.

  1. **Weakest preconditions** (`Ensures`, sound by `exec_ensures`), with one rule for each way of
     building a program.

  2. **Resources.**  A `Ledger` says which resources a call needs, which an answer opens and which a
     call closes.  `held` goes through the events with a stack: it fails where a resource is used
     that is not open, or closed that is not the last one opened.

  3. **The bracket rule** (`Balanced.bracket`): acquire, use under `finally`, close.  However the calls
     of the body end, what was held before is held after.
-/
import Mathlib.Data.List.Basic

namespace Calls

variable {Call : Type} {Reply : Call → Type} {α β : Type}

/-- What has happened at one call. -/
inductive Event (Reply : Call → Type)
  | answered (c : Call) (r : Reply c)
  | threw (c : Call)
  | told (c : Call)

def Event.call : Event Reply → Call
  | .answered c _ => c
  | .threw c => c
  | .told c => c

/-- How the world answers, after what has happened; `none` is an exception. -/
abbrev World (Reply : Call → Type) := List (Event Reply) → (c : Call) → Option (Reply c)

inductive Prog (Reply : Call → Type) (α : Type) : Type
  | done (a : α)
  | throw
  | call (c : Call) (next : Reply c → Prog Reply α) (fail : Prog Reply α)
  | tell (c : Call) (next : Prog Reply α)

namespace Prog

/-- Sequencing: a throw skips the rest. -/
def bind : Prog Reply α → (α → Prog Reply β) → Prog Reply β
  | .done a, k => k a
  | .throw, _ => .throw
  | .call c next fail, k => .call c (fun r => (next r).bind k) (fail.bind k)
  | .tell c next, k => .tell c (next.bind k)

instance : Monad (Prog Reply) where
  pure := .done
  bind := .bind

/-- `try { p } catch { h }`. -/
def handle : Prog Reply α → Prog Reply α → Prog Reply α
  | .done a, _ => .done a
  | .throw, h => h
  | .call c next fail, h => .call c (fun r => (next r).handle h) (fail.handle h)
  | .tell c next, h => .tell c (next.handle h)

/-- `try { p } finally { cleanup }`: the result of `p`, unless the cleanup throws. -/
def ensuring : Prog Reply α → Prog Reply Unit → Prog Reply α
  | .done a, cleanup => cleanup.bind fun _ => .done a
  | .throw, cleanup => cleanup.bind fun _ => .throw
  | .call c next fail, cleanup => .call c (fun r => (next r).ensuring cleanup) (fail.ensuring cleanup)
  | .tell c next, cleanup => .tell c (next.ensuring cleanup)

/-- A call that is answered or throws. -/
def ask (c : Call) : Prog Reply (Reply c) := .call c .done .throw

/-- A call that cannot throw. -/
def say (c : Call) : Prog Reply Unit := .tell c (.done ())

/-- `if (!acquire(out a)) failed; else try { body(a) } finally { close(a) }`. -/
def bracket (acquire : Prog Reply (Option α)) (close : α → Call) (failed : Prog Reply β)
    (body : α → Prog Reply β) : Prog Reply β := do
  match ← acquire with
  | none => failed
  | some a => (body a).ensuring (say (close a))

/-- What happens after the events `t`, and the result (`none`: an exception). -/
def exec (world : World Reply) : Prog Reply α → List (Event Reply) → List (Event Reply) × Option α
  | .done a, t => (t, some a)
  | .throw, t => (t, none)
  | .call c next fail, t =>
    match world t c with
    | some r => (next r).exec world (t ++ [.answered c r])
    | none => fail.exec world (t ++ [.threw c])
  | .tell c next, t => next.exec world (t ++ [.told c])

/-! ## Weakest preconditions -/

variable {Q Q' : α → List (Event Reply) → Prop} {E E' : List (Event Reply) → Prop}
  {p : Prog Reply α} {t : List (Event Reply)}

/-- However the world answers after the events `t`, the program ends with a value in `Q` or throws
    in `E`. -/
def Ensures (Q : α → List (Event Reply) → Prop) (E : List (Event Reply) → Prop) :
    Prog Reply α → List (Event Reply) → Prop
  | .done a, t => Q a t
  | .throw, t => E t
  | .call c next fail, t =>
    (∀ r, (next r).Ensures Q E (t ++ [.answered c r])) ∧ fail.Ensures Q E (t ++ [.threw c])
  | .tell c next, t => next.Ensures Q E (t ++ [.told c])

/-- **Soundness.** -/
theorem exec_ensures (world : World Reply) :
    ∀ {p : Prog Reply α} {t : List (Event Reply)}, p.Ensures Q E t →
      match p.exec world t with
      | (t', some a) => Q a t'
      | (t', none) => E t'
  | .done _, _, h => h
  | .throw, _, h => h
  | .call c next fail, t, h => by
    rw [exec]
    cases world t c with
    | some r => exact exec_ensures world (h.1 r)
    | none => exact exec_ensures world h.2
  | .tell _ next, _, h => exec_ensures world (p := next) h

theorem Ensures.mono (hQ : ∀ a t, Q a t → Q' a t) (hE : ∀ t, E t → E' t) :
    ∀ {p : Prog Reply α} {t : List (Event Reply)}, p.Ensures Q E t → p.Ensures Q' E' t
  | .done a, t, h => hQ a t h
  | .throw, t, h => hE t h
  | .call _ _ _, _, h => ⟨fun r => (h.1 r).mono hQ hE, h.2.mono hQ hE⟩
  | .tell _ next, _, h => Ensures.mono hQ hE (p := next) h

theorem Ensures.bind {R : β → List (Event Reply) → Prop} {k : α → Prog Reply β}
    (hk : ∀ a t, Q a t → (k a).Ensures R E' t) (hE : ∀ t, E t → E' t) :
    ∀ {p : Prog Reply α} {t : List (Event Reply)}, p.Ensures Q E t → (p >>= k).Ensures R E' t
  | .done a, t, h => hk a t h
  | .throw, t, h => hE t h
  | .call _ _ _, _, h => ⟨fun r => (h.1 r).bind hk hE, h.2.bind hk hE⟩
  | .tell _ next, _, h => Ensures.bind hk hE (p := next) h

theorem Ensures.handle {handler : Prog Reply α} (hhandler : ∀ t, E t → handler.Ensures Q E' t) :
    ∀ {p : Prog Reply α} {t : List (Event Reply)}, p.Ensures Q E t →
      (p.handle handler).Ensures Q E' t
  | .done _, _, h => h
  | .throw, t, h => hhandler t h
  | .call _ _ _, _, h => ⟨fun r => (h.1 r).handle hhandler, h.2.handle hhandler⟩
  | .tell _ next, _, h => Ensures.handle hhandler (p := next) h

theorem Ensures.ensuring {cleanup : Prog Reply Unit}
    (hdone : ∀ a t, Q a t → cleanup.Ensures (fun _ => Q' a) E' t)
    (hthrow : ∀ t, E t → cleanup.Ensures (fun _ => E') E' t) :
    ∀ {p : Prog Reply α} {t : List (Event Reply)}, p.Ensures Q E t →
      (p.ensuring cleanup).Ensures Q' E' t
  | .done a, t, h => (hdone a t h).bind (fun _ _ hQ => hQ) fun _ hE => hE
  | .throw, t, h => (hthrow t h).bind (fun _ _ hE => hE) fun _ hE => hE
  | .call _ _ _, _, h => ⟨fun r => (h.1 r).ensuring hdone hthrow, h.2.ensuring hdone hthrow⟩
  | .tell _ next, _, h => Ensures.ensuring hdone hthrow (p := next) h

theorem ensures_ask {c : Call} {Q : Reply c → List (Event Reply) → Prop} :
    (ask c).Ensures Q E t ↔ (∀ r, Q r (t ++ [.answered c r])) ∧ E (t ++ [.threw c]) := Iff.rfl

theorem ensures_say {c : Call} {Q : Unit → List (Event Reply) → Prop} :
    (say c).Ensures Q E t ↔ Q () (t ++ [.told c]) := Iff.rfl

/-- Acquire, use, close: `R` and `E` do not mind the closing. -/
theorem Ensures.bracket {Q : Option α → List (Event Reply) → Prop} {acquire : Prog Reply (Option α)} {close : α → Call}
    {failed : Prog Reply β} {body : α → Prog Reply β} {R : β → List (Event Reply) → Prop}
    (hfailed : ∀ t, Q none t → failed.Ensures R E t)
    (hbody : ∀ a t, Q (some a) t → (body a).Ensures R E t)
    (hR : ∀ a b t, R b t → R b (t ++ [.told (close a)]))
    (hE : ∀ a t, E t → E (t ++ [.told (close a)])) (h : acquire.Ensures Q E t) :
    (acquire.bracket close failed body).Ensures R E t := by
  refine h.bind (fun r t hr => ?_) fun _ h => h
  cases r with
  | none => exact hfailed t hr
  | some a =>
    refine (hbody a t hr).ensuring (fun b t hb => ?_) fun t ht => ?_
    · exact ensures_say.mpr (hR a b t hb)
    · exact ensures_say.mpr (hE a t ht)

end Prog

/-! ## Resources -/

variable {H : Type} [DecidableEq H]

/-- Which resources a call needs to be open, which its answer opens (the last one first), and which
    one it closes. -/
structure Ledger (Reply : Call → Type) (H : Type) where
  needs : Call → List H
  opens : (c : Call) → Reply c → List H
  closes : Call → Option H

namespace Ledger

variable (L : Ledger Reply H)

/-- What is open after an event. -/
def after (held : List H) (e : Event Reply) : Option (List H) :=
  if ∀ h ∈ L.needs e.call, h ∈ held then
    match e with
    | .answered c r => some (L.opens c r ++ held)
    | .threw _ => some held
    | .told c =>
      match L.closes c with
      | none => some held
      | some h => if held.head? = some h then some held.tail else none
  else none

/-- What is open after the events, the last one opened first; `none` when a resource was used that
    was not open, or closed out of order. -/
def held (t : List (Event Reply)) : Option (List H) := t.foldlM L.after []

variable {L} {t : List (Event Reply)} {st : List H}

theorem held_snoc (h : L.held t = some st) (e : Event Reply) :
    L.held (t ++ [e]) = L.after st e := by
  rw [held, List.foldlM_append, ← held, h]
  exact bind_pure (L.after st e)

/-- An answer opens what it opens. -/
theorem held_answered (c : Call) (h : L.held t = some st) (hneeds : ∀ x ∈ L.needs c, x ∈ st)
    (r : Reply c) : L.held (t ++ [.answered c r]) = some (L.opens c r ++ st) := by
  rw [held_snoc h, after]
  exact if_pos hneeds

/-- A call that throws opens nothing. -/
theorem held_threw (c : Call) (h : L.held t = some st) (hneeds : ∀ x ∈ L.needs c, x ∈ st) :
    L.held (t ++ [.threw c]) = some st := by
  rw [held_snoc h, after]
  exact if_pos hneeds

/-- The last resource opened is closed. -/
theorem held_closed (c : Call) {x : H} (h : L.held t = some (x :: st)) (hneeds : L.needs c = [])
    (hcloses : L.closes c = some x) : L.held (t ++ [.told c]) = some st := by
  rw [held_snoc h, after, if_pos]
  · show (match L.closes c with
      | none => some (x :: st)
      | some h => if (x :: st).head? = some h then some (x :: st).tail else none) = some st
    rw [hcloses]
    exact if_pos rfl
  · intro y hy
    rw [show (Event.told c : Event Reply).call = c from rfl, hneeds] at hy
    cases hy

end Ledger

/-! ### Programs and what they hold -/

variable (L : Ledger Reply H)

/-- With the resources `ctx` open, `p` uses only what is open and leaves `ctx` and what `opened`
    says of its result. -/
def Opens (ctx : List H) (opened : Option α → List H) (p : Prog Reply α) : Prop :=
  ∀ t st, (∀ x ∈ ctx, x ∈ st) → L.held t = some st →
    p.Ensures (fun a t' => L.held t' = some (opened (some a) ++ st))
      (fun t' => L.held t' = some (opened none ++ st)) t

/-- With the resources `ctx` open, `p` uses only what is open and leaves what it has found. -/
def Balanced (ctx : List H) (p : Prog Reply α) : Prop := Opens L ctx (fun _ => []) p

variable {L} {ctx ctx' : List H} {p : Prog Reply α} {opened : Option α → List H}

theorem Opens.weaken (hctx : ∀ x ∈ ctx, x ∈ ctx') (h : Opens L ctx opened p) :
    Opens L ctx' opened p :=
  fun t st hst hheld => h t st (fun x hx => hst x (hctx x hx)) hheld

theorem Opens.congr {opened' : Option α → List H} (h : Opens L ctx opened p)
    (heq : ∀ r, opened r = opened' r) : Opens L ctx opened' p := by
  rw [show opened' = opened from funext fun r => (heq r).symm]
  exact h

theorem Balanced.done (a : α) : Balanced L ctx (.done a) := fun _ _ _ h => h

theorem Balanced.throw : Balanced L ctx (.throw : Prog Reply α) := fun _ _ _ h => h

theorem Opens.ask (c : Call) (hneeds : ∀ x ∈ L.needs c, x ∈ ctx) :
    Opens L ctx (fun r => (r.map (L.opens c)).getD []) (Prog.ask c) := by
  intro t st hst hheld
  have hopen : ∀ x ∈ L.needs c, x ∈ st := fun x hx => hst x (hneeds x hx)
  exact Prog.ensures_ask.mpr
    ⟨fun r => Ledger.held_answered c hheld hopen r, Ledger.held_threw c hheld hopen⟩

/-- A call whose answers open nothing. -/
theorem Balanced.ask (c : Call) (hneeds : ∀ x ∈ L.needs c, x ∈ ctx)
    (hopens : ∀ r, L.opens c r = []) : Balanced L ctx (Prog.ask c) := by
  intro t st hst hheld
  refine (Opens.ask c hneeds t st hst hheld).mono (fun r t' h => ?_) fun t' h => h
  rw [show L.held t' = some (L.opens c r ++ st) from h, hopens]

theorem Balanced.bind {k : α → Prog Reply β} (h : Balanced L ctx p)
    (hk : ∀ a, Balanced L ctx (k a)) : Balanced L ctx (p >>= k) :=
  fun t st hst hheld => (h t st hst hheld).bind (fun a t' ht' => hk a t' st hst ht') fun _ h => h

theorem Balanced.handle {handler : Prog Reply α} (h : Balanced L ctx p)
    (hhandler : Balanced L ctx handler) : Balanced L ctx (p.handle handler) :=
  fun t st hst hheld => (h t st hst hheld).handle fun t' ht' => hhandler t' st hst ht'

theorem Balanced.ensuring {cleanup : Prog Reply Unit} (h : Balanced L ctx p)
    (hcleanup : Balanced L ctx cleanup) : Balanced L ctx (p.ensuring cleanup) :=
  fun t st hst hheld => (h t st hst hheld).ensuring (fun _ t' ht' => hcleanup t' st hst ht')
    fun t' ht' => hcleanup t' st hst ht'

/-- What `p` has opened is there for the rest, which leaves nothing of it. -/
theorem Opens.bind {k : α → Prog Reply β} (h : Opens L ctx opened p) (hthrow : opened none = [])
    (hk : ∀ a t st, (∀ x ∈ ctx, x ∈ st) → L.held t = some (opened (some a) ++ st) →
      (k a).Ensures (fun _ t' => L.held t' = some st) (fun t' => L.held t' = some st) t) :
    Balanced L ctx (p >>= k) := by
  intro t st hst hheld
  refine (h t st hst hheld).bind (fun a t' ht' => hk a t' st hst ht') fun t' ht' => ?_
  rw [show L.held t' = some (opened none ++ st) from ht', hthrow, List.nil_append]

/-- Use under `finally`, then close. -/
theorem Balanced.ensures_closing {x : H} {c : Call} (h : Balanced L (x :: ctx) p)
    (hneeds : L.needs c = []) (hcloses : L.closes c = some x) {t : List (Event Reply)}
    {st : List H} (hst : ∀ y ∈ ctx, y ∈ st) (hheld : L.held t = some (x :: st)) :
    (p.ensuring (Prog.say c)).Ensures (fun _ t' => L.held t' = some st)
      (fun t' => L.held t' = some st) t := by
  have hopen : ∀ y ∈ x :: ctx, y ∈ x :: st := by
    intro y hy
    rcases List.mem_cons.mp hy with rfl | hy
    · exact List.mem_cons_self
    · exact List.mem_cons_of_mem _ (hst y hy)
  refine (h t (x :: st) hopen hheld).ensuring (fun a t' ht' => ?_) fun t' ht' => ?_
  · exact Prog.ensures_say.mpr (Ledger.held_closed c ht' hneeds hcloses)
  · exact Prog.ensures_say.mpr (Ledger.held_closed c ht' hneeds hcloses)

/-- **The bracket rule.**  Where nothing is opened the rest is balanced by itself; where `x` is, the
    rest uses it under `finally` and closes it. -/
theorem Balanced.bracket (resource : α → H) {acquire : Prog Reply (Option α)} {close : α → Call}
    {failed : Prog Reply β} {body : α → Prog Reply β}
    (hopen : Opens L ctx (fun r => r.join.elim [] fun a => [resource a]) acquire)
    (hneeds : ∀ a, L.needs (close a) = [])
    (hcloses : ∀ a, L.closes (close a) = some (resource a)) (hfailed : Balanced L ctx failed)
    (hbody : ∀ a, Balanced L (resource a :: ctx) (body a)) :
    Balanced L ctx (acquire.bracket close failed body) := by
  refine hopen.bind rfl fun r t st hst hheld => ?_
  cases r with
  | none => exact hfailed t st hst hheld
  | some a => exact (hbody a).ensures_closing (hneeds a) (hcloses a) hst hheld

/-- A balanced program that starts with nothing open ends with nothing open. -/
theorem Balanced.held_exec (h : Balanced L [] p) (world : World Reply) :
    L.held (p.exec world []).1 = some [] := by
  have hexec := Prog.exec_ensures world (h [] [] (by simp) rfl)
  generalize p.exec world [] = r at hexec
  obtain ⟨t, _ | a⟩ := r
  · exact hexec
  · exact hexec

end Calls
