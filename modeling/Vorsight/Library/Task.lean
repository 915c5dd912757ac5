/-
  ASYNCHRONOUS TASKS OVER A SHARED STORE, and rely/guarantee reasoning about their interleavings.

  `Task σ α` is the behaviour of an async function, a tree of atomic steps on a store `σ`:

  * `await upd next fail` — one operation of the store.  It changes the store by `upd` and goes on
    with what it has read (`next` sees the store the operation met), or with `fail` when the
    operation itself fails;
  * `act upd next`        — the same for code between two awaits, which cannot fail.

  `>>=` and `handle` (a `try`/`catch`) build tasks the way the source text does.

  `Pool` runs any number of tasks over one store: each label spawns a task, advances one, lets an
  operation of one fail, or changes the store from outside.

  **Rely/guarantee.**  `Guar R G Q E p s` says: whatever `R`-changes the others make to the store
  between its own steps, each step of `p`, started in `s`, is a `G`-change; it ends with a value
  in `Q` or throws in a store in `E`.  It is built along the text of a task (`Guar.bind`,
  `Guar.handle`, `Guar.op`, …), never by looking at the interleavings.  `Pool.inv_step` then
  carries it through every interleaving of tasks whose guarantees the others rely on.  `First` is
  the same for a task that is about to take its first step: it may use what is known of the store
  at that moment only.

  **Protocols.**  `Follows J T Q E p a` says: from phase `a` on, each step `p` takes in a store with
  `J` is a `T`-step to another phase; it ends with a value in a phase in `Q`, or throws in a phase
  in `E`.  A phase can hold what the task has read, so a protocol of a few phases stands for a
  handler of many lines.
-/

namespace Tasks

/-- An async function's behaviour over a store `σ`, with result type `α`. -/
inductive Task (σ α : Type) : Type
  | done (a : α)
  | throw
  | await (upd : σ → σ) (next : σ → Task σ α) (fail : Task σ α)
  | act (upd : σ → σ) (next : σ → Task σ α)

namespace Task

variable {σ α β : Type}

/-- Sequencing: `k` runs on the value `p` ends with; a throw skips it. -/
def bind : Task σ α → (α → Task σ β) → Task σ β
  | .done a, k => k a
  | .throw, _ => .throw
  | .await upd next fail, k => .await upd (fun s => (next s).bind k) (fail.bind k)
  | .act upd next, k => .act upd (fun s => (next s).bind k)

instance : Monad (Task σ) where
  pure := .done
  bind := .bind

/-- `try { p } catch { h }`. -/
def handle : Task σ α → Task σ α → Task σ α
  | .done a, _ => .done a
  | .throw, h => h
  | .await upd next fail, h => .await upd (fun s => (next s).handle h) (fail.handle h)
  | .act upd next, h => .act upd (fun s => (next s).handle h)

/-- One operation of the store: `f` gives the changed store and the result, or `none` when the
    operation rejects its arguments and leaves the store alone. -/
def op (f : σ → Option (σ × α)) : Task σ α :=
  .await (fun s => ((f s).map Prod.fst).getD s)
    (fun s => match f s with | some (_, a) => .done a | none => .throw) .throw

/-- An operation that only reads. -/
def query (read : σ → α) : Task σ α := op fun s => some (s, read s)

/-- A value that is there, or a thrown error. -/
def get : Option α → Task σ α
  | some a => .done a
  | none => .throw

/-- Synchronous code that changes the store. -/
def effect (upd : σ → σ) : Task σ Unit := .act upd fun _ => .done ()

/-- Synchronous code that looks at the store. -/
def look (read : σ → α) : Task σ α := .act id fun s => .done (read s)

/-- Run a task alone, without failures: the store and the value it ends with. -/
def exec : Task σ α → σ → σ × Option α
  | .done a, s => (s, some a)
  | .throw, s => (s, none)
  | .await upd next _, s => (next s).exec (upd s)
  | .act upd next, s => (next s).exec (upd s)

@[simp] theorem pure_eq (a : α) : (pure a : Task σ α) = .done a := rfl

@[simp] theorem done_bind (a : α) (k : α → Task σ β) : (Task.done a >>= k) = k a := rfl

@[simp] theorem throw_bind (k : α → Task σ β) : (Task.throw >>= k) = .throw := rfl

@[simp] theorem await_bind (upd : σ → σ) (next : σ → Task σ α) (fail : Task σ α)
    (k : α → Task σ β) :
    (Task.await upd next fail >>= k) = .await upd (fun s => next s >>= k) (fail >>= k) := rfl

@[simp] theorem act_bind (upd : σ → σ) (next : σ → Task σ α) (k : α → Task σ β) :
    (Task.act upd next >>= k) = .act upd (fun s => next s >>= k) := rfl

theorem bind_assoc {γ : Type} (f : α → Task σ β) (k : β → Task σ γ) :
    ∀ p : Task σ α, ((p >>= f) >>= k) = p >>= fun a => f a >>= k
  | .done _ => rfl
  | .throw => rfl
  | .await upd next fail => by
    rw [await_bind, await_bind, await_bind, bind_assoc f k fail]
    exact congrArg (Task.await upd · _) (funext fun s => bind_assoc f k (next s))
  | .act upd next => by
    rw [act_bind, act_bind, act_bind]
    exact congrArg (Task.act upd) (funext fun s => bind_assoc f k (next s))

@[simp] theorem exec_done (a : α) (s : σ) : (Task.done a).exec s = (s, some a) := rfl

@[simp] theorem exec_throw (s : σ) : (Task.throw : Task σ α).exec s = (s, none) := rfl

/-- A task run alone runs its parts one after the other. -/
theorem exec_bind (k : α → Task σ β) :
    ∀ (p : Task σ α) (s : σ), (p >>= k).exec s =
      match (p.exec s).2 with
      | some a => (k a).exec (p.exec s).1
      | none => ((p.exec s).1, none)
  | .done _, _ => rfl
  | .throw, _ => rfl
  | .await upd next _, s => exec_bind k (next s) (upd s)
  | .act upd next, s => exec_bind k (next s) (upd s)

/-- A part that ends with a value is followed by the rest. -/
theorem exec_bind_of {p : Task σ α} {k : α → Task σ β} {s s' : σ} {a : α}
    (h : p.exec s = (s', some a)) : (p >>= k).exec s = (k a).exec s' := by
  rw [exec_bind, h]

theorem exec_handle (h : Task σ α) :
    ∀ (p : Task σ α) (s : σ), (p.handle h).exec s =
      match (p.exec s).2 with
      | some a => ((p.exec s).1, some a)
      | none => h.exec (p.exec s).1
  | .done _, _ => rfl
  | .throw, _ => rfl
  | .await upd next _, s => exec_handle h (next s) (upd s)
  | .act upd next, s => exec_handle h (next s) (upd s)

/-- An error that is only logged leaves the store as it was when it was thrown. -/
theorem exec_handle_done (p : Task σ α) (a : α) (s : σ) :
    ((p.handle (.done a)).exec s).1 = (p.exec s).1 := by
  rw [exec_handle]
  split <;> rfl

theorem exec_op (f : σ → Option (σ × α)) (s : σ) :
    (op f).exec s = match f s with
      | some (s', a) => (s', some a)
      | none => (s, none) := by
  simp only [op, exec]
  cases f s <;> rfl

@[simp] theorem exec_query (read : σ → α) (s : σ) : (query read).exec s = (s, some (read s)) := rfl

@[simp] theorem get_some (a : α) : (get (some a) : Task σ α) = .done a := rfl

@[simp] theorem get_none : (get none : Task σ α) = .throw := rfl

@[simp] theorem exec_effect (upd : σ → σ) (s : σ) : (effect upd).exec s = (upd s, some ()) := rfl

@[simp] theorem exec_look (read : σ → α) (s : σ) : (look read).exec s = (s, some (read s)) := rfl

/-! ## Operations that fail

`execFaulty` runs a task alone; the list says of one operation after the other whether it fails,
and none fails after its end.  What is left of the list is part of the result. -/

/-- See above. -/
def execFaulty : Task σ α → List Bool × σ → (List Bool × σ) × Option α
  | .done a, r => (r, some a)
  | .throw, r => (r, none)
  | .await upd next _, ([], s) => (next s).execFaulty ([], upd s)
  | .await upd next _, (false :: faults, s) => (next s).execFaulty (faults, upd s)
  | .await _ _ fail, (true :: faults, s) => fail.execFaulty (faults, s)
  | .act upd next, (faults, s) => (next s).execFaulty (faults, upd s)

theorem execFaulty_bind (k : α → Task σ β) :
    ∀ (p : Task σ α) (r : List Bool × σ), (p >>= k).execFaulty r =
      match (p.execFaulty r).2 with
      | some a => (k a).execFaulty (p.execFaulty r).1
      | none => ((p.execFaulty r).1, none)
  | .done _, _ => rfl
  | .throw, _ => rfl
  | .await upd next _, ([], s) => execFaulty_bind k (next s) ([], upd s)
  | .await upd next _, (false :: faults, s) => execFaulty_bind k (next s) (faults, upd s)
  | .await _ _ fail, (true :: faults, s) => execFaulty_bind k fail (faults, s)
  | .act upd next, (faults, s) => execFaulty_bind k (next s) (faults, upd s)

/-- The first operation of a task fails, or it is carried out. -/
theorem execFaulty_op_bind (f : σ → Option (σ × α)) (k : α → Task σ β) (faults : List Bool)
    (s : σ) : (op f >>= k).execFaulty (faults, s) =
      if faults.headD false then ((faults.tail, s), none)
      else match f s with
        | some (s', a) => (k a).execFaulty (faults.tail, s')
        | none => ((faults.tail, s), none) := by
  rw [execFaulty_bind]
  match faults with
  | [] => cases hf : f s <;> simp [op, execFaulty, hf]
  | false :: faults => cases hf : f s <;> simp [op, execFaulty, hf]
  | true :: faults => rfl

/-- Without faults this is `exec`. -/
theorem execFaulty_nil : ∀ (p : Task σ α) (s : σ),
    p.execFaulty ([], s) = (([], (p.exec s).1), (p.exec s).2)
  | .done _, _ => rfl
  | .throw, _ => rfl
  | .await upd next _, s => execFaulty_nil (next s) (upd s)
  | .act upd next, s => execFaulty_nil (next s) (upd s)

/-! ## Rely/guarantee triples -/

variable (R G : σ → σ → Prop)

/-- See the header: under `R`-interference every step of the task is a `G`-change; it ends with a
    value in `Q` or throws in `E`. -/
def Guar (Q : α → σ → Prop) (E : σ → Prop) : Task σ α → σ → Prop
  | .done a, s => ∀ s', R s s' → Q a s'
  | .throw, s => ∀ s', R s s' → E s'
  | .await upd next fail, s =>
      (∀ s', R s s' → G s' (upd s') ∧ (next s').Guar Q E (upd s')) ∧ fail.Guar Q E s
  | .act upd next, s => ∀ s', R s s' → G s' (upd s') ∧ (next s').Guar Q E (upd s')

variable {R G} {Q Q' : α → σ → Prop} {E E' : σ → Prop}

/-- Interference does not break a triple. -/
theorem Guar.stable (htrans : ∀ a b c, R a b → R b c → R a c) :
    ∀ {p : Task σ α} {s t : σ}, p.Guar R G Q E s → R s t → p.Guar R G Q E t
  | .done _, _, _, h, hst => fun s' hs' => h s' (htrans _ _ _ hst hs')
  | .throw, _, _, h, hst => fun s' hs' => h s' (htrans _ _ _ hst hs')
  | .await _ _ _, _, _, h, hst =>
    ⟨fun s' hs' => h.1 s' (htrans _ _ _ hst hs'), Guar.stable htrans h.2 hst⟩
  | .act _ _, _, _, h, hst => fun s' hs' => h s' (htrans _ _ _ hst hs')

theorem Guar.mono (hQ : ∀ a s, Q a s → Q' a s) (hE : ∀ s, E s → E' s) :
    ∀ {p : Task σ α} {s : σ}, p.Guar R G Q E s → p.Guar R G Q' E' s
  | .done _, _, h => fun s' hs' => hQ _ s' (h s' hs')
  | .throw, _, h => fun s' hs' => hE s' (h s' hs')
  | .await _ _ _, _, h =>
    ⟨fun s' hs' => ⟨(h.1 s' hs').1, (h.1 s' hs').2.mono hQ hE⟩, h.2.mono hQ hE⟩
  | .act _ _, _, h => fun s' hs' => ⟨(h s' hs').1, (h s' hs').2.mono hQ hE⟩

/-- **The rule of consequence.**  Where the others do less, and where a condition `J` that nobody
    breaks turns each change of the task into a `G'`-change. -/
theorem Guar.weaken {R' G' : σ → σ → Prop} {J : σ → Prop} (hR : ∀ a b, R' a b → R a b)
    (hJR : ∀ a b, J a → R' a b → J b) (hJG : ∀ a b, J a → G a b → J b)
    (hG : ∀ a b, J a → G a b → G' a b) :
    ∀ {p : Task σ α} {s : σ}, J s → p.Guar R G Q E s → p.Guar R' G' Q E s
  | .done _, s, _, h => fun s' hs' => h s' (hR s s' hs')
  | .throw, s, _, h => fun s' hs' => h s' (hR s s' hs')
  | .await upd next fail, s, hJ, h => by
    refine ⟨fun s' hs' => ?_, Guar.weaken hR hJR hJG hG hJ h.2⟩
    obtain ⟨hstep, hnext⟩ := h.1 s' (hR s s' hs')
    have hJ' : J s' := hJR s s' hJ hs'
    exact ⟨hG s' _ hJ' hstep, Guar.weaken hR hJR hJG hG (hJG s' _ hJ' hstep) hnext⟩
  | .act upd next, s, hJ, h => by
    intro s' hs'
    obtain ⟨hstep, hnext⟩ := h s' (hR s s' hs')
    have hJ' : J s' := hJR s s' hJ hs'
    exact ⟨hG s' _ hJ' hstep, Guar.weaken hR hJR hJG hG (hJG s' _ hJ' hstep) hnext⟩

/-- The rule for `let a ← p; k a`: what `p` ends with is what `k` starts from. -/
theorem Guar.bind (hrefl : ∀ s, R s s) {k : α → Task σ β} {Q' : β → σ → Prop}
    (hk : ∀ a s, Q a s → (k a).Guar R G Q' E s) :
    ∀ {p : Task σ α} {s : σ}, p.Guar R G Q E s → (p >>= k).Guar R G Q' E s
  | .done _, s, h => hk _ s (h s (hrefl s))
  | .throw, _, h => h
  | .await _ _ _, _, h =>
    ⟨fun s' hs' => ⟨(h.1 s' hs').1, Guar.bind hrefl hk (h.1 s' hs').2⟩, Guar.bind hrefl hk h.2⟩
  | .act _ _, _, h => fun s' hs' => ⟨(h s' hs').1, Guar.bind hrefl hk (h s' hs').2⟩

/-- The rule for `try { p } catch { h }`. -/
theorem Guar.handle (hrefl : ∀ s, R s s) {c : Task σ α} (hc : ∀ s, E s → c.Guar R G Q E' s) :
    ∀ {p : Task σ α} {s : σ}, p.Guar R G Q E s → (p.handle c).Guar R G Q E' s
  | .done _, _, h => h
  | .throw, s, h => hc s (h s (hrefl s))
  | .await _ _ _, _, h =>
    ⟨fun s' hs' => ⟨(h.1 s' hs').1, Guar.handle hrefl hc (h.1 s' hs').2⟩,
      Guar.handle hrefl hc h.2⟩
  | .act _ _, _, h => fun s' hs' => ⟨(h s' hs').1, Guar.handle hrefl hc (h s' hs').2⟩

theorem Guar.done {a : α} {s : σ} (h : ∀ s', R s s' → Q a s') : (Task.done a).Guar R G Q E s := h

theorem Guar.throw {s : σ} (h : ∀ s', R s s' → E s') : (Task.throw : Task σ α).Guar R G Q E s := h

/-- The rule for one operation of the store. -/
theorem Guar.op {f : σ → Option (σ × α)} {s : σ} (hG : ∀ s', G s' s')
    (hf : ∀ s' t a, R s s' → f s' = some (t, a) → G s' t ∧ ∀ u, R t u → Q a u) (hE : ∀ s', E s') :
    (Task.op f).Guar R G Q E s := by
  refine ⟨fun s' hs' => ?_, fun s' _ => hE s'⟩
  cases hfs : f s' with
  | none =>
    simp only [hfs, Option.map_none, Option.getD_none]
    exact ⟨hG s', fun t _ => hE t⟩
  | some r =>
    simp only [hfs, Option.map_some, Option.getD_some]
    exact hf s' r.1 r.2 hs' hfs

/-- The rule for an operation that only reads. -/
theorem Guar.query {read : σ → α} {s : σ} (hG : ∀ s', G s' s')
    (hQ : ∀ s' t, R s s' → R s' t → Q (read s') t) (hE : ∀ s', E s') :
    (Task.query read).Guar R G Q E s :=
  Guar.op hG (by rintro s' _ _ hs' ⟨⟩; exact ⟨hG s', fun u hu => hQ s' u hs' hu⟩) hE

theorem Guar.get {o : Option α} {s : σ} (hQ : ∀ a s', o = some a → R s s' → Q a s')
    (hE : ∀ s', E s') : (Task.get o : Task σ α).Guar R G Q E s := by
  cases o with
  | none => exact fun s' _ => hE s'
  | some a => exact fun s' hs' => hQ a s' rfl hs'

/-- The rule for synchronous code that changes the store. -/
theorem Guar.effect {upd : σ → σ} {Q : Unit → σ → Prop} {s : σ}
    (hG : ∀ s', R s s' → G s' (upd s')) (hQ : ∀ s' t, R s s' → R (upd s') t → Q () t) :
    (Task.effect upd).Guar R G Q E s :=
  fun s' hs' => ⟨hG s' hs', fun t ht => hQ s' t hs' ht⟩

/-- The rule for synchronous code that looks at the store. -/
theorem Guar.look {read : σ → α} {s : σ} (hG : ∀ s', G s' s')
    (hQ : ∀ s' t, R s s' → R s' t → Q (read s') t) : (Task.look read).Guar R G Q E s :=
  fun s' hs' => ⟨hG s', fun t ht => hQ s' t hs' ht⟩

/-- A task run alone makes changes its guarantee allows, and ends as its triple says. -/
theorem Guar.exec (hrefl : ∀ s, R s s) (hGrefl : ∀ s, G s s)
    (hGtrans : ∀ a b c, G a b → G b c → G a c) :
    ∀ {p : Task σ α} {s : σ}, p.Guar R G Q E s → G s (p.exec s).1 ∧
      (∀ a, (p.exec s).2 = some a → Q a (p.exec s).1) ∧
      ((p.exec s).2 = none → E (p.exec s).1)
  | .done a, s, h => ⟨hGrefl s, by rintro _ ⟨⟩; exact h s (hrefl s), by rintro ⟨⟩⟩
  | .throw, s, h => ⟨hGrefl s, by rintro _ ⟨⟩, fun _ => h s (hrefl s)⟩
  | .await upd next _, s, h => by
    obtain ⟨hstep, hnext⟩ := h.1 s (hrefl s)
    obtain ⟨hG, hQ, hE⟩ := Guar.exec hrefl hGrefl hGtrans hnext
    exact ⟨hGtrans _ _ _ hstep hG, hQ, hE⟩
  | .act upd next, s, h => by
    obtain ⟨hstep, hnext⟩ := h s (hrefl s)
    obtain ⟨hG, hQ, hE⟩ := Guar.exec hrefl hGrefl hGtrans hnext
    exact ⟨hGtrans _ _ _ hstep hG, hQ, hE⟩

/-! ## The first step of a task

A condition known of the store a task takes its first step in, and of no later one, can be used
for that step alone. -/

/-- The triple, for a first step taken in `s` itself. -/
def First (R G : σ → σ → Prop) (Q : α → σ → Prop) (E : σ → Prop) : Task σ α → σ → Prop
  | .done a, s => ∀ s', R s s' → Q a s'
  | .throw, s => ∀ s', R s s' → E s'
  | .await upd next fail, s =>
      (G s (upd s) ∧ (next s).Guar R G Q E (upd s)) ∧ fail.Guar R G Q E s
  | .act upd next, s => G s (upd s) ∧ (next s).Guar R G Q E (upd s)

theorem Guar.first (hrefl : ∀ s, R s s) :
    ∀ {p : Task σ α} {s : σ}, p.Guar R G Q E s → p.First R G Q E s
  | .done _, _, h => h
  | .throw, _, h => h
  | .await _ _ _, s, h => ⟨h.1 s (hrefl s), h.2⟩
  | .act _ _, s, h => h s (hrefl s)

theorem First.bind (hrefl : ∀ s, R s s) {k : α → Task σ β} {Q' : β → σ → Prop}
    (hk : ∀ a s, Q a s → (k a).Guar R G Q' E s) :
    ∀ {p : Task σ α} {s : σ}, p.First R G Q E s → (p >>= k).First R G Q' E s
  | .done _, s, h => (hk _ s (h s (hrefl s))).first hrefl
  | .throw, _, h => h
  | .await _ _ _, _, h => ⟨⟨h.1.1, Guar.bind hrefl hk h.1.2⟩, Guar.bind hrefl hk h.2⟩
  | .act _ _, _, h => ⟨h.1, Guar.bind hrefl hk h.2⟩

theorem First.handle (hrefl : ∀ s, R s s) {c : Task σ α} (hc : ∀ s, E s → c.Guar R G Q E' s) :
    ∀ {p : Task σ α} {s : σ}, p.First R G Q E s → (p.handle c).First R G Q E' s
  | .done _, _, h => h
  | .throw, s, h => (hc s (h s (hrefl s))).first hrefl
  | .await _ _ _, _, h => ⟨⟨h.1.1, Guar.handle hrefl hc h.1.2⟩, Guar.handle hrefl hc h.2⟩
  | .act _ _, _, h => ⟨h.1, Guar.handle hrefl hc h.2⟩

/-- A value looked up on the way to the first step. -/
theorem First.get_bind {o : Option α} {k : α → Task σ β} {Q : β → σ → Prop} {s : σ}
    (hk : ∀ a, o = some a → (k a).First R G Q E s) (hE : ∀ s', E s') :
    (Task.get o >>= k).First R G Q E s := by
  cases o with
  | none => exact fun s' _ => hE s'
  | some a => exact hk a rfl

/-- The rule for a reading operation in first place: what it finds is known of `s`. -/
theorem First.query {read : σ → α} {s : σ} (hG : G s s) (hQ : ∀ t, R s t → Q (read s) t)
    (hE : ∀ s', E s') : (Task.query read).First R G Q E s :=
  ⟨⟨hG, fun t ht => hQ t ht⟩, fun s' _ => hE s'⟩

end Task

/-! ## One step of a task -/

namespace Task

variable {σ α : Type}

/-- The task takes its next step in `s`, which leaves `s'`, and goes on as `q`. -/
inductive Moves : Task σ α → σ → σ → Task σ α → Prop
  | await {upd : σ → σ} {next : σ → Task σ α} {fail : Task σ α} {s : σ} :
      Moves (.await upd next fail) s (upd s) (next s)
  | act {upd : σ → σ} {next : σ → Task σ α} {s : σ} : Moves (.act upd next) s (upd s) (next s)

/-- The operation the task waits for fails, and it goes on as `q`. -/
inductive Fails : Task σ α → Task σ α → Prop
  | await {upd : σ → σ} {next : σ → Task σ α} {fail : Task σ α} :
      Fails (.await upd next fail) fail

variable {R G : σ → σ → Prop} {Q : α → σ → Prop} {E : σ → Prop} {p q : Task σ α} {s t t' : σ}

/-- The task has a next step. -/
def Live : Task σ α → Prop
  | .done _ => False
  | .throw => False
  | .await .. => True
  | .act .. => True

instance : (p : Task σ α) → Decidable p.Live
  | .done _ => .isFalse id
  | .throw => .isFalse id
  | .await .. => .isTrue trivial
  | .act .. => .isTrue trivial

/-- A task with a next step can take it anywhere. -/
theorem Live.moves (h : p.Live) (s : σ) : ∃ s' q, p.Moves s s' q := by
  cases p with
  | done a => exact h.elim
  | throw => exact h.elim
  | await upd next fail => exact ⟨_, _, .await⟩
  | act upd next => exact ⟨_, _, .act⟩

theorem Guar.moves (h : p.Guar R G Q E s) (hst : R s t) (hm : p.Moves t t' q) :
    G t t' ∧ q.Guar R G Q E t' := by
  cases hm with
  | await => exact h.1 t hst
  | act => exact h t hst

theorem Guar.fails (h : p.Guar R G Q E s) (hf : p.Fails q) : q.Guar R G Q E s := by
  cases hf with
  | await => exact h.2

/-! ## Protocols -/

variable {φ β : Type} (J : σ → Prop) (T : φ → σ → σ → φ → Prop)

/-- See the header: from phase `a` on, every step of the task is a `T`-step. -/
def Follows (Q : α → φ → Prop) (E : φ → Prop) : Task σ α → φ → Prop
  | .done x, a => Q x a
  | .throw, a => E a
  | .await upd next _, a => ∀ s, J s → ∃ b, T a s (upd s) b ∧ (next s).Follows Q E b
  | .act upd next, a => ∀ s, J s → ∃ b, T a s (upd s) b ∧ (next s).Follows Q E b

variable {J T} {P : α → φ → Prop} {P' : β → φ → Prop} {F F' : φ → Prop} {a : φ}

theorem Follows.bind {k : α → Task σ β} (hk : ∀ x a, P x a → (k x).Follows J T P' F a) :
    ∀ {p : Task σ α} {a : φ}, p.Follows J T P F a → (p >>= k).Follows J T P' F a
  | .done x, a, h => hk x a h
  | .throw, _, h => h
  | .await _ _ _, _, h => by
    intro s hs
    obtain ⟨b, hstep, hnext⟩ := h s hs
    exact ⟨b, hstep, hnext.bind hk⟩
  | .act _ _, _, h => by
    intro s hs
    obtain ⟨b, hstep, hnext⟩ := h s hs
    exact ⟨b, hstep, hnext.bind hk⟩

theorem Follows.handle {c : Task σ α} (hc : ∀ a, F a → c.Follows J T P F' a) :
    ∀ {p : Task σ α} {a : φ}, p.Follows J T P F a → (p.handle c).Follows J T P F' a
  | .done _, _, h => h
  | .throw, a, h => hc a h
  | .await _ _ _, _, h => by
    intro s hs
    obtain ⟨b, hstep, hnext⟩ := h s hs
    exact ⟨b, hstep, hnext.handle hc⟩
  | .act _ _, _, h => by
    intro s hs
    obtain ⟨b, hstep, hnext⟩ := h s hs
    exact ⟨b, hstep, hnext.handle hc⟩

/-- An operation is one step: it succeeds, or it leaves the store alone and throws. -/
theorem Follows.op {f : σ → Option (σ × α)}
    (hsome : ∀ s t x, J s → f s = some (t, x) → ∃ b, T a s t b ∧ P x b)
    (hnone : ∀ s, J s → f s = none → ∃ b, T a s s b ∧ F b) : (Task.op f).Follows J T P F a := by
  intro s hs
  show ∃ b, T a s (((f s).map Prod.fst).getD s) b ∧ Follows J T P F
    (match f s with | some (_, x) => Task.done x | none => Task.throw) b
  cases hf : f s with
  | none => exact hnone s hs hf
  | some r => exact hsome s r.1 r.2 hs hf

theorem Follows.query {read : σ → α} (h : ∀ s, J s → ∃ b, T a s s b ∧ P (read s) b) :
    (Task.query read).Follows J T P F a := by
  refine Follows.op (fun s t x hs hf => ?_) fun s _ hf => nomatch hf
  cases hf
  exact h s hs

theorem Follows.look {read : σ → α} (h : ∀ s, J s → ∃ b, T a s s b ∧ P (read s) b) :
    (Task.look read).Follows J T P F a := h

theorem Follows.effect {upd : σ → σ} {P : Unit → φ → Prop}
    (h : ∀ s, J s → ∃ b, T a s (upd s) b ∧ P () b) : (Task.effect upd).Follows J T P F a := h

/-- **A step of a task that follows a protocol** is a step of the protocol. -/
theorem Follows.moves (h : p.Follows J T P F a) (hs : J s) (hm : p.Moves s t q) :
    ∃ b, T a s t b ∧ q.Follows J T P F b := by
  cases hm with
  | await => exact h s hs
  | act => exact h s hs

/-- A task with no next step has reached a phase to end in. -/
theorem Follows.ended (h : p.Follows J T P F a) (hlive : ¬ p.Live) : (∃ x, P x a) ∨ F a := by
  cases p with
  | done x => exact Or.inl ⟨x, h⟩
  | throw => exact Or.inr h
  | await upd next fail => exact absurd trivial hlive
  | act upd next => exact absurd trivial hlive

end Task

/-! ## Any number of tasks over one store -/

/-- The store and the tasks in progress, each with the origin it was spawned for. -/
structure Pool (o σ : Type) where
  store : σ
  tasks : List (o × Task σ Unit)

/-- What can happen next: a task is spawned, task `i` takes its next step, the operation it waits
    for fails, or the store changes from outside. -/
inductive Label (o e : Type)
  | spawn (origin : o)
  | advance (i : Nat)
  | fail (i : Nat)
  | outside (change : e)

namespace Pool

variable {o e σ : Type}

/-- One step of the pool; `handler` gives the task an origin spawns, `env` what an outside change
    does.  A task that has ended or thrown cannot be advanced, and only an `await` can fail. -/
def step (handler : o → Task σ Unit) (env : e → σ → σ) (p : Pool o σ) :
    Label o e → Option (Pool o σ)
  | .spawn origin => some { p with tasks := p.tasks ++ [(origin, handler origin)] }
  | .advance i => match p.tasks[i]? with
      | some (origin, .await upd next _) =>
          some { store := upd p.store, tasks := p.tasks.set i (origin, next p.store) }
      | some (origin, .act upd next) =>
          some { store := upd p.store, tasks := p.tasks.set i (origin, next p.store) }
      | _ => none
  | .fail i => match p.tasks[i]? with
      | some (origin, .await _ _ fail) => some { p with tasks := p.tasks.set i (origin, fail) }
      | _ => none
  | .outside change => some { p with store := env change p.store }

/-- What a step can be. -/
theorem step_cases {handler : o → Task σ Unit} {env : e → σ → σ} {p p' : Pool o σ}
    {l : Label o e} (hs : p.step handler env l = some p') :
    (∃ w, l = .spawn w ∧ p' = { p with tasks := p.tasks ++ [(w, handler w)] }) ∨
      (∃ i w q q' s', l = .advance i ∧ p.tasks[i]? = some (w, q) ∧ q.Moves p.store s' q' ∧
        p' = { store := s', tasks := p.tasks.set i (w, q') }) ∨
      (∃ i w q q', l = .fail i ∧ p.tasks[i]? = some (w, q) ∧ q.Fails q' ∧
        p' = { p with tasks := p.tasks.set i (w, q') }) ∨
      ∃ x, l = .outside x ∧ p' = { p with store := env x p.store } := by
  cases l with
  | spawn w => exact .inl ⟨w, rfl, (Option.some.inj hs).symm⟩
  | advance i =>
    simp only [step] at hs
    split at hs
    · rename_i w upd next fail hget
      exact .inr (.inl ⟨i, w, _, _, _, rfl, hget, .await, (Option.some.inj hs).symm⟩)
    · rename_i w upd next hget
      exact .inr (.inl ⟨i, w, _, _, _, rfl, hget, .act, (Option.some.inj hs).symm⟩)
    · cases hs
  | fail i =>
    simp only [step] at hs
    split at hs
    · rename_i w upd next fail hget
      exact .inr (.inr (.inl ⟨i, w, _, _, rfl, hget, .await, (Option.some.inj hs).symm⟩))
    · cases hs
  | outside x => exact .inr (.inr (.inr ⟨x, rfl, (Option.some.inj hs).symm⟩))

/-- Every task in progress has yet to start, or keeps its guarantee from the present store on. -/
def Inv (handler : o → Task σ Unit) (R : σ → σ → Prop) (G : o → σ → σ → Prop) (p : Pool o σ) :
    Prop :=
  ∀ t ∈ p.tasks, t.2 = handler t.1 ∨
    t.2.Guar R (G t.1) (fun _ _ => True) (fun _ => True) p.store

/-- The origin whose task a label moves. -/
def mover (p : Pool o σ) : Label o e → Option o
  | .advance i => p.tasks[i]?.map Prod.fst
  | .fail i => p.tasks[i]?.map Prod.fst
  | _ => none

variable {R : σ → σ → Prop} {G : o → σ → σ → Prop} {handler : o → Task σ Unit} {env : e → σ → σ}

theorem inv_nil {s : σ} : Inv handler R G { store := s, tasks := [] } := by
  intro t ht
  cases ht

/-- A change of the store that all tasks rely on keeps the invariant. -/
theorem Inv.store (htrans : ∀ a b c, R a b → R b c → R a c) {p : Pool o σ}
    (hi : Inv handler R G p) {s : σ} (hs : R p.store s) :
    Inv handler R G { p with store := s } :=
  fun t ht => (hi t ht).imp id fun h => h.stable htrans hs

/-- Replacing one task by one that keeps the same guarantee keeps the invariant. -/
theorem Inv.set {p : Pool o σ} (hi : Inv handler R G p) {i : Nat} {origin : o} {q : Task σ Unit}
    (hq : q.Guar R (G origin) (fun _ _ => True) (fun _ => True) p.store) :
    Inv handler R G { p with tasks := p.tasks.set i (origin, q) } := by
  intro t ht
  rcases List.mem_or_eq_of_mem_set ht with ht | rfl
  · exact hi t ht
  · exact .inr hq

/-- Where the condition `first` on the store and the origin lets a task start, a task of the pool
    can take its next step. -/
theorem Inv.first (hrefl : ∀ s, R s s) {p : Pool o σ} (hi : Inv handler R G p) {i : Nat} {w : o}
    {q : Task σ Unit} (hget : p.tasks[i]? = some (w, q))
    (hfirst : (handler w).First R (G w) (fun _ _ => True) (fun _ => True) p.store) :
    q.First R (G w) (fun _ _ => True) (fun _ => True) p.store := by
  rcases hi _ (List.mem_of_getElem? hget) with hstart | hguar
  · have hq : q = handler w := hstart
    exact hq ▸ hfirst
  · exact hguar.first hrefl

/-- What an enabled `advance` does: the store changes by a change in the mover's guarantee, and the
    invariant is kept. -/
theorem advance_spec (hrefl : ∀ s, R s s) (htrans : ∀ a b c, R a b → R b c → R a c)
    (hGR : ∀ w s s', G w s s' → R s s') {p p' : Pool o σ} {i : Nat} (hi : Inv handler R G p)
    (hfirst : ∀ w ∈ p.mover (.advance i : Label o e),
      (handler w).First R (G w) (fun _ _ => True) (fun _ => True) p.store)
    (hs : p.step handler env (.advance i) = some p') :
    (∃ w ∈ p.mover (.advance i : Label o e), G w p.store p'.store) ∧ Inv handler R G p' := by
  simp only [step] at hs
  split at hs
  -- an operation and a piece of synchronous code change the store alike
  · rename_i w upd next fail hget
    cases hs
    have hmove : w ∈ p.mover (.advance i : Label o e) := by simp [mover, hget]
    obtain ⟨⟨hG, hnext⟩, -⟩ := hi.first hrefl hget (hfirst w hmove)
    exact ⟨⟨w, hmove, hG⟩, (hi.store htrans (hGR w _ _ hG)).set hnext⟩
  · rename_i w upd next hget
    cases hs
    have hmove : w ∈ p.mover (.advance i : Label o e) := by simp [mover, hget]
    obtain ⟨hG, hnext⟩ := hi.first hrefl hget (hfirst w hmove)
    exact ⟨⟨w, hmove, hG⟩, (hi.store htrans (hGR w _ _ hG)).set hnext⟩
  · cases hs

/-- **Every interleaving.**  If guarantees are changes the others rely on, outside changes are
    relied on, and each task that moves may take its first step where it stands, then the
    invariant survives every step. -/
theorem inv_step (hrefl : ∀ s, R s s) (htrans : ∀ a b c, R a b → R b c → R a c)
    (hGR : ∀ w s s', G w s s' → R s s') (henv : ∀ x s, R s (env x s))
    {p p' : Pool o σ} {l : Label o e} (hi : Inv handler R G p)
    (hfirst : ∀ w ∈ p.mover l,
      (handler w).First R (G w) (fun _ _ => True) (fun _ => True) p.store)
    (hs : p.step handler env l = some p') : Inv handler R G p' := by
  cases l with
  | spawn w =>
    cases hs
    intro t ht
    rcases List.mem_append.mp ht with ht | ht
    · exact hi t ht
    · rw [List.mem_singleton.mp ht]
      exact .inl rfl
  | advance i => exact (advance_spec hrefl htrans hGR hi hfirst hs).2
  | fail i =>
    simp only [step] at hs
    split at hs
    · rename_i w upd next fail hget
      cases hs
      have hmove : w ∈ p.mover (.fail i : Label o e) := by simp [mover, hget]
      exact hi.set (hi.first hrefl hget (hfirst w hmove)).2
    · cases hs
  | outside x =>
    cases hs
    exact hi.store htrans (henv x p.store)

end Pool

end Tasks
