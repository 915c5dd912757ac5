/-
  FIND, OR ELSE CREATE: several parties share a store that does not keep its keys unique.

  A party looks for an item that meets a key.  When there is none it creates one, in a later step of
  its own; until then it has MISSED the key (`missed`).  Another party can miss the same key in the
  meantime, and then there will be two items.

  1. **One item for each key** (`Single`): no two items meet one key, no item meets a key that is
     missed, and no two parties miss the same key.

  2. **What keeps it** — a party that misses a key nobody else misses, one that creates the item for
     the key it has missed, one that gives up, and whatever meets no key.

  3. **What breaks it** (`not_one_of_both`): two parties that have missed one key.
-/

namespace FindOrCreate

variable {Item Key α : Type} {meets : Key → Item → Prop} {valid : Key → Prop}
  {missed : α → Option Key} {items : List Item} {parties : List α} {i : Nat} {x y : α} {k : Key}
  {item : Item}

/-- At most one item meets the key. -/
def One (meets : Key → Item → Prop) (items : List Item) (k : Key) : Prop :=
  ∀ a ∈ items, ∀ b ∈ items, meets k a → meets k b → a = b

/-- See the header; only the keys that are `valid` are looked for. -/
structure Single (meets : Key → Item → Prop) (valid : Key → Prop) (missed : α → Option Key)
    (items : List Item) (parties : List α) : Prop where
  one : ∀ k, valid k → One meets items k
  absent : ∀ p ∈ parties, ∀ k, missed p = some k → ∀ a ∈ items, ¬ meets k a
  apart : ∀ (i j : Nat) (p q : α) (k : Key), parties[i]? = some p → parties[j]? = some q →
    missed p = some k → missed q = some k → i = j

/-- The item that is created for `k` meets that key, and no other that is looked for. -/
def CreatedFor (meets : Key → Item → Prop) (valid : Key → Prop) (k : Key) (item : Item) : Prop :=
  ∀ k', valid k' → (meets k' item ↔ k' = k)

/-- The party that is at an index after a change is the changed one, or was there before. -/
theorem getElem?_set_cases {l : List α} {i j : Nat} {y q : α} (h : (l.set i y)[j]? = some q) :
    i = j ∧ q = y ∨ i ≠ j ∧ l[j]? = some q := by
  rw [List.getElem?_set] at h
  split at h
  · next heq =>
    split at h
    · exact .inl ⟨heq, (Option.some.inj h).symm⟩
    · cases h
  · next hne => exact .inr ⟨hne, h⟩

/-! ## What keeps it -/

/-- A party changes, and misses no key afterwards that it did not miss. -/
theorem Single.keep (h : Single meets valid missed items parties) (hi : parties[i]? = some x)
    (hy : ∀ k, missed y = some k → missed x = some k) :
    Single meets valid missed items (parties.set i y) where
  one := h.one
  absent := by
    intro p hp k hk a ha
    rcases List.mem_or_eq_of_mem_set hp with hp | rfl
    · exact h.absent p hp k hk a ha
    · exact h.absent x (List.mem_of_getElem? hi) k (hy k hk) a ha
  apart := by
    intro j j' p q k hj hj' hp hq
    rcases getElem?_set_cases hj with ⟨rfl, rfl⟩ | ⟨-, hold⟩
    · rcases getElem?_set_cases hj' with ⟨rfl, rfl⟩ | ⟨-, hold'⟩
      · rfl
      · exact h.apart _ _ x q k hi hold' (hy k hp) hq
    · rcases getElem?_set_cases hj' with ⟨rfl, rfl⟩ | ⟨-, hold'⟩
      · exact h.apart _ _ p x k hold hi hp (hy k hq)
      · exact h.apart _ _ p q k hold hold' hp hq

/-- A party misses a key that no item meets and nobody else misses. -/
theorem Single.miss (h : Single meets valid missed items parties)
    (hy : missed y = some k) (hnone : ∀ a ∈ items, ¬ meets k a)
    (halone : ∀ (j : Nat) (q : α), parties[j]? = some q → j ≠ i → missed q ≠ some k) :
    Single meets valid missed items (parties.set i y) where
  one := h.one
  absent := by
    intro p hp k' hk' a ha
    rcases List.mem_or_eq_of_mem_set hp with hp | rfl
    · exact h.absent p hp k' hk' a ha
    · rw [hy] at hk'
      cases hk'
      exact hnone a ha
  apart := by
    intro j j' p q k' hj hj' hp hq
    rcases getElem?_set_cases hj with ⟨rfl, rfl⟩ | ⟨hne, hold⟩
    · rcases getElem?_set_cases hj' with ⟨rfl, rfl⟩ | ⟨hne', hold'⟩
      · rfl
      · rw [hy] at hp
        cases hp
        exact absurd hq (halone j' q hold' (Ne.symm hne'))
    · rcases getElem?_set_cases hj' with ⟨rfl, rfl⟩ | ⟨-, hold'⟩
      · rw [hy] at hq
        cases hq
        exact absurd hp (halone j p hold (Ne.symm hne))
      · exact h.apart _ _ p q k' hold hold' hp hq

/-- **The creation.**  A party creates the item for the key that it has missed. -/
theorem Single.create (h : Single meets valid missed items parties) (hi : parties[i]? = some x)
    (hx : missed x = some k) (hy : missed y = none) (hitem : CreatedFor meets valid k item)
    (hvalid : ∀ p ∈ parties, ∀ k, missed p = some k → valid k) :
    Single meets valid missed (items ++ [item]) (parties.set i y) where
  one := by
    intro k' hk' a ha b hb hma hmb
    have hxk := h.absent x (List.mem_of_getElem? hi) k hx
    rcases List.mem_append.mp ha with ha | ha <;> rcases List.mem_append.mp hb with hb | hb
    · exact h.one k' hk' a ha b hb hma hmb
    · rw [List.mem_singleton.mp hb, hitem k' hk'] at hmb
      exact absurd (hmb ▸ hma) (hxk a ha)
    · rw [List.mem_singleton.mp ha, hitem k' hk'] at hma
      exact absurd (hma ▸ hmb) (hxk b hb)
    · rw [List.mem_singleton.mp ha, List.mem_singleton.mp hb]
  absent := by
    intro p hp k' hk' a ha hmeets
    obtain ⟨j, hj⟩ := List.getElem?_of_mem hp
    rcases getElem?_set_cases hj with ⟨rfl, rfl⟩ | ⟨hne, hj⟩
    · rw [hy] at hk'
      cases hk'
    · have hp' := List.mem_of_getElem? hj
      rcases List.mem_append.mp ha with ha | ha
      · exact h.absent p hp' k' hk' a ha hmeets
      · rw [List.mem_singleton.mp ha, hitem k' (hvalid p hp' k' hk')] at hmeets
        subst hmeets
        exact hne (h.apart _ _ x p k' hi hj hx hk')
  apart := (h.keep hi (by simp [hy])).apart

/-- An item that meets no key comes to the others. -/
theorem Single.other (h : Single meets valid missed items parties)
    (hitem : ∀ k, valid k → ¬ meets k item)
    (hvalid : ∀ p ∈ parties, ∀ k, missed p = some k → valid k) :
    Single meets valid missed (items ++ [item]) parties where
  one := by
    intro k hk a ha b hb hma hmb
    rcases List.mem_append.mp ha with ha | ha
    · rcases List.mem_append.mp hb with hb | hb
      · exact h.one k hk a ha b hb hma hmb
      · exact absurd (List.mem_singleton.mp hb ▸ hmb) (hitem k hk)
    · exact absurd (List.mem_singleton.mp ha ▸ hma) (hitem k hk)
  absent := by
    intro p hp k hk a ha hmeets
    rcases List.mem_append.mp ha with ha | ha
    · exact h.absent p hp k hk a ha hmeets
    · exact hitem k (hvalid p hp k hk) (List.mem_singleton.mp ha ▸ hmeets)
  apart := h.apart

/-- Nobody has missed anything yet. -/
theorem Single.init (hone : ∀ k, valid k → One meets items k)
    (hnone : ∀ p ∈ parties, missed p = none) : Single meets valid missed items parties where
  one := hone
  absent := by
    intro p hp k hk
    rw [hnone p hp] at hk
    cases hk
  apart := by
    intro i j p q k hi hj hp hq
    rw [hnone p (List.mem_of_getElem? hi)] at hp
    cases hp

/-! ## What breaks it -/

/-- Two items that are created for one key are two. -/
theorem not_one_of_both {a b : Item} (ha : meets k a) (hb : meets k b) (hne : a ≠ b) :
    ¬ One meets (items ++ [a] ++ [b]) k := by
  intro hone
  exact hne (hone a (by simp) b (by simp) ha hb)

end FindOrCreate
