/-
  GROUPING A LIST BY A KEY, into a map that keeps the order in which keys are first met.

  `groupBy` is the loop that puts each element at the end of its group, and begins a group where
  there is none.  Its result (`groups_groupBy`): each key that occurs has one group, and that is the
  list of the elements with the key, in their order; together they are all elements
  (`perm_flatMap_filter`).
-/
import Mathlib.Data.List.Induction
import Mathlib.Data.List.Nodup

namespace GroupBy

variable {α κ : Type} [DecidableEq κ] (key : α → κ)

/-- One round of the loop. -/
def add (groups : List (κ × List α)) (a : α) : List (κ × List α) :=
  if groups.any (·.1 = key a) then
    groups.map fun group => if group.1 = key a then (group.1, group.2 ++ [a]) else group
  else groups ++ [(key a, [a])]

def groupBy (xs : List α) : List (κ × List α) := xs.foldl (add key) []

/-- One group for each key of `xs`, with the elements that have it. -/
structure Groups (xs : List α) (groups : List (κ × List α)) : Prop where
  nodup : (groups.map Prod.fst).Nodup
  mem_keys : ∀ k, k ∈ groups.map Prod.fst ↔ ∃ a ∈ xs, key a = k
  group : ∀ group ∈ groups, group.2 = xs.filter (key · = group.1)

variable {key} {xs : List α} {groups : List (κ × List α)}

theorem any_key {k : κ} : groups.any (·.1 = k) = true ↔ k ∈ groups.map Prod.fst := by
  simp [List.any_eq_true]

/-- One more element. -/
theorem Groups.add (h : Groups key xs groups) (a : α) :
    Groups key (xs ++ [a]) (GroupBy.add key groups a) := by
  have hmem : ∀ k, (∃ b ∈ xs ++ [a], key b = k) ↔ (∃ b ∈ xs, key b = k) ∨ key a = k := by
    intro k
    simp [or_and_right, exists_or]
  unfold GroupBy.add
  split
  next hany =>
    have hkeys : (groups.map fun group =>
        if group.1 = key a then (group.1, group.2 ++ [a]) else group).map Prod.fst =
          groups.map Prod.fst := by
      rw [List.map_map]
      refine List.map_congr_left fun group _ => ?_
      show (if group.1 = key a then (group.1, group.2 ++ [a]) else group).1 = group.1
      split <;> rfl
    refine ⟨hkeys ▸ h.nodup, fun k => ?_, fun group hgroup => ?_⟩
    · rw [hkeys, h.mem_keys, hmem]
      constructor
      · exact .inl
      · rintro (hk | rfl)
        · exact hk
        · exact (h.mem_keys _).mp (any_key.mp hany)
    · obtain ⟨old, hold, rfl⟩ := List.mem_map.mp hgroup
      split
      next hkey =>
        show old.2 ++ [a] = (xs ++ [a]).filter (key · = old.1)
        rw [List.filter_append, ← h.group old hold]
        simp [hkey]
      next hkey =>
        have hne : ¬ key a = old.1 := fun heq => hkey heq.symm
        rw [List.filter_append, ← h.group old hold]
        simp [hne]
  next hany =>
    have hnew : key a ∉ groups.map Prod.fst := fun hk => hany (any_key.mpr hk)
    refine ⟨?_, fun k => ?_, fun group hgroup => ?_⟩
    · rw [List.map_append]
      refine List.nodup_append.mpr ⟨h.nodup, List.nodup_singleton _, fun k hk k' hk' heq => ?_⟩
      rw [heq, List.mem_singleton.mp hk'] at hk
      exact hnew hk
    · rw [List.map_append, List.mem_append, h.mem_keys, hmem]
      simp [eq_comm]
    · rcases List.mem_append.mp hgroup with hold | hlast
      · rw [List.filter_append, ← h.group group hold]
        have hkey : ¬ key a = group.1 := fun heq =>
          hnew (heq ▸ List.mem_map.mpr ⟨group, hold, rfl⟩)
        simp [hkey]
      · rw [List.mem_singleton.mp hlast, List.filter_append]
        have hnone : xs.filter (key · = key a) = [] := by
          refine List.filter_eq_nil_iff.mpr fun b hb hkey => ?_
          exact hnew ((h.mem_keys _).mpr ⟨b, hb, of_decide_eq_true hkey⟩)
        simp [hnone]

/-- **The groups of a list.** -/
theorem groups_groupBy (xs : List α) : Groups key xs (groupBy key xs) := by
  induction xs using List.reverseRecOn with
  | nil => exact ⟨List.nodup_nil, by simp [groupBy], by simp [groupBy]⟩
  | append_singleton xs a ih =>
    have hstep : groupBy key (xs ++ [a]) = GroupBy.add key (groupBy key xs) a := by
      rw [groupBy, List.foldl_append]
      rfl
    rw [hstep]
    exact ih.add a

/-- The group of a key that occurs. -/
theorem Groups.lookup (h : Groups key xs groups) {k : κ} (hk : k ∈ groups.map Prod.fst) :
    groups.lookup k = some (xs.filter (key · = k)) := by
  obtain ⟨⟨k', found⟩, hmem, rfl⟩ := List.mem_map.mp hk
  obtain ⟨before, after, rfl⟩ := List.append_of_mem hmem
  rw [← h.group _ hmem]
  refine List.lookup_eq_some_iff.mpr ⟨before, after, rfl, fun other hother => ?_⟩
  have hnodup := h.nodup
  rw [List.map_append, List.map_cons] at hnodup
  have hne : other.1 ≠ k' := (List.nodup_append.mp hnodup).2.2 _ (List.mem_map_of_mem hother) _
    (List.mem_cons_self ..)
  exact bne_iff_ne.mpr hne.symm

/-- The groups together are the list. -/
theorem perm_flatMap_filter : ∀ {keys : List κ} {xs : List α}, keys.Nodup →
    (∀ a ∈ xs, key a ∈ keys) → (keys.flatMap fun k => xs.filter (key · = k)).Perm xs
  | [], xs, _, h => by
    have hnil : xs = [] := List.eq_nil_iff_forall_not_mem.mpr fun a ha =>
      absurd (h a ha) List.not_mem_nil
    rw [hnil]
    exact List.Perm.nil
  | k :: keys, xs, hnodup, h => by
    obtain ⟨hk, hkeys⟩ := List.nodup_cons.mp hnodup
    have hrest : (keys.flatMap fun k' => xs.filter (key · = k')) =
        keys.flatMap fun k' => (xs.filter fun a => !decide (key a = k)).filter (key · = k') := by
      refine List.flatMap_congr fun k' hk' => ?_
      rw [List.filter_filter]
      refine List.filter_congr fun a _ => ?_
      by_cases heq : key a = k'
      · have hne : key a ≠ k := fun hsame => hk (hsame ▸ heq ▸ hk')
        simp [heq, heq ▸ hne]
      · simp [heq]
    rw [List.flatMap_cons, hrest]
    refine List.Perm.trans ?_ (List.filter_append_perm (fun a => decide (key a = k)) xs)
    refine List.Perm.append_left _ (perm_flatMap_filter hkeys fun a ha => ?_)
    obtain ⟨hmem, hne⟩ := List.mem_filter.mp ha
    rcases List.mem_cons.mp (h a hmem) with heq | hin
    · simp [heq] at hne
    · exact hin

end GroupBy
