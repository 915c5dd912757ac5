/-
  ROSE TREES, and searching one by asking for the children of one label after another.

  The search (`search`) knows labels only.  What it is told about a label may leave children out, as
  the first page of an answer does.

  1. **What is found** (`exists_searched`): in a tree as deep as one likes the search ends, and
     finds no label more often than it stands below the root.

  2. **When that is all** (`search_perm_iff`): exactly when no node of the tree has had a child left
     out.  A single page that is too short loses everything below the children that are not on it.
-/
import Mathlib.Data.List.Perm.Basic
import Mathlib.Data.List.Perm.Subperm

inductive RoseTree (α : Type)
  | node (label : α) (subtrees : List (RoseTree α))

namespace RoseTree

variable {α : Type}

def label : RoseTree α → α
  | node a _ => a

def subtrees : RoseTree α → List (RoseTree α)
  | node _ ts => ts

mutual

/-- The tree and every tree in it, from the root down. -/
def nodes : RoseTree α → List (RoseTree α)
  | node a ts => node a ts :: nodesOf ts

def nodesOf : List (RoseTree α) → List (RoseTree α)
  | [] => []
  | t :: ts => nodes t ++ nodesOf ts

end

mutual

def height : RoseTree α → Nat
  | node _ ts => heightOf ts

def heightOf : List (RoseTree α) → Nat
  | [] => 0
  | t :: ts => max (height t + 1) (heightOf ts)

end

def labels (t : RoseTree α) : List α := t.nodes.map label

/-- The labels below the root. -/
def descendants (t : RoseTree α) : List α := (nodesOf t.subtrees).map label

@[simp] theorem label_node (a : α) (ts : List (RoseTree α)) : (node a ts).label = a := rfl

@[simp] theorem subtrees_node (a : α) (ts : List (RoseTree α)) : (node a ts).subtrees = ts := rfl

theorem nodes_eq (t : RoseTree α) : t.nodes = t :: nodesOf t.subtrees := by
  cases t
  rfl

theorem labels_eq (t : RoseTree α) : t.labels = t.label :: t.descendants := by
  rw [labels, nodes_eq, List.map_cons, descendants]

theorem nodesOf_eq_flatMap (ts : List (RoseTree α)) : nodesOf ts = ts.flatMap nodes := by
  induction ts with
  | nil => rfl
  | cons t ts ih => rw [nodesOf, ih, List.flatMap_cons]

theorem height_lt_of_mem {t : RoseTree α} {ts : List (RoseTree α)} (ht : t ∈ ts) :
    t.height < heightOf ts := by
  induction ts with
  | nil => cases ht
  | cons u ts ih =>
    rw [heightOf]
    rcases List.mem_cons.mp ht with rfl | ht
    · omega
    · have hlt := ih ht
      omega

/-- **Induction** on a tree: a property that a node has when its subtrees have it. -/
theorem induct {P : RoseTree α → Prop} (h : ∀ a ts, (∀ t ∈ ts, P t) → P (node a ts)) :
    ∀ t, P t
  | node a ts => h a ts fun t ht => by
    have hsmaller := List.sizeOf_lt_of_mem ht
    exact induct h t
termination_by t => sizeOf t

/-! ## The search -/

/-- What is found below `a`, where `next` tells the children of a label; the fuel bounds the
    depth. -/
def search (next : α → List α) : Nat → α → Option (List α)
  | 0, _ => none
  | fuel + 1, a =>
    (next a).foldlM (fun found b => (search next fuel b).map fun more => found ++ b :: more) []

/-- Children of the node are told, and each no more than once. -/
def Tells (next : α → List α) (t : RoseTree α) : Prop :=
  ∃ rest, (next t.label ++ rest).Perm (t.subtrees.map label)

/-- No child of the node is left out. -/
def TellsAll (next : α → List α) (t : RoseTree α) : Prop :=
  t.subtrees.length ≤ (next t.label).length

/-- `found` is what the search finds below `t`. -/
structure Searched (next : α → List α) (t : RoseTree α) (found : List α) : Prop where
  returns (fuel : Nat) : t.height < fuel → search next fuel t.label = some found
  subperm : found.Subperm t.descendants
  all_iff : t.descendants.length ≤ found.length ↔ ∀ u ∈ t.nodes, TellsAll next u

/-- The same of a list of trees, as the search goes through their labels. -/
structure SearchedForest (next : α → List α) (ts : List (RoseTree α)) (found : List α) : Prop where
  returns (fuel : Nat) (before : List α) : heightOf ts ≤ fuel →
    (ts.map label).foldlM (fun found b =>
      (search next fuel b).map fun more => found ++ b :: more) before = some (before ++ found)
  subperm : found.Subperm ((nodesOf ts).map label)
  all_iff : (nodesOf ts).length ≤ found.length ↔ ∀ u ∈ nodesOf ts, TellsAll next u

variable {next : α → List α} {t : RoseTree α}

theorem tellsAll_iff {rest : List α} (h : (next t.label ++ rest).Perm (t.subtrees.map label)) :
    TellsAll next t ↔ rest = [] := by
  have hlength := h.length_eq
  rw [List.length_append, List.length_map] at hlength
  rw [TellsAll, ← List.length_eq_zero_iff]
  omega

/-- Labels that are told are the labels of trees. -/
theorem exists_perm_of_map {β : Type} {f : β → α} {l rest : List α} {ts : List β}
    (h : (l ++ rest).Perm (ts.map f)) : ∃ us vs : List β, us.map f = l ∧ (us ++ vs).Perm ts := by
  have hcomp : Relation.Comp (· = List.map f ·) List.Perm (l ++ rest) ts := by
    rw [List.eq_map_comp_perm]
    exact h
  obtain ⟨ws, hws, hperm⟩ := hcomp
  obtain ⟨us, vs, rfl, hus, -⟩ := List.map_eq_append_iff.mp hws.symm
  exact ⟨us, vs, hus, hperm⟩

/-- The search goes through the trees one after another. -/
theorem exists_searchedForest {ts : List (RoseTree α)}
    (h : ∀ t ∈ ts, ∃ found, Searched next t found) : ∃ found, SearchedForest next ts found := by
  induction ts with
  | nil =>
    refine ⟨[], fun fuel before _ => ?_, List.nil_subperm, ?_⟩
    · rw [List.append_nil]
      rfl
    · simp [nodesOf]
  | cons t ts ih =>
    obtain ⟨first, hfirst⟩ := h t List.mem_cons_self
    obtain ⟨others, hothers⟩ := ih fun u hu => h u (List.mem_cons_of_mem t hu)
    refine ⟨t.label :: first ++ others, fun fuel before hfuel => ?_, ?_, ?_⟩
    · rw [heightOf] at hfuel
      rw [List.map_cons, List.foldlM_cons, hfirst.returns fuel (by omega), Option.map_some,
        Option.bind_eq_bind, Option.bind_some, hothers.returns fuel _ (by omega),
        List.append_assoc]
    · rw [nodesOf, nodes_eq, List.map_append, List.map_cons]
      exact ((List.subperm_cons t.label).mpr hfirst.subperm).append hothers.subperm
    · have hle := hfirst.subperm.length_le
      have hle' := hothers.subperm.length_le
      rw [List.length_map] at hle'
      have hlength : (nodesOf (t :: ts)).length =
          1 + t.descendants.length + (nodesOf ts).length := by
        rw [nodesOf, nodes_eq, descendants, List.length_append, List.length_cons, List.length_map]
        omega
      have hfound : (t.label :: first ++ others).length = 1 + first.length + others.length := by
        rw [List.length_append, List.length_cons]
        omega
      rw [nodesOf, List.forall_mem_append, ← hfirst.all_iff, ← hothers.all_iff, ← nodesOf,
        hlength, hfound]
      constructor
      · intro h
        constructor <;> omega
      · rintro ⟨h, h'⟩
        omega

theorem length_nodesOf_le (ts : List (RoseTree α)) : ts.length ≤ (nodesOf ts).length := by
  induction ts with
  | nil => exact Nat.zero_le _
  | cons t ts ih =>
    rw [nodesOf, nodes_eq, List.length_append, List.length_cons, List.length_cons]
    omega

theorem nodesOf_perm {ts us vs : List (RoseTree α)} (h : (us ++ vs).Perm ts) :
    (nodesOf ts).Perm (nodesOf us ++ nodesOf vs) := by
  rw [nodesOf_eq_flatMap, nodesOf_eq_flatMap, nodesOf_eq_flatMap, ← List.flatMap_append]
  exact (h.flatMap_right nodes).symm

theorem mem_nodesOf {u : RoseTree α} {ts : List (RoseTree α)} :
    u ∈ nodesOf ts ↔ ∃ t ∈ ts, u ∈ t.nodes := by
  rw [nodesOf_eq_flatMap, List.mem_flatMap]

theorem heightOf_le {ts : List (RoseTree α)} {n : Nat} (h : ∀ t ∈ ts, t.height < n) :
    heightOf ts ≤ n := by
  induction ts with
  | nil => exact Nat.zero_le n
  | cons t ts ih =>
    have hfirst := h t List.mem_cons_self
    have hrest := ih fun u hu => h u (List.mem_cons_of_mem t hu)
    rw [heightOf]
    omega

/-- A node of which the subtrees `us` are told: what is below the others is lost. -/
theorem SearchedForest.node {a : α} {ts us vs : List (RoseTree α)} {found : List α}
    (h : SearchedForest next us found) (hus : us.map label = next a) (hperm : (us ++ vs).Perm ts) :
    Searched next (node a ts) found := by
  have hnodes := nodesOf_perm hperm
  have hlength : ts.length = us.length + vs.length := by
    rw [← List.length_append]
    exact hperm.length_eq.symm
  have hle : found.length ≤ (nodesOf us).length := by
    have hmap := h.subperm.length_le
    rwa [List.length_map] at hmap
  refine ⟨fun fuel hfuel => ?_, ?_, ?_⟩
  · obtain ⟨fuel, rfl⟩ : ∃ n, fuel = n + 1 := ⟨fuel - 1, by omega⟩
    rw [height] at hfuel
    rw [label_node, search, ← hus]
    refine h.returns fuel [] (heightOf_le fun t ht => ?_)
    have hlt := height_lt_of_mem (hperm.subset (List.mem_append_left vs ht))
    omega
  · refine h.subperm.trans (List.Subperm.trans ?_ (hnodes.map label).symm.subperm)
    rw [List.map_append]
    exact (List.sublist_append_left _ _).subperm
  · rw [descendants, subtrees_node, List.length_map, nodes, List.forall_mem_cons]
    have htold : TellsAll next (RoseTree.node a ts) ↔ vs = [] := by
      rw [TellsAll, subtrees_node, label_node, ← hus, List.length_map, ← List.length_eq_zero_iff]
      omega
    rw [htold, hnodes.length_eq, List.length_append]
    constructor
    · intro hge
      have hnil : vs = [] := by
        have hvs := length_nodesOf_le vs
        rw [← List.length_eq_zero_iff]
        omega
      subst hnil
      rw [nodesOf, List.append_nil] at hnodes
      exact ⟨rfl, fun u hu => h.all_iff.mp (by omega) u (hnodes.subset hu)⟩
    · rintro ⟨rfl, htells⟩
      rw [nodesOf, List.append_nil] at hnodes
      have hge := h.all_iff.mpr fun u hu => htells u (hnodes.symm.subset hu)
      rw [nodesOf, List.length_nil, Nat.add_zero]
      exact hge

/-- **The search ends**, whatever it is told, and what it finds is as much as it was told. -/
theorem exists_searched (t : RoseTree α) :
    (∀ u ∈ t.nodes, Tells next u) → ∃ found, Searched next t found := by
  induction t using induct with
  | h a ts ih =>
    intro htells
    rw [nodes, List.forall_mem_cons] at htells
    obtain ⟨⟨rest, hrest⟩, hbelow⟩ := htells
    obtain ⟨us, vs, hus, hperm⟩ := exists_perm_of_map hrest
    have hfound : ∀ t ∈ us, ∃ found, Searched next t found := by
      intro t ht
      have hmem := hperm.subset (List.mem_append_left vs ht)
      exact ih t hmem fun u hu => hbelow u (mem_nodesOf.mpr ⟨t, hmem, hu⟩)
    obtain ⟨found, hforest⟩ := exists_searchedForest hfound
    exact ⟨found, hforest.node hus hperm⟩

/-- **What is found is all there is** exactly when no child of any node has been left out. -/
theorem search_perm_iff (htells : ∀ u ∈ t.nodes, Tells next u) :
    ∃ found, (∀ fuel, t.height < fuel → search next fuel t.label = some found) ∧
      (found.Perm t.descendants ↔ ∀ u ∈ t.nodes, TellsAll next u) := by
  obtain ⟨found, hfound⟩ := exists_searched t htells
  refine ⟨found, hfound.returns, ?_⟩
  rw [← hfound.all_iff]
  constructor
  · intro hperm
    exact Nat.le_of_eq hperm.length_eq.symm
  · intro hle
    exact hfound.subperm.perm_of_length_le hle

end RoseTree
