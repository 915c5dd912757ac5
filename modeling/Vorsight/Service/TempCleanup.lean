/-
  CLEANING UP (CleanupOldFilesAsync in Vorsight.Service/Storage/TempFileManager.cs).

  Old screenshots are deleted, and if there were any, the directories that are empty then, from the
  bottom up.  Each deletion may fail; a failed one is only logged.

  1. **Program** — `getFilesOlderThan`, `deleteFiles`, `cleanupEmptyDirectories` on a tree of files
     and directories of any depth.

  2. **What is left** (`mem_cleanupOldFiles`): the directories on the way to what stays.  A file
     stays that is not an old screenshot or cannot be deleted, a directory that cannot be deleted.

  3. **The crux** (`mem_cleanupEmptyDirectories`): an induction over the tree, in which a directory
     is found empty exactly when nothing below it stays.

  4. What `RetryFailedUploadsAsync` takes at a time, a cleanup at that time leaves
     (`retried_stays`).
-/
import Mathlib.Data.List.Infix
import Mathlib.Data.List.Nodup

namespace Service.TempCleanup

inductive Entry
  | file (name : String) (creationTime : Int)
  | directory (name : String) (entries : List Entry)

/-- The names from `_tempPath` on. -/
abbrev Path := List String

/-! ## The tree -/

mutual

/-- The entry and all below it, each with its path, and files with their time. -/
def Entry.nodes (path : Path) : Entry → List (Path × Option Int)
  | .file name creationTime => [(path ++ [name], some creationTime)]
  | .directory name entries => (path ++ [name], none) :: nodesOf (path ++ [name]) entries

/-- What is in the directory `path`. -/
def nodesOf (path : Path) : List Entry → List (Path × Option Int)
  | [] => []
  | e :: es => e.nodes path ++ nodesOf path es

end

def paths (entries : List Entry) : List Path := (nodesOf [] entries).map Prod.fst

/-! ## The program -/

/-- `*.png`; names differ in case only where the letters do. -/
def isPng (path : Path) : Bool :=
  match path.getLast? with
  | some name => ".png".toList.isSuffixOf (name.toList.map Char.toLower)
  | none => false

/-- A file that `GetFiles` lists: in one of the directories of `_tempPath`. -/
def isListed (path : Path) : Bool := 2 ≤ path.length && isPng path

/-- `GetFilesOlderThan`; a `_tempPath` that is not there is one without entries. -/
def getFilesOlderThan (maxAge now : Int) (root : List Entry) : List Path :=
  ((nodesOf [] root).filter fun n => n.2.any fun creationTime =>
    isListed n.1 && creationTime < now - maxAge).map Prod.fst

mutual

def Entry.deleteFiles (deleted : Path → Bool) (path : Path) : Entry → List Entry
  | .file name creationTime =>
    if deleted (path ++ [name]) then [] else [.file name creationTime]
  | .directory name entries => [.directory name (deleteFilesOf deleted (path ++ [name]) entries)]

def deleteFilesOf (deleted : Path → Bool) (path : Path) : List Entry → List Entry
  | [] => []
  | e :: es => e.deleteFiles deleted path ++ deleteFilesOf deleted path es

end

/-- `DeleteFiles`, where `File.Delete` of some of them succeeds. -/
def deleteFiles (canDelete : Path → Bool) (files : List Path) (root : List Entry) : List Entry :=
  deleteFilesOf (fun path => files.contains path && canDelete path) [] root

mutual

/-- What is left of an entry of the directory `path`. -/
def Entry.cleanup (canDelete : Path → Bool) (path : Path) : Entry → List Entry
  | .file name creationTime => [.file name creationTime]
  | .directory name entries =>
    let left := cleanupEmptyDirectories canDelete (path ++ [name]) entries
    if left.isEmpty && canDelete (path ++ [name]) then [] else [.directory name left]

/-- `CleanupEmptyDirectoriesAsync`. -/
def cleanupEmptyDirectories (canDelete : Path → Bool) (path : Path) : List Entry → List Entry
  | [] => []
  | e :: es => e.cleanup canDelete path ++ cleanupEmptyDirectories canDelete path es

end

/-- `CleanupOldFilesAsync` -/
def cleanupOldFiles (canDelete : Path → Bool) (maxAge now : Int) (root : List Entry) :
    List Entry :=
  let filesToDelete := getFilesOlderThan maxAge now root
  if filesToDelete.isEmpty then root
  else cleanupEmptyDirectories canDelete [] (deleteFiles canDelete filesToDelete root)

/-- The condition of `GetFilesInAgeRange`. -/
def isRetried (minAge maxAge now : Int) (path : Path) (creationTime : Int) : Bool :=
  isListed path && (minAge < now - creationTime && now - creationTime < maxAge)

/-! ## Paths in the tree -/

mutual

/-- What is in the directory `path` has a longer path. -/
theorem Entry.prefix_of_mem {path : Path} {n : Path × Option Int} : ∀ {e : Entry},
    n ∈ e.nodes path → ∃ name, path ++ [name] <+: n.1
  | .file name _, h => by
    rw [Entry.nodes, List.mem_singleton] at h
    exact ⟨name, h ▸ List.prefix_rfl⟩
  | .directory name entries, h => by
    rw [Entry.nodes, List.mem_cons] at h
    rcases h with rfl | h
    · exact ⟨name, List.prefix_rfl⟩
    · obtain ⟨name', hprefix⟩ := prefix_of_memOf h
      exact ⟨name, (List.prefix_append _ _).trans hprefix⟩

theorem prefix_of_memOf {path : Path} {n : Path × Option Int} : ∀ {es : List Entry},
    n ∈ nodesOf path es → ∃ name, path ++ [name] <+: n.1
  | [], h => by cases h
  | e :: es, h => by
    rw [nodesOf, List.mem_append] at h
    rcases h with h | h
    · exact Entry.prefix_of_mem h
    · exact prefix_of_memOf h

end

/-! ## Empty directories -/

/-- What the cleanup of the directories leaves alone: files, and what cannot be deleted. -/
def Kept (canDelete : Path → Bool) (n : Path × Option Int) : Prop :=
  n.2 = none → canDelete n.1 = false

/-- `p` is below `path`, on the way to something that is kept. -/
def OnTheWay (canDelete : Path → Bool) (path : Path) (nodes : List (Path × Option Int))
    (p : Path) : Prop :=
  path.length < p.length ∧ ∃ n ∈ nodes, Kept canDelete n ∧ p <+: n.1

theorem onTheWay_append {canDelete : Path → Bool} {path p : Path}
    {nodes nodes' : List (Path × Option Int)} :
    OnTheWay canDelete path (nodes ++ nodes') p ↔
      OnTheWay canDelete path nodes p ∨ OnTheWay canDelete path nodes' p := by
  simp only [OnTheWay, List.mem_append, or_and_right, exists_or, and_or_left]

/-- A path that is longer than `path` and leads through the directory `path ++ [name]` is that
    directory's, or one below it. -/
theorem eq_or_lt_of_prefix {path p q : Path} {name : String} (hlt : path.length < p.length)
    (hp : p <+: q) (hq : path ++ [name] <+: q) :
    p = path ++ [name] ∨ (path ++ [name]).length < p.length := by
  rcases Nat.lt_or_ge (path ++ [name]).length p.length with hlong | hshort
  · exact .inr hlong
  · refine .inl ((List.prefix_of_prefix_length_le hp hq hshort).eq_of_length ?_)
    rw [List.length_append, List.length_singleton] at hshort ⊢
    omega

theorem nodesOf_append (path : Path) (es es' : List Entry) :
    nodesOf path (es ++ es') = nodesOf path es ++ nodesOf path es' := by
  induction es with
  | nil => rfl
  | cons e es ih => rw [List.cons_append, nodesOf, nodesOf, ih, List.append_assoc]

theorem nodesOf_singleton (path : Path) (e : Entry) : nodesOf path [e] = e.nodes path := by
  rw [nodesOf, nodesOf, List.append_nil]

/-- A directory without paths is empty. -/
theorem isEmpty_iff {path : Path} {es : List Entry} :
    es.isEmpty = true ↔ nodesOf path es = [] := by
  cases es with
  | nil => simp [nodesOf]
  | cons e es => cases e <;> simp [nodesOf, Entry.nodes]

theorem length_lt_of_mem {path : Path} {es : List Entry} {n : Path × Option Int}
    (hn : n ∈ nodesOf path es) : path.length < n.1.length ∧ path <+: n.1 := by
  obtain ⟨name, hname⟩ := prefix_of_memOf hn
  have hle := hname.length_le
  rw [List.length_append, List.length_singleton] at hle
  exact ⟨by omega, (List.prefix_append _ _).trans hname⟩

/-- Where the paths that are left are those on the way to what is kept, a directory is found empty
    exactly when nothing in it is kept. -/
theorem isEmpty_iff_of {canDelete : Path → Bool} {path : Path} {left es : List Entry}
    (h : ∀ p, p ∈ (nodesOf path left).map Prod.fst ↔ OnTheWay canDelete path (nodesOf path es) p) :
    left.isEmpty = true ↔ ∀ n ∈ nodesOf path es, ¬ Kept canDelete n := by
  rw [@isEmpty_iff path]
  constructor
  · intro hnil n hn hkept
    have hmem := (h n.1).mpr ⟨(length_lt_of_mem hn).1, n, hn, hkept, List.prefix_rfl⟩
    rw [hnil] at hmem
    cases hmem
  · intro hnone
    rw [List.eq_nil_iff_forall_not_mem]
    intro n hn
    obtain ⟨-, k, hk, hkept, -⟩ := (h n.1).mp (List.mem_map_of_mem hn)
    exact hnone k hk hkept

/-- The step of the induction: a directory, whose entries have been cleaned up. -/
theorem mem_directory {canDelete : Path → Bool} {path p : Path} {name : String}
    {left es : List Entry}
    (h : ∀ p, p ∈ (nodesOf (path ++ [name]) left).map Prod.fst ↔
      OnTheWay canDelete (path ++ [name]) (nodesOf (path ++ [name]) es) p) :
    p ∈ (nodesOf path
        (if left.isEmpty && canDelete (path ++ [name]) then []
          else [.directory name left])).map Prod.fst ↔
      OnTheWay canDelete path ((path ++ [name], none) :: nodesOf (path ++ [name]) es) p := by
  have hempty := isEmpty_iff_of h
  have hsplit : OnTheWay canDelete path ((path ++ [name], none) :: nodesOf (path ++ [name]) es) p →
      p = path ++ [name] ∨
        OnTheWay canDelete (path ++ [name]) (nodesOf (path ++ [name]) es) p := by
    rintro ⟨hlt, n, hn, hkept, hprefix⟩
    rcases List.mem_cons.mp hn with rfl | hn
    · rcases eq_or_lt_of_prefix hlt hprefix List.prefix_rfl with heq | hlong
      · exact .inl heq
      · exact absurd hprefix.length_le (Nat.not_le.mpr hlong)
    · obtain ⟨name', hname'⟩ := prefix_of_memOf hn
      rcases eq_or_lt_of_prefix hlt hprefix ((List.prefix_append _ _).trans hname') with
        heq | hlong
      · exact .inl heq
      · exact .inr ⟨hlong, n, hn, hkept, hprefix⟩
  split
  · next hgone =>
    -- nothing is kept: neither the directory, nor anything in it
    rw [Bool.and_eq_true, hempty] at hgone
    simp only [nodesOf, List.map_nil, List.not_mem_nil, false_iff]
    rintro ⟨-, n, hn, hkept, -⟩
    rcases List.mem_cons.mp hn with rfl | hn
    · rw [hkept rfl] at hgone
      cases hgone.2
    · exact hgone.1 n hn hkept
  · next hleft =>
    rw [nodesOf_singleton, Entry.nodes, List.map_cons, List.mem_cons, h]
    constructor
    · rintro (rfl | ⟨hlt, n, hn, hkept, hprefix⟩)
      · refine ⟨by simp, ?_⟩
        by_cases hdelete : canDelete (path ++ [name]) = true
        · rw [hdelete, Bool.and_true, hempty] at hleft
          push Not at hleft
          obtain ⟨n, hn, hkept⟩ := hleft
          exact ⟨n, List.mem_cons_of_mem _ hn, hkept, (length_lt_of_mem hn).2⟩
        · exact ⟨_, List.mem_cons_self, fun _ => Bool.not_eq_true _ ▸ hdelete, List.prefix_rfl⟩
      · refine ⟨?_, n, List.mem_cons_of_mem _ hn, hkept, hprefix⟩
        rw [List.length_append, List.length_singleton] at hlt
        omega
    · exact hsplit

mutual

theorem Entry.mem_cleanup {canDelete : Path → Bool} {path p : Path} : ∀ {e : Entry},
    p ∈ (nodesOf path (e.cleanup canDelete path)).map Prod.fst ↔
      OnTheWay canDelete path (e.nodes path) p
  | .file name creationTime => by
    simp only [Entry.cleanup, nodesOf, Entry.nodes, List.append_nil, List.map_cons, List.map_nil,
      List.mem_singleton, OnTheWay, Kept, exists_eq_left]
    constructor
    · rintro rfl
      simp
    · rintro ⟨hlt, -, hprefix⟩
      rcases eq_or_lt_of_prefix hlt hprefix List.prefix_rfl with heq | hlong
      · exact heq
      · exact absurd hprefix.length_le (Nat.not_le.mpr hlong)
  | .directory name entries => by
    rw [Entry.cleanup, Entry.nodes]
    exact mem_directory fun _ => mem_cleanupEmptyDirectories

/-- **The crux**: a path is left exactly when it is on the way to something that is kept. -/
theorem mem_cleanupEmptyDirectories {canDelete : Path → Bool} {path p : Path} :
    ∀ {es : List Entry},
      p ∈ (nodesOf path (cleanupEmptyDirectories canDelete path es)).map Prod.fst ↔
        OnTheWay canDelete path (nodesOf path es) p
  | [] => by simp [cleanupEmptyDirectories, nodesOf, OnTheWay]
  | e :: es => by
    rw [cleanupEmptyDirectories, nodesOf_append, List.map_append, List.mem_append,
      Entry.mem_cleanup, mem_cleanupEmptyDirectories, nodesOf, onTheWay_append]

end

/-! ## Old files -/

/-- `DeleteFiles` leaves an entry alone. -/
def Undeleted (deleted : Path → Bool) (n : Path × Option Int) : Bool :=
  n.2.isNone || !deleted n.1

mutual

theorem Entry.nodes_deleteFiles (deleted : Path → Bool) (path : Path) : ∀ e : Entry,
    nodesOf path (e.deleteFiles deleted path) = (e.nodes path).filter (Undeleted deleted)
  | .file name creationTime => by
    rw [Entry.deleteFiles, Entry.nodes]
    by_cases h : deleted (path ++ [name]) = true
    · simp [h, Undeleted, nodesOf]
    · simp [h, Undeleted, nodesOf, Entry.nodes]
  | .directory name entries => by
    rw [Entry.deleteFiles, nodesOf_singleton, Entry.nodes, Entry.nodes, nodesOf_deleteFilesOf,
      List.filter_cons_of_pos (by simp [Undeleted])]

theorem nodesOf_deleteFilesOf (deleted : Path → Bool) (path : Path) : ∀ es : List Entry,
    nodesOf path (deleteFilesOf deleted path es) = (nodesOf path es).filter (Undeleted deleted)
  | [] => rfl
  | e :: es => by
    rw [deleteFilesOf, nodesOf_append, Entry.nodes_deleteFiles, nodesOf_deleteFilesOf, nodesOf,
      List.filter_append]

end

/-- An entry that a cleanup leaves: a file that is no old screenshot or cannot be deleted, a
    directory that cannot be deleted. -/
def Stays (canDelete : Path → Bool) (maxAge now : Int) (n : Path × Option Int) : Prop :=
  match n.2 with
  | some creationTime =>
    isListed n.1 = true → creationTime < now - maxAge → canDelete n.1 = false
  | none => canDelete n.1 = false

mutual

theorem Entry.mem_of_prefix {path p : Path} {n : Path × Option Int} : ∀ {e : Entry},
    n ∈ e.nodes path → p <+: n.1 → path.length < p.length → p ∈ (e.nodes path).map Prod.fst
  | .file name creationTime, hn, hprefix, hlt => by
    rw [Entry.nodes, List.mem_singleton] at hn
    subst hn
    rcases eq_or_lt_of_prefix hlt hprefix List.prefix_rfl with rfl | hlong
    · simp [Entry.nodes]
    · exact absurd hprefix.length_le (Nat.not_le.mpr hlong)
  | .directory name entries, hn, hprefix, hlt => by
    have hname : path ++ [name] <+: n.1 := by
      rw [Entry.nodes, List.mem_cons] at hn
      rcases hn with rfl | hn
      · exact List.prefix_rfl
      · exact (length_lt_of_mem hn).2
    rw [Entry.nodes, List.map_cons, List.mem_cons]
    rcases eq_or_lt_of_prefix hlt hprefix hname with heq | hlong
    · exact .inl heq
    · rw [Entry.nodes, List.mem_cons] at hn
      rcases hn with rfl | hn
      · exact absurd hprefix.length_le (Nat.not_le.mpr hlong)
      · exact .inr (mem_of_prefixOf hn hprefix hlong)

/-- The way to what is in the tree is in the tree. -/
theorem mem_of_prefixOf {path p : Path} {n : Path × Option Int} : ∀ {es : List Entry},
    n ∈ nodesOf path es → p <+: n.1 → path.length < p.length → p ∈ (nodesOf path es).map Prod.fst
  | [], hn, _, _ => by cases hn
  | e :: es, hn, hprefix, hlt => by
    rw [nodesOf, List.map_append, List.mem_append]
    rw [nodesOf, List.mem_append] at hn
    rcases hn with hn | hn
    · exact .inl (Entry.mem_of_prefix hn hprefix hlt)
    · exact .inr (mem_of_prefixOf hn hprefix hlt)

end

/-! ## What is left -/

section Left

variable {canDelete : Path → Bool} {maxAge now : Int} {root : List Entry}

theorem mem_getFilesOlderThan {path : Path} : path ∈ getFilesOlderThan maxAge now root ↔
    ∃ creationTime, (path, some creationTime) ∈ nodesOf [] root ∧ isListed path = true ∧
      creationTime < now - maxAge := by
  simp only [getFilesOlderThan, List.mem_map, List.mem_filter, Option.any_eq_true,
    Bool.and_eq_true, decide_eq_true_iff, Prod.exists, exists_and_right, exists_eq_right]
  constructor
  · rintro ⟨_, hmem, t, rfl, hlisted, hold⟩
    exact ⟨t, hmem, hlisted, hold⟩
  · rintro ⟨t, hmem, hlisted, hold⟩
    exact ⟨some t, hmem, t, rfl, hlisted, hold⟩

/-- Names in a directory are distinct: a path has one entry. -/
theorem eq_of_path (hnodup : (paths root).Nodup) {path : Path} {k k' : Option Int}
    (h : (path, k) ∈ nodesOf [] root) (h' : (path, k') ∈ nodesOf [] root) : k = k' := by
  have heq := List.inj_on_of_nodup_map hnodup h h' rfl
  exact congrArg Prod.snd heq

/-- What survives the deletions and is kept by the cleanup of the directories is what stays. -/
theorem stays_iff (hnodup : (paths root).Nodup) {n : Path × Option Int}
    (hn : n ∈ nodesOf [] root) :
    Undeleted (fun path => (getFilesOlderThan maxAge now root).contains path && canDelete path) n =
        true ∧ Kept canDelete n ↔ Stays canDelete maxAge now n := by
  obtain ⟨path, creationTime⟩ := n
  cases creationTime with
  | none => simp [Undeleted, Kept, Stays]
  | some t =>
    have hold : path ∈ getFilesOlderThan maxAge now root ↔
        isListed path = true ∧ t < now - maxAge := by
      rw [mem_getFilesOlderThan]
      constructor
      · rintro ⟨t', hmem, hlisted, hlt⟩
        cases eq_of_path hnodup hn hmem
        exact ⟨hlisted, hlt⟩
      · rintro ⟨hlisted, hlt⟩
        exact ⟨t, hn, hlisted, hlt⟩
    have hkept : Kept canDelete (path, some t) := nofun
    simp only [Undeleted, Option.isNone_some, Bool.false_or, hkept, and_true, Stays]
    rw [Bool.not_eq_true', Bool.and_eq_false_iff, List.contains_eq_mem, decide_eq_false_iff_not,
      hold]
    by_cases hboth : isListed path = true ∧ t < now - maxAge
    · simp [hboth]
    · exact iff_of_true (.inl hboth) fun hlisted hlt => absurd ⟨hlisted, hlt⟩ hboth

/-- **What a cleanup leaves**: everything if there is no old screenshot, and otherwise what stays,
    with the directories on the way to it. -/
theorem mem_cleanupOldFiles (hnodup : (paths root).Nodup) {p : Path} :
    p ∈ paths (cleanupOldFiles canDelete maxAge now root) ↔
      p ∈ paths root ∧ (getFilesOlderThan maxAge now root = [] ∨
        ∃ n ∈ nodesOf [] root, Stays canDelete maxAge now n ∧ p <+: n.1) := by
  rw [cleanupOldFiles]
  split
  · next hempty =>
    rw [List.isEmpty_iff] at hempty
    simp [hempty]
  · next hsome =>
    rw [List.isEmpty_iff] at hsome
    rw [paths, mem_cleanupEmptyDirectories, deleteFiles, nodesOf_deleteFilesOf, OnTheWay]
    simp only [hsome, false_or, List.mem_filter]
    constructor
    · rintro ⟨hlt, n, ⟨hn, hundeleted⟩, hkept, hprefix⟩
      exact ⟨mem_of_prefixOf hn hprefix hlt, n, hn, (stays_iff hnodup hn).mp ⟨hundeleted, hkept⟩,
        hprefix⟩
    · rintro ⟨hp, n, hn, hstays, hprefix⟩
      obtain ⟨m, hm, rfl⟩ := List.mem_map.mp hp
      obtain ⟨hundeleted, hkept⟩ := (stays_iff hnodup hn).mpr hstays
      exact ⟨(length_lt_of_mem hm).1, n, ⟨hn, hundeleted⟩, hkept, hprefix⟩

/-- A tree with an old screenshot, one that is in use, a text and two empty directories. -/
def sample : List Entry :=
  [.directory "2024-01-01" [.file "a.png" 1, .directory "empty" []],
    .directory "2024-01-02" [.file "b.PNG" 2, .file "notes.txt" 0],
    .directory "2024-01-03" [.directory "deep" [.file "c.png" 3]], .file "root.png" 0]

theorem mem_cleanupOldFiles_sample : ["2024-01-03", "deep"] ∈
    paths (cleanupOldFiles (· ≠ ["2024-01-03", "deep", "c.png"]) 10 100 sample) :=
  (mem_cleanupOldFiles (by decide +kernel)).mpr ⟨by decide +kernel, .inr
    ⟨(["2024-01-03", "deep", "c.png"], some 3), by decide +kernel, fun _ _ => by decide +kernel,
      by decide +kernel⟩⟩

example : paths (cleanupOldFiles (· ≠ ["2024-01-03", "deep", "c.png"]) 10 100 sample) =
    [["2024-01-02"], ["2024-01-02", "notes.txt"], ["2024-01-03"], ["2024-01-03", "deep"],
      ["2024-01-03", "deep", "c.png"], ["root.png"]] := by decide +kernel

/-- **What is retried is left**: a file that `RetryFailedUploadsAsync` takes at this time, with its
    directories. -/
theorem retried_stays (hnodup : (paths root).Nodup) {minAge creationTime : Int} {path : Path}
    (hfile : (path, some creationTime) ∈ nodesOf [] root)
    (hretried : isRetried minAge maxAge now path creationTime = true) :
    path ∈ paths (cleanupOldFiles canDelete maxAge now root) := by
  refine (mem_cleanupOldFiles hnodup).mpr ⟨List.mem_map_of_mem hfile, .inr ⟨_, hfile, ?_,
    List.prefix_rfl⟩⟩
  intro _ hold
  simp only [isRetried, Bool.and_eq_true, decide_eq_true_iff] at hretried
  omega

end Left

end Service.TempCleanup
