/-
  FINDING THE SCREENSHOT FOLDERS (Vorsight.Service/Storage/GoogleDriveService.cs).

  `GetAllSubfoldersAsync` lists the subfolders of a folder and then those of each of them.  It asks
  for a hundred at a time and takes the first answer for all of it: its `Fields` leave the
  continuation token out.

  1. **Drive** (`Drive`): whatever answers the requests.  `Answers` is what is relied on: a request
     gets part of what matches, at most a page of it, with a token if that is not all.

  2. `discovered_iff`: each folder below the root is found exactly once, and the screenshots are
     looked for in all of them, exactly when no folder's subfolders need a second page.  Where Drive
     fills its pages, this is when no folder has more than a hundred (`discovered_iff_of_filled`).
-/
import Mathlib.Data.List.Nodup
import Vorsight.Library.RoseTree

namespace Service.FolderDiscovery

structure ListRequest where
  q : String
  fields : String
  orderBy : Option String := none
  pageSize : Option Nat := none
deriving DecidableEq, Repr

/-- What Drive has for a request, with the files' ids.  The token is there whether or not `fields`
    ask for it; the code never sees it. -/
structure FileList where
  files : Option (List String) := none
  nextPageToken : Option String := none
deriving DecidableEq, Repr

def FileList.ids (result : FileList) : List String := result.files.getD []

/-- `ExecuteAsync` of a `Files.List`; `none` if it throws. -/
structure Drive where
  list : ListRequest → Option FileList

/-! ## The code -/

def subfoldersRequest (parentFolderId : String) : ListRequest where
  q := "mimeType = 'application/vnd.google-apps.folder' and '" ++ parentFolderId ++
    "' in parents and trashed = false"
  fields := "files(id)"
  pageSize := some 100

/-- The recursion, whose depth the fuel bounds. -/
def getAllSubfoldersAsync (service : Drive) : Nat → String → Option (List String)
  | 0, _ => none
  | fuel + 1, parentFolderId =>
    match service.list (subfoldersRequest parentFolderId) with
    | none => some []
    | some result =>
      match result.files with
      | none => some []
      | some files => files.foldlM (fun folderIds folder =>
          (getAllSubfoldersAsync service fuel folder).map fun subfolders =>
            folderIds ++ folder :: subfolders) []

def vorsightRequest : ListRequest where
  q := "mimeType = 'application/vnd.google-apps.folder' and name = 'Vorsight' and trashed = false"
  fields := "files(id)"

def screenshotsRequest (allFolders : List String) (limit : Nat) : ListRequest where
  q := "mimeType = 'image/png' and (" ++
    " or ".intercalate (allFolders.map fun f => "'" ++ f ++ "' in parents") ++
    ") and trashed = false"
  fields := "files(id, name, createdTime, webViewLink, webContentLink, thumbnailLink)"
  orderBy := some "createdTime desc"
  pageSize := some limit

/-- `allFolders`, the folders in which screenshots are looked for. -/
def searchedFolders (service : Drive) (fuel : Nat) (vorsightFolderId : String) :
    Option (List String) :=
  (getAllSubfoldersAsync service fuel vorsightFolderId).map (vorsightFolderId :: ·)

/-- The ids of the screenshots; an exception gives none. -/
def listScreenshotsAsync (service : Drive) (fuel limit : Nat) : Option (List String) :=
  match service.list vorsightRequest with
  | none => some []
  | some folders =>
    match folders.ids.head? with
    | none => some []
    | some vorsightFolderId =>
      (searchedFolders service fuel vorsightFolderId).map fun allFolders =>
        ((service.list (screenshotsRequest allFolders limit)).map FileList.ids).getD []

/-! ## Drive's folders -/

/-- A finite tree of folders, each with an id of its own. -/
structure FolderTree where
  root : RoseTree String
  nodup : root.labels.Nodup

/-- What is relied on: at most a page of what matches, and a token if that is not all. -/
def Answers (result : FileList) (pageSize : Nat) (matching : List String) : Prop :=
  ∃ rest, (result.ids ++ rest).Perm matching ∧ result.ids.length ≤ pageSize ∧
    (result.nextPageToken = none ↔ rest = [])

/-- No request fails, and each is answered. -/
def Serves (service : Drive) (tree : FolderTree) : Prop :=
  ∀ folder ∈ tree.root.nodes, ∃ result,
    service.list (subfoldersRequest folder.label) = some result ∧
      Answers result 100 (folder.subtrees.map RoseTree.label)

/-- Every folder below the root is found, and once, and nothing else is. -/
def Discovered (service : Drive) (fuel : Nat) (tree : FolderTree) : Prop :=
  ∃ folderIds, getAllSubfoldersAsync service fuel tree.root.label = some folderIds ∧
    ∀ id, folderIds.count id = if id ∈ tree.root.descendants then 1 else 0

/-- The screenshots are looked for in the whole tree. -/
def SearchesAll (service : Drive) (fuel : Nat) (tree : FolderTree) : Prop :=
  ∃ allFolders, searchedFolders service fuel tree.root.label = some allFolders ∧
    ∀ id ∈ tree.root.labels, id ∈ allFolders

/-- The first page of the folder's subfolders has them all. -/
def OnePage (service : Drive) (folder : RoseTree String) : Prop :=
  ∀ result, service.list (subfoldersRequest folder.label) = some result →
    result.nextPageToken = none

/-! ## The recursion as a search -/

variable {service : Drive} {tree : FolderTree} {fuel : Nat}

/-- The subfolders that the code is told of. -/
def Drive.subfolders (service : Drive) (parentFolderId : String) : List String :=
  ((service.list (subfoldersRequest parentFolderId)).map FileList.ids).getD []

theorem getAllSubfoldersAsync_eq (fuel : Nat) (parentFolderId : String) :
    getAllSubfoldersAsync service fuel parentFolderId =
      RoseTree.search service.subfolders fuel parentFolderId := by
  induction fuel generalizing parentFolderId with
  | zero => rfl
  | succ fuel ih =>
    rw [getAllSubfoldersAsync, RoseTree.search, Drive.subfolders]
    cases hlist : service.list (subfoldersRequest parentFolderId) with
    | none => rfl
    | some result =>
      cases hfiles : result.files with
      | none => simp [FileList.ids, hfiles]
      | some files =>
        simp only [FileList.ids, hfiles, ih, Option.map_some, Option.getD_some]

theorem subfolders_eq {folder : String} {result : FileList}
    (h : service.list (subfoldersRequest folder) = some result) :
    service.subfolders folder = result.ids := by
  rw [Drive.subfolders, h]
  rfl

theorem Serves.tells (h : Serves service tree) :
    ∀ folder ∈ tree.root.nodes, RoseTree.Tells service.subfolders folder := by
  intro folder hfolder
  obtain ⟨result, hlist, rest, hperm, -, -⟩ := h folder hfolder
  rw [← subfolders_eq hlist] at hperm
  exact ⟨rest, hperm⟩

/-- A folder is told whole when there is no token. -/
theorem Serves.tellsAll_iff (h : Serves service tree) {folder : RoseTree String}
    (hfolder : folder ∈ tree.root.nodes) :
    RoseTree.TellsAll service.subfolders folder ↔ OnePage service folder := by
  obtain ⟨result, hlist, rest, hperm, -, htoken⟩ := h folder hfolder
  rw [← subfolders_eq hlist] at hperm
  rw [RoseTree.tellsAll_iff hperm, ← htoken, OnePage, hlist]
  constructor
  · rintro hnone result' hresult
    cases hresult
    exact hnone
  · intro hall
    exact hall result rfl

/-! ## When everything is found -/

theorem FolderTree.nodup_descendants (tree : FolderTree) : tree.root.descendants.Nodup := by
  have hnodup := tree.nodup
  rw [RoseTree.labels_eq] at hnodup
  exact (List.nodup_cons.mp hnodup).2

/-- Ids are distinct, so that each folder once is a permutation of the folders. -/
theorem count_iff_perm {folderIds : List String} :
    (∀ id, folderIds.count id = if id ∈ tree.root.descendants then 1 else 0) ↔
      folderIds.Perm tree.root.descendants := by
  rw [List.perm_iff_count]
  refine forall_congr' fun id => ?_
  rw [tree.nodup_descendants.count]

/-- The recursion ends, and finds every folder exactly when there is never a second page. -/
theorem getAllSubfoldersAsync_perm_iff (hserves : Serves service tree) :
    ∃ folderIds, (∀ fuel, tree.root.height < fuel →
        getAllSubfoldersAsync service fuel tree.root.label = some folderIds) ∧
      (folderIds.Perm tree.root.descendants ↔
        ∀ folder ∈ tree.root.nodes, OnePage service folder) := by
  obtain ⟨folderIds, hreturns, hperm⟩ := RoseTree.search_perm_iff hserves.tells
  refine ⟨folderIds, fun fuel hfuel => ?_, ?_⟩
  · rw [getAllSubfoldersAsync_eq]
    exact hreturns fuel hfuel
  · rw [hperm]
    exact forall₂_congr fun folder hfolder => hserves.tellsAll_iff hfolder

/-- What is searched is the root and what has been found. -/
theorem searchesAll_of_discovered (h : Discovered service fuel tree) :
    SearchesAll service fuel tree := by
  obtain ⟨folderIds, hreturns, hcount⟩ := h
  refine ⟨tree.root.label :: folderIds, by rw [searchedFolders, hreturns, Option.map_some], ?_⟩
  intro id hid
  rw [RoseTree.labels_eq] at hid
  rcases List.mem_cons.mp hid with rfl | hid
  · exact List.mem_cons_self
  · have hone := hcount id
    rw [if_pos hid] at hone
    exact List.mem_cons_of_mem _ (List.count_pos_iff.mp (by omega))

/-- The request for the screenshots then names every folder of the tree once. -/
theorem listScreenshotsAsync_of_discovered {folders : FileList} {limit : Nat}
    (hvorsight : service.list vorsightRequest = some folders)
    (hroot : folders.ids.head? = some tree.root.label) (h : Discovered service fuel tree) :
    ∃ allFolders, allFolders.Perm tree.root.labels ∧
      listScreenshotsAsync service fuel limit =
        some (((service.list (screenshotsRequest allFolders limit)).map FileList.ids).getD []) := by
  obtain ⟨folderIds, hreturns, hcount⟩ := h
  refine ⟨tree.root.label :: folderIds, ?_, ?_⟩
  · rw [RoseTree.labels_eq]
    exact (count_iff_perm.mp hcount).cons _
  · simp only [listScreenshotsAsync, hvorsight, hroot, searchedFolders, hreturns, Option.map_some]

/-- **Folder discovery** ends in every tree.  It is complete, and the screenshots are looked for in
    every folder, exactly when no folder's subfolders go on on a second page. -/
theorem discovered_iff (hserves : Serves service tree) (hfuel : tree.root.height < fuel) :
    (∃ folderIds, getAllSubfoldersAsync service fuel tree.root.label = some folderIds) ∧
      (Discovered service fuel tree ∧ SearchesAll service fuel tree ↔
        ∀ folder ∈ tree.root.nodes, OnePage service folder) := by
  obtain ⟨folderIds, hreturns, hperm⟩ := getAllSubfoldersAsync_perm_iff hserves
  have hids := hreturns fuel hfuel
  refine ⟨⟨folderIds, hids⟩, ?_⟩
  rw [← hperm]
  constructor
  · rintro ⟨⟨folderIds', hids', hcount⟩, -⟩
    cases hids.symm.trans hids'
    exact count_iff_perm.mp hcount
  · intro hall
    have hdiscovered : Discovered service fuel tree := ⟨folderIds, hids, count_iff_perm.mpr hall⟩
    exact ⟨hdiscovered, searchesAll_of_discovered hdiscovered⟩

/-- Drive fills its pages. -/
def Filled (service : Drive) (tree : FolderTree) : Prop :=
  ∀ folder ∈ tree.root.nodes, ∀ result,
    service.list (subfoldersRequest folder.label) = some result →
      result.ids.length = min 100 folder.subtrees.length

/-- **A hundred subfolders**: as many as any folder may have where Drive fills its pages. -/
theorem discovered_iff_of_filled (hserves : Serves service tree) (hfilled : Filled service tree)
    (hfuel : tree.root.height < fuel) :
    Discovered service fuel tree ↔ ∀ folder ∈ tree.root.nodes, folder.subtrees.length ≤ 100 := by
  obtain ⟨folderIds, hreturns, hperm⟩ := getAllSubfoldersAsync_perm_iff hserves
  have hids := hreturns fuel hfuel
  have hdiscovered : Discovered service fuel tree ↔ folderIds.Perm tree.root.descendants := by
    rw [← count_iff_perm, Discovered, hids]
    simp only [Option.some_inj, exists_eq_left']
  rw [hdiscovered, hperm]
  refine forall₂_congr fun folder hfolder => ?_
  obtain ⟨result, hlist, -⟩ := hserves folder hfolder
  have hlength := hfilled folder hfolder result hlist
  rw [← hserves.tellsAll_iff hfolder, RoseTree.TellsAll, subfolders_eq hlist]
  omega

/-! ## Two trees -/

theorem subfoldersRequest_inj {a b : String} (h : subfoldersRequest a = subfoldersRequest b) :
    a = b := by
  have hq := congrArg ListRequest.q h
  exact (String.append_right_inj _).mp ((String.append_left_inj _).mp hq)

/-- A Drive with these first pages, where the other folders are empty. -/
def withPages (pages : List (String × FileList)) : Drive where
  list request :=
    some (((pages.find? fun page => request = subfoldersRequest page.1).map (·.2)).getD {})

theorem withPages_list (pages : List (String × FileList)) (folder : String) :
    (withPages pages).list (subfoldersRequest folder) =
      some (((pages.find? fun page => folder = page.1).map (·.2)).getD {}) := by
  have hsame : (fun page : String × FileList =>
      decide (subfoldersRequest folder = subfoldersRequest page.1)) =
        fun page => decide (folder = page.1) := by
    funext page
    exact decide_eq_decide.mpr ⟨subfoldersRequest_inj, congrArg subfoldersRequest⟩
  simp only [withPages, hsame]

/-- A machine's folder, and in it one day's. -/
def oneDay : FolderTree where
  root := .node "root" [.node "desk" [.node "day" []]]
  nodup := by decide

def oneDayDrive : Drive :=
  withPages [("root", { files := some ["desk"] }), ("desk", { files := some ["day"] })]

theorem discovered_oneDay : Discovered oneDayDrive 3 oneDay ∧ SearchesAll oneDayDrive 3 oneDay := by
  have hroot : oneDayDrive.list (subfoldersRequest "root") = some { files := some ["desk"] } :=
    withPages_list _ "root"
  have hdesk : oneDayDrive.list (subfoldersRequest "desk") = some { files := some ["day"] } :=
    withPages_list _ "desk"
  have hday : oneDayDrive.list (subfoldersRequest "day") = some {} := withPages_list _ "day"
  have hfolders : oneDay.root.nodes =
      [oneDay.root, .node "desk" [.node "day" []], .node "day" []] := rfl
  have hserves : Serves oneDayDrive oneDay := by
    intro folder hfolder
    rw [hfolders] at hfolder
    simp only [List.mem_cons, List.not_mem_nil, or_false] at hfolder
    rcases hfolder with rfl | rfl | rfl
    · exact ⟨_, hroot, [], .refl _, by decide, by decide⟩
    · exact ⟨_, hdesk, [], .refl _, by decide, by decide⟩
    · exact ⟨_, hday, [], .refl _, by decide, by decide⟩
  refine (discovered_iff hserves (by decide)).2.mpr ?_
  intro folder hfolder result hlist
  rw [hfolders] at hfolder
  simp only [List.mem_cons, List.not_mem_nil, or_false] at hfolder
  rcases hfolder with rfl | rfl | rfl
  · cases hroot.symm.trans hlist
    rfl
  · cases hdesk.symm.trans hlist
    rfl
  · cases hday.symm.trans hlist
    rfl

/-- The id of one of many folders. -/
def numbered (i : Nat) : String := String.ofList (List.replicate (i + 1) 'd')

theorem numbered_injective : Function.Injective numbered := by
  intro i j h
  have hlength := congrArg List.length (String.ofList_injective h)
  rw [List.length_replicate, List.length_replicate] at hlength
  omega

theorem nodesOf_leaves (f : Nat → String) (l : List Nat) :
    RoseTree.nodesOf (l.map fun i => .node (f i) []) = l.map fun i => .node (f i) [] := by
  induction l with
  | nil => rfl
  | cons i l ih =>
    rw [List.map_cons, RoseTree.nodesOf, ih]
    rfl

/-- A folder for each of 101 machines. -/
def machinesRoot : RoseTree String :=
  .node (numbered 0) ((List.range 101).map fun i => .node (numbered (i + 1)) [])

theorem nodup_machinesRoot : machinesRoot.labels.Nodup := by
  rw [machinesRoot, RoseTree.labels_eq, RoseTree.descendants, RoseTree.subtrees_node,
    nodesOf_leaves, List.map_map, List.nodup_cons]
  refine ⟨fun hmem => ?_, ?_⟩
  · obtain ⟨i, -, hi⟩ := List.mem_map.mp hmem
    have hzero := numbered_injective hi
    omega
  · refine List.Nodup.map (fun i j h => ?_) List.nodup_range
    exact Nat.succ_inj.mp (numbered_injective h)

def machines : FolderTree := ⟨machinesRoot, nodup_machinesRoot⟩

/-- All but the last of the machines' folders, and a token. -/
def firstPage : FileList where
  files := some ((List.range 100).map fun i => numbered (i + 1))
  nextPageToken := some "more"

def machinesDrive : Drive := withPages [(numbered 0, firstPage)]

theorem machinesDrive_root :
    machinesDrive.list (subfoldersRequest (numbered 0)) = some firstPage := by
  rw [machinesDrive, withPages_list, List.find?_cons_of_pos (by simp)]
  rfl

theorem serves_machines : Serves machinesDrive machines := by
  intro folder hfolder
  rw [RoseTree.nodes_eq] at hfolder
  rcases List.mem_cons.mp hfolder with rfl | hfolder
  · refine ⟨firstPage, machinesDrive_root, [numbered 101], ?_, ?_, by decide⟩
    · have hsubfolders : machines.root.subtrees.map RoseTree.label =
          (List.range 101).map fun i => numbered (i + 1) := by
        show machinesRoot.subtrees.map RoseTree.label = _
        rw [machinesRoot, RoseTree.subtrees_node, List.map_map]
        rfl
      rw [hsubfolders, List.range_succ, List.map_append]
      exact .refl _
    · have hlength : firstPage.ids.length = 100 := by
        rw [FileList.ids, firstPage, Option.getD_some, List.length_map, List.length_range]
      exact Nat.le_of_eq hlength
  · replace hfolder : folder ∈ RoseTree.nodesOf machinesRoot.subtrees := hfolder
    rw [machinesRoot, RoseTree.subtrees_node, nodesOf_leaves] at hfolder
    obtain ⟨i, -, rfl⟩ := List.mem_map.mp hfolder
    have hother : numbered (i + 1) ≠ numbered 0 := fun h => by
      have hzero := numbered_injective h
      omega
    refine ⟨{}, ?_, [], .refl _, by decide, by decide⟩
    rw [RoseTree.label_node, machinesDrive, withPages_list,
      List.find?_cons_of_neg (by simpa using hother)]
    rfl

/-- The folder of the last machine is on the second page. -/
theorem not_discovered_machines : ¬ ∀ (service : Drive) (tree : FolderTree) (fuel : Nat),
    Serves service tree → tree.root.height < fuel → Discovered service fuel tree := by
  intro h
  obtain ⟨folderIds, hreturns, hperm⟩ := getAllSubfoldersAsync_perm_iff serves_machines
  obtain ⟨folderIds', hids, hcount⟩ :=
    h machinesDrive machines _ serves_machines (Nat.lt_succ_self _)
  cases (hreturns _ (Nat.lt_succ_self _)).symm.trans hids
  have hroot : machines.root ∈ machines.root.nodes := by
    rw [RoseTree.nodes_eq]
    exact List.mem_cons_self
  have htoken := hperm.mp (count_iff_perm.mp hcount) _ hroot firstPage machinesDrive_root
  cases htoken

end Service.FolderDiscovery
