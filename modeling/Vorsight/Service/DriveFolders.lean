/-
  THE FOLDERS OF THE UPLOADS (Vorsight.Service/Storage/GoogleDriveService.cs).

  An upload goes to `Vorsight/{machine}/{date}`.  `GetOrCreateFolderAsync` walks the path, and at
  each part looks for the folder and creates it when the search finds nothing.  Drive lets any
  number of folders have one name and one parent, and all machines share it.

  1. **Program** — `folderPath`, `pathParts`, and the walk as a state machine of each client.  A
     search is one request and a creation another; each may fail, a creation also after it has taken
     effect.

  2. **Where a file goes** (`stored_leads`): in every run it is stored in a folder whose chain of
     parents has the names of its path.

  3. **One folder for each path** (`one_folder`): files with one path go to one folder as long as no
     client finds a folder missing while another is about to create it.  Two clients that are about
     to create one folder make two (`not_one_of_pair`).
-/
import Vorsight.Library.FindOrCreate
import Vorsight.Library.Run
import Vorsight.Service.ScreenshotHandler

namespace Service.DriveFolders

open FindOrCreate Runs ScreenshotHandler Time

/-! ## Paths -/

/-- What is uploaded: a screenshot with the clock's reading, or a session's summary. -/
inductive Upload
  | screenshot (now : Civil)
  | sessionSummary
deriving DecidableEq, Repr

/-- `targetFolder ?? $"Vorsight/{machineName}/{DateTime.Now:yyyy-MM-dd}"`. -/
def folderPath (machineName : String) : Upload → String
  | .screenshot now => "Vorsight/" ++ machineName ++ "/" ++ now.dateText
  | .sessionSummary => "Vorsight/" ++ machineName ++ "/Sessions"

/-- `Path.DirectorySeparatorChar` and `Path.AltDirectorySeparatorChar`. -/
def isSeparator (c : Char) : Bool := c = '\\' || c = '/'

def pathParts (path : String) : List String :=
  ((path.toList.splitOnP isSeparator).filter fun p => !p.all isWhiteSpace).map String.ofList

/-- Where the file goes below the machine's folder. -/
def Upload.folder : Upload → String
  | .screenshot now => now.dateText
  | .sessionSummary => "Sessions"

/-- A name that is one part of a path. -/
def IsPart (name : String) : Prop :=
  (∀ c ∈ name.toList, isSeparator c = false) ∧ name.toList.all isWhiteSpace = false

instance (name : String) : Decidable (IsPart name) :=
  @instDecidableAnd _ _ (List.decidableBAll _ _) inferInstance

theorem mem_dateText {c : Civil} {a : Char} (ha : a ∈ c.dateText.toList) :
    a.isDigit = true ∨ a = '-' := by
  simp only [Civil.dateText, String.toList_append, List.mem_append] at ha
  rcases ha with (((h | h) | h) | h) | h
  · exact .inl (isDigit_of_mem_padded h)
  · exact .inr (by simpa using h)
  · exact .inl (isDigit_of_mem_padded h)
  · exact .inr (by simpa using h)
  · exact .inl (isDigit_of_mem_padded h)

theorem isSeparator_of_isDigit {a : Char} (h : a.isDigit = true) : isSeparator a = false := by
  rw [isSeparator, Bool.or_eq_false_iff]
  constructor <;> rw [decide_eq_false_iff_not] <;> rintro rfl <;> revert h <;> decide

theorem isPart_folder : ∀ upload : Upload, IsPart upload.folder
  | .screenshot now => by
    refine ⟨fun a ha => ?_, ?_⟩
    · rcases mem_dateText ha with hdigit | rfl
      · exact isSeparator_of_isDigit hdigit
      · decide
    · rw [List.all_eq_false]
      refine ⟨'-', ?_, by decide⟩
      show '-' ∈ now.dateText.toList
      simp [Civil.dateText]
  | .sessionSummary => by decide

theorem folder_ne_vorsight : ∀ upload : Upload, upload.folder ≠ "Vorsight"
  | .screenshot now => by
    intro h
    have hV : 'V' ∈ now.dateText.toList := by
      rw [show now.dateText = "Vorsight" from h]
      decide
    rcases mem_dateText hV with hdigit | hdash
    · revert hdigit
      decide
    · revert hdash
      decide
  | .sessionSummary => by decide

theorem folderPath_eq (machineName : String) (upload : Upload) :
    (folderPath machineName upload).toList =
      "Vorsight".toList ++ '/' :: (machineName.toList ++ '/' :: upload.folder.toList) := by
  cases upload <;> simp [folderPath, Upload.folder]

/-- The path of an upload has three parts. -/
theorem pathParts_folderPath {machineName : String} (h : IsPart machineName) (upload : Upload) :
    pathParts (folderPath machineName upload) = ["Vorsight", machineName, upload.folder] := by
  have hfolder := isPart_folder upload
  rw [pathParts, folderPath_eq,
    List.splitOnP_append_cons_of_forall_mem (by simp [isSeparator]) '/' (by decide),
    List.splitOnP_append_cons_of_forall_mem h.1 '/' (by decide),
    List.splitOnP_eq_singleton hfolder.1]
  rw [List.filter_eq_self.mpr]
  · simp
  · intro part hpart
    simp only [List.mem_cons, List.not_mem_nil, or_false] at hpart
    rcases hpart with rfl | rfl | rfl
    · decide
    · rw [h.2]
      rfl
    · rw [hfolder.2]
      rfl

/-! ## Drive -/

def folderMimeType : String := "application/vnd.google-apps.folder"

structure DriveFile where
  id : String
  name : String
  mimeType : String
  parents : List String
  trashed : Bool := false
deriving DecidableEq, Repr

/-- `mimeType='...' and name='{name}' and trashed=false`, `and '{parentId}' in parents`. -/
structure Query where
  name : String
  parentId : Option String
deriving DecidableEq, Repr

def Query.matches (q : Query) (f : DriveFile) : Bool :=
  f.mimeType = folderMimeType && f.name = q.name && !f.trashed && q.parentId.all (· ∈ f.parents)

/-- The root of the Drive, where a folder without `Parents` goes. -/
def rootId : String := "root"

/-- The folder that is created with the metadata. -/
def Query.newFolder (q : Query) (id : String) : DriveFile where
  id := id
  name := q.name
  mimeType := folderMimeType
  parents := [q.parentId.getD rootId]

/-- The file that is uploaded. -/
def newFile (id name folderId : String) : DriveFile where
  id := id
  name := name
  mimeType := "image/png"
  parents := [folderId]

/-! ## The clients -/

/-- Where a client is in `InternalUploadFileAsync`. -/
inductive Phase
  | idle
  /-- before the search for `part`, with `rest` after it -/
  | search (parentId : Option String) (part : String) (rest : List String)
  /-- the search has found nothing; before the creation -/
  | create (parentId : Option String) (part : String) (rest : List String)
  /-- before the upload to the folder -/
  | upload (folderId : String)
deriving DecidableEq, Repr

/-- The next turn of the loop over the parts, or what follows it; a path without parts throws. -/
def turn (parentId : Option String) : List String → Phase
  | part :: rest => .search parentId part rest
  | [] => match parentId with
    | some folderId => .upload folderId
    | none => .idle

structure Client where
  machineName : String
  /-- the parts of the path of the present upload -/
  path : List String := []
  phase : Phase := .idle
deriving DecidableEq, Repr

/-- A file that has been uploaded: the parts of its path, its id and its folder's. -/
structure Stored where
  path : List String
  fileId : String
  folderId : String
deriving DecidableEq, Repr

structure State where
  files : List DriveFile
  clients : List Client
  stored : List Stored := []
deriving DecidableEq, Repr

inductive Step
  /-- client `i` begins an upload, or begins it again after a 401 -/
  | begin (i : Nat) (upload : Upload)
  /-- the answer to its search has `id` as `Files[0].Id` -/
  | found (i : Nat) (id : String)
  /-- the answer has no files -/
  | missed (i : Nat)
  /-- the folder is created with this id; the answer arrives, or is lost -/
  | created (i : Nat) (id : String) (answered : Bool)
  | uploaded (i : Nat) (id name : String)
  /-- a request fails, or the call is cancelled -/
  | failed (i : Nat)
deriving DecidableEq, Repr

namespace State

/-- Client `i`, which was `c`, is now at `phase`. -/
def move (s : State) (i : Nat) (c : Client) (phase : Phase) : State :=
  { s with clients := s.clients.set i { c with phase := phase } }

def add (s : State) (f : DriveFile) : State := { s with files := s.files ++ [f] }

def isFresh (s : State) (id : String) : Bool := s.files.all (·.id ≠ id)

end State

def begin (s : State) (i : Nat) (c : Client) (upload : Upload) : State :=
  let parts := pathParts (folderPath c.machineName upload)
  { s with clients := s.clients.set i { c with path := parts, phase := turn none parts } }

/-- What client `i`, which is `c`, does. -/
def stepOf (s : State) (i : Nat) (c : Client) : Step → Option State
  | .begin _ upload => if c.phase = .idle then some (begin s i c upload) else none
  | .found _ id =>
    match c.phase with
    | .search parentId part rest =>
      if s.files.any fun f => f.id = id && (⟨part, parentId⟩ : Query).matches f then
        some (s.move i c (turn (some id) rest))
      else none
    | _ => none
  | .missed _ =>
    match c.phase with
    | .search parentId part rest =>
      if s.files.any fun f => (⟨part, parentId⟩ : Query).matches f then none
      else some (s.move i c (.create parentId part rest))
    | _ => none
  | .created _ id answered =>
    match c.phase with
    | .create parentId part rest =>
      if s.isFresh id then
        some ((s.add ((⟨part, parentId⟩ : Query).newFolder id)).move i c
          (if answered then turn (some id) rest else .idle))
      else none
    | _ => none
  | .uploaded _ id name =>
    match c.phase with
    | .upload folderId =>
      if s.isFresh id then
        some { (s.add (newFile id name folderId)).move i c .idle with
          stored := s.stored ++ [⟨c.path, id, folderId⟩] }
      else none
    | _ => none
  | .failed _ => if c.phase = .idle then none else some (s.move i c .idle)

def Step.index : Step → Nat
  | .begin i _ | .found i _ | .missed i | .created i _ _ | .uploaded i _ _ | .failed i => i

def step (s : State) (a : Step) : Option State :=
  (s.clients[a.index]?).bind fun c => stepOf s a.index c a

/-! ## What a step does -/

/-- The query that a client asks, or has asked, for the folder. -/
def sought (c : Client) : Option Query :=
  match c.phase with
  | .search parentId part _ => some ⟨part, parentId⟩
  | _ => none

/-- The folder that a client has found missing and is about to create. -/
def missed (c : Client) : Option Query :=
  match c.phase with
  | .create parentId part _ => some ⟨part, parentId⟩
  | _ => none

/-- The steps of client `i`, which is `c`, with what they have looked at. -/
inductive Transition (s : State) (i : Nat) (c : Client) : Step → State → Prop
  | begin (upload : Upload) (hphase : c.phase = .idle) :
      Transition s i c (.begin i upload) (begin s i c upload)
  | found (parentId : Option String) (part : String) (rest : List String) (f : DriveFile)
      (hphase : c.phase = .search parentId part rest) (hf : f ∈ s.files)
      (hmatches : (⟨part, parentId⟩ : Query).matches f = true) :
      Transition s i c (.found i f.id) (s.move i c (turn (some f.id) rest))
  | missed (parentId : Option String) (part : String) (rest : List String)
      (hphase : c.phase = .search parentId part rest)
      (hnone : ∀ f ∈ s.files, (⟨part, parentId⟩ : Query).matches f = false) :
      Transition s i c (.missed i) (s.move i c (.create parentId part rest))
  | created (parentId : Option String) (part : String) (rest : List String) (id : String)
      (answered : Bool) (hphase : c.phase = .create parentId part rest) :
      Transition s i c (.created i id answered)
        ((s.add ((⟨part, parentId⟩ : Query).newFolder id)).move i c
          (if answered then turn (some id) rest else .idle))
  | uploaded (folderId id name : String) (hphase : c.phase = .upload folderId) :
      Transition s i c (.uploaded i id name)
        { (s.add (newFile id name folderId)).move i c .idle with
          stored := s.stored ++ [⟨c.path, id, folderId⟩] }
  | failed : Transition s i c (.failed i) (s.move i c .idle)

theorem step_cases {s s' : State} {a : Step} (h : step s a = some s') :
    ∃ i c, s.clients[i]? = some c ∧ Transition s i c a s' := by
  obtain ⟨c, hc, h⟩ := Option.bind_eq_some_iff.mp h
  refine ⟨a.index, c, hc, ?_⟩
  cases a with
  | begin i upload =>
    simp only [stepOf] at h
    split at h
    · next hphase =>
      cases h
      exact .begin upload hphase
    · cases h
  | found i id =>
    simp only [stepOf] at h
    split at h
    · next parentId part rest hphase =>
      split at h
      · next hany =>
        cases h
        obtain ⟨f, hf, hboth⟩ := List.any_eq_true.mp hany
        rw [Bool.and_eq_true, decide_eq_true_iff] at hboth
        obtain ⟨rfl, hmatches⟩ := hboth
        exact .found parentId part rest f hphase hf hmatches
      · cases h
    · cases h
  | missed i =>
    simp only [stepOf] at h
    split at h
    · next parentId part rest hphase =>
      split at h
      · cases h
      · next hany =>
        cases h
        rw [Bool.not_eq_true, List.any_eq_false] at hany
        exact .missed parentId part rest hphase fun f hf => Bool.not_eq_true _ ▸ hany f hf
    · cases h
  | created i id answered =>
    simp only [stepOf] at h
    split at h
    · next parentId part rest hphase =>
      split at h
      · cases h
        exact .created parentId part rest id answered hphase
      · cases h
    · cases h
  | uploaded i id name =>
    simp only [stepOf] at h
    split at h
    · next folderId hphase =>
      split at h
      · cases h
        exact .uploaded folderId id name hphase
      · cases h
    · cases h
  | failed i =>
    simp only [stepOf] at h
    split at h
    · cases h
    · cases h
      exact .failed

/-! ## Where a file goes -/

/-- From the folder `p`, or from anywhere when there is none, folders with the names `parts` lead
    to `q`. -/
def Leads (files : List DriveFile) : Option String → List String → Option String → Prop
  | p, [], q => p = q
  | p, part :: rest, q =>
    ∃ f ∈ files, (⟨part, p⟩ : Query).matches f = true ∧ Leads files (some f.id) rest q

theorem Leads.mono {files files' : List DriveFile} (h : files ⊆ files') :
    ∀ {parts : List String} {p q : Option String}, Leads files p parts q → Leads files' p parts q
  | [], _, _, hp => hp
  | _ :: _, _, _, ⟨f, hf, hmatches, hrest⟩ => ⟨f, h hf, hmatches, hrest.mono h⟩

theorem Leads.snoc {files : List DriveFile} {f : DriveFile} (hf : f ∈ files) {part : String} :
    ∀ {parts : List String} {p q : Option String}, Leads files p parts q →
      (⟨part, q⟩ : Query).matches f = true → Leads files p (parts ++ [part]) (some f.id)
  | [], _, _, rfl, hmatches => ⟨f, hf, hmatches, rfl⟩
  | _ :: _, _, _, ⟨g, hg, hgm, hrest⟩, hmatches => ⟨g, hg, hgm, hrest.snoc hf hmatches⟩

/-- Only no parts lead nowhere. -/
theorem Leads.none_iff {files : List DriveFile} :
    ∀ {parts : List String} {q : Option String}, Leads files none parts q →
      (q = none ↔ parts = [])
  | [], _, rfl => by simp
  | _ :: _, _, ⟨f, _, _, hrest⟩ => by
    simp only [List.cons_ne_nil, iff_false]
    exact not_none hrest
where
  not_none : ∀ {parts : List String} {id : String} {q : Option String},
      Leads files (some id) parts q → q ≠ none
    | [], _, _, rfl => by simp
    | _ :: _, _, _, ⟨_, _, _, hrest⟩ => not_none hrest

/-- What a client has found so far is the beginning of its path. -/
def Walks (files : List DriveFile) (c : Client) : Prop :=
  match c.phase with
  | .idle => True
  | .search parentId part rest | .create parentId part rest =>
    ∃ found, c.path = found ++ part :: rest ∧ Leads files none found parentId
  | .upload folderId => Leads files none c.path (some folderId)

theorem Walks.mono {files files' : List DriveFile} {c : Client} (h : Walks files c)
    (hsub : files ⊆ files') : Walks files' c := by
  unfold Walks at h ⊢
  split at h
  · trivial
  · obtain ⟨found, hpath, hleads⟩ := h
    exact ⟨found, hpath, hleads.mono hsub⟩
  · obtain ⟨found, hpath, hleads⟩ := h
    exact ⟨found, hpath, hleads.mono hsub⟩
  · exact h.mono hsub

theorem walks_turn {files : List DriveFile} {c : Client} (found : List String)
    {rest : List String} {p : Option String} (hpath : c.path = found ++ rest)
    (hleads : Leads files none found p) :
    Walks files { c with phase := turn p rest } := by
  cases rest with
  | cons part rest => exact ⟨found, hpath, hleads⟩
  | nil =>
    cases p with
    | none => trivial
    | some folderId =>
      show Leads files none c.path (some folderId)
      rw [hpath, List.append_nil]
      exact hleads

/-- A file is in Drive, in a folder that its path leads to. -/
def InPlace (files : List DriveFile) (u : Stored) : Prop :=
  Leads files none u.path (some u.folderId) ∧
    ∃ f ∈ files, f.id = u.fileId ∧ f.parents = [u.folderId]

structure Placed (s : State) : Prop where
  walks : ∀ c ∈ s.clients, Walks s.files c
  stored : ∀ u ∈ s.stored, InPlace s.files u

theorem InPlace.mono {files files' : List DriveFile} {u : Stored} (h : InPlace files u)
    (hsub : files ⊆ files') : InPlace files' u := by
  obtain ⟨hleads, f, hf, hfile⟩ := h
  exact ⟨hleads.mono hsub, f, hsub hf, hfile⟩

theorem Placed.of_change {s s' : State} (h : Placed s) {i : Nat} {c : Client}
    (hsub : s.files ⊆ s'.files) (hclients : s'.clients = s.clients.set i c)
    (hc : Walks s'.files c) (hstored : ∀ u ∈ s'.stored, u ∈ s.stored ∨ InPlace s'.files u) :
    Placed s' where
  walks := by
    intro d hd
    rw [hclients] at hd
    rcases List.mem_or_eq_of_mem_set hd with hd | rfl
    · exact (h.walks d hd).mono hsub
    · exact hc
  stored := by
    intro u hu
    rcases hstored u hu with hold | hnew
    · exact (h.stored u hold).mono hsub
    · exact hnew

/-- **The step**: whatever a client does, its path is followed. -/
theorem placed_step {s s' : State} {a : Step} (h : Placed s) (hs : step s a = some s') :
    Placed s' := by
  obtain ⟨i, c, hc, htrans⟩ := step_cases hs
  have hwalks := h.walks c (List.mem_of_getElem? hc)
  cases htrans with
  | begin upload hphase =>
    exact h.of_change (List.Subset.refl _) rfl
      (walks_turn (c := { c with path := _ }) [] rfl rfl) fun u hu => .inl hu
  | found parentId part rest f hphase hf hmatches =>
    rw [Walks, hphase] at hwalks
    obtain ⟨found, hpath, hleads⟩ := hwalks
    refine h.of_change (List.Subset.refl _) rfl ?_ fun u hu => .inl hu
    refine walks_turn (found ++ [part]) ?_ (hleads.snoc hf hmatches)
    rw [hpath, List.append_assoc]
    rfl
  | missed parentId part rest hphase hnone =>
    rw [Walks, hphase] at hwalks
    exact h.of_change (List.Subset.refl _) rfl hwalks fun u hu => .inl hu
  | created parentId part rest id answered hphase =>
    rw [Walks, hphase] at hwalks
    obtain ⟨found, hpath, hleads⟩ := hwalks
    have hsub : s.files ⊆ s.files ++ [(⟨part, parentId⟩ : Query).newFolder id] :=
      List.subset_append_left _ _
    refine h.of_change hsub rfl ?_ fun u hu => .inl hu
    cases answered with
    | false => trivial
    | true =>
      have hnew : (⟨part, parentId⟩ : Query).matches ((⟨part, parentId⟩ : Query).newFolder id) =
          true := by
        cases parentId <;> simp [Query.matches, Query.newFolder]
      refine walks_turn (found ++ [part]) ?_
        ((hleads.mono hsub).snoc (List.mem_append_right _ (List.mem_singleton_self _)) hnew)
      rw [hpath, List.append_assoc]
      rfl
  | uploaded folderId id name hphase =>
    rw [Walks, hphase] at hwalks
    have hsub : s.files ⊆ s.files ++ [newFile id name folderId] := List.subset_append_left _ _
    refine h.of_change hsub rfl trivial fun u hu => ?_
    rcases List.mem_append.mp hu with hu | hu
    · exact .inl hu
    · rw [List.mem_singleton.mp hu]
      exact .inr ⟨hwalks.mono hsub, _, List.mem_append_right _ (List.mem_singleton_self _), rfl,
        rfl⟩
  | failed => exact h.of_change (List.Subset.refl _) rfl trivial fun u hu => .inl hu

/-- Nothing has been uploaded, and nobody is at it. -/
structure Started (s : State) : Prop where
  idle : ∀ c ∈ s.clients, c.phase = .idle
  stored : s.stored = []

instance (s : State) : Decidable (Started s) :=
  decidable_of_iff ((∀ c ∈ s.clients, c.phase = .idle) ∧ s.stored = [])
    ⟨fun h => ⟨h.1, h.2⟩, fun h => ⟨h.idle, h.stored⟩⟩

theorem Started.placed {s : State} (h : Started s) : Placed s where
  walks := by
    intro c hc
    rw [Walks, h.idle c hc]
    trivial
  stored := by
    rw [h.stored]
    simp

/-- Two machines upload their summaries; the second is at its search for the root folder while the
    first creates it. -/
def overlapping : List Step :=
  [.begin 0 .sessionSummary, .begin 1 .sessionSummary, .missed 0, .created 0 "v" true, .found 1 "v",
    .missed 0, .missed 1, .created 1 "b" true, .created 0 "a" true, .missed 0, .created 0 "as" true,
    .uploaded 0 "f" "session-1.json", .missed 1, .created 1 "bs" false]

/-- The Drive is empty before the two machines begin. -/
def emptyDrive : State where
  files := []
  clients := [{ machineName := "PC-1" }, { machineName := "PC-2" }]

/-- Where the run ends. -/
def atEnd : State := (run step emptyDrive overlapping).getD emptyDrive

theorem run_overlapping : run step emptyDrive overlapping = some atEnd := by decide +kernel

/-- No other client is about to create the folder that client `i` finds missing. -/
def Alone (s : State) : Step → Prop
  | .missed i => ∀ c ∈ s.clients.eraseIdx i,
      missed c = none ∨ missed c ≠ (s.clients[i]?).bind sought
  | _ => True

instance (s : State) : ∀ a, Decidable (Alone s a)
  | .missed _ => by
    unfold Alone
    infer_instance
  | .begin _ _ | .found _ _ | .created _ _ _ | .uploaded _ _ _ | .failed _ => .isTrue trivial

/-- The queries of the walks: the first part is looked for anywhere, the others in a folder. -/
def Query.Proper (q : Query) : Prop := q.parentId = none ↔ q.name = "Vorsight"

/-- The path of an upload: its first part does not come back. -/
def ProperPath (path : List String) : Prop :=
  ∃ rest, path = "Vorsight" :: rest ∧ "Vorsight" ∉ rest

def meets (q : Query) (f : DriveFile) : Prop := q.matches f = true

/-- A machine has a name that is one part of a path, and not `Vorsight`. -/
structure Named (c : Client) : Prop where
  isPart : IsPart c.machineName
  other : c.machineName ≠ "Vorsight"

theorem properPath_of_named {c : Client} (h : Named c) (upload : Upload) :
    ProperPath (pathParts (folderPath c.machineName upload)) := by
  refine ⟨[c.machineName, upload.folder], pathParts_folderPath h.isPart upload, ?_⟩
  simp only [List.mem_cons, List.not_mem_nil, or_false, not_or]
  exact ⟨Ne.symm h.other, Ne.symm (folder_ne_vorsight upload)⟩

/-- What is asked on the way of a proper path is proper. -/
theorem proper_of_leads {files : List DriveFile} {path found rest : List String} {part : String}
    {p : Option String} (hproper : ProperPath path) (hpath : path = found ++ part :: rest)
    (hleads : Leads files none found p) : (⟨part, p⟩ : Query).Proper := by
  obtain ⟨others, hothers, hnot⟩ := hproper
  rw [Query.Proper, hleads.none_iff]
  cases found with
  | nil =>
    rw [hothers, List.nil_append, List.cons.injEq] at hpath
    simp [hpath.1]
  | cons first found =>
    rw [hothers, List.cons_append, List.cons.injEq] at hpath
    simp only [List.cons_ne_nil, false_iff]
    rintro rfl
    apply hnot
    rw [hpath.2]
    simp

/-- A folder is created for its own query, and for no other that is proper. -/
theorem createdFor_newFolder {q : Query} (hq : q.Proper) (id : String) :
    CreatedFor meets Query.Proper q (q.newFolder id) := by
  intro k hk
  obtain ⟨name, parentId⟩ := q
  obtain ⟨name', parentId'⟩ := k
  simp only [Query.Proper] at hq hk
  have hmeets : meets ⟨name', parentId'⟩ ((⟨name, parentId⟩ : Query).newFolder id) ↔
      name = name' ∧ ∀ p, parentId' = some p → p = parentId.getD rootId := by
    unfold meets Query.matches Query.newFolder
    cases parentId' <;> simp
  rw [hmeets, Query.mk.injEq]
  constructor
  · rintro ⟨rfl, hparent⟩
    refine ⟨rfl, ?_⟩
    cases parentId' with
    | none => exact (hq.mpr (hk.mp rfl)).symm
    | some p' =>
      cases parentId with
      | none => exact absurd (hk.mpr (hq.mp rfl)) (by simp)
      | some p => exact congrArg some (hparent p' rfl)
  · rintro ⟨rfl, rfl⟩
    refine ⟨rfl, fun p hp => ?_⟩
    rw [hp, Option.getD_some]

/-- A file of another type is no folder. -/
theorem not_meets_newFile (q : Query) (id name folderId : String) :
    ¬ meets q (newFile id name folderId) := by
  simp [meets, Query.matches, newFile, folderMimeType]

/-- The invariant of a run in which everybody is alone with what he finds missing. -/
structure Orderly (s : State) : Prop where
  placed : Placed s
  named : ∀ c ∈ s.clients, Named c
  paths : ∀ c ∈ s.clients, c.phase ≠ .idle → ProperPath c.path
  stored : ∀ u ∈ s.stored, ProperPath u.path
  single : Single meets Query.Proper missed s.files s.clients

theorem Orderly.valid {s : State} (h : Orderly s) :
    ∀ c ∈ s.clients, ∀ q, missed c = some q → q.Proper := by
  intro c hc q hq
  have hwalks := h.placed.walks c hc
  have hpath := h.paths c hc
  rw [missed] at hq
  split at hq
  · next parentId part rest hphase =>
    cases hq
    rw [Walks, hphase] at hwalks
    rw [hphase] at hpath
    obtain ⟨found, hfound, hleads⟩ := hwalks
    exact proper_of_leads (hpath (by simp)) hfound hleads
  · cases hq

theorem turn_ne_create {p q : Option String} {rest rest' : List String} {part : String} :
    turn p rest ≠ .create q part rest' := by
  cases rest with
  | cons => simp [turn]
  | nil => cases p <;> simp [turn]

theorem missed_of_turn {c : Client} {p : Option String} {rest : List String}
    (hphase : c.phase = turn p rest) : missed c = none := by
  rw [missed]
  split
  · next hcreate => exact absurd (hphase.symm.trans hcreate) turn_ne_create
  · rfl

/-- **The step** of a client that is alone with what it finds missing. -/
theorem orderly_step {s s' : State} {a : Step} (h : Orderly s) (hg : Alone s a)
    (hs : step s a = some s') : Orderly s' := by
  have hplaced := placed_step h.placed hs
  obtain ⟨i, c, hc, htrans⟩ := step_cases hs
  have hmem := List.mem_of_getElem? hc
  have hnamed := h.named c hmem
  have hwalks := h.placed.walks c hmem
  -- what is said of each client holds of the others as before, and of the changed one
  have hothers : ∀ (P : Client → Prop) (d : Client), (∀ e ∈ s.clients, P e) → P d →
      ∀ e ∈ s.clients.set i d, P e := by
    intro P d hall hd e he
    rcases List.mem_or_eq_of_mem_set he with he | rfl
    · exact hall e he
    · exact hd
  cases htrans with
  | begin upload hphase =>
    have hproper := properPath_of_named hnamed upload
    exact ⟨hplaced, hothers Named _ h.named ⟨hnamed.isPart, hnamed.other⟩,
      hothers (fun d => d.phase ≠ .idle → ProperPath d.path) _ h.paths fun _ => hproper,
      h.stored, h.single.keep hc fun q hq => nomatch (missed_of_turn rfl).symm.trans hq⟩
  | found parentId part rest f hphase hf hmatches =>
    have hproper := h.paths c hmem (by simp [hphase])
    exact ⟨hplaced, hothers Named _ h.named ⟨hnamed.isPart, hnamed.other⟩,
      hothers (fun d => d.phase ≠ .idle → ProperPath d.path) _ h.paths fun _ => hproper,
      h.stored, h.single.keep hc fun q hq => nomatch (missed_of_turn rfl).symm.trans hq⟩
  | missed parentId part rest hphase hnone =>
    have hproper := h.paths c hmem (by simp [hphase])
    refine ⟨hplaced, hothers Named _ h.named ⟨hnamed.isPart, hnamed.other⟩,
      hothers (fun d => d.phase ≠ .idle → ProperPath d.path) _ h.paths fun _ => hproper,
      h.stored, h.single.miss (k := ⟨part, parentId⟩) rfl ?_ ?_⟩
    · intro f hf hmeets
      rw [meets, hnone f hf] at hmeets
      cases hmeets
    · intro j d hd hne hsame
      have hsought : (s.clients[i]?).bind sought = some ⟨part, parentId⟩ := by
        rw [hc, Option.bind_some, sought, hphase]
      rcases hg d (List.mem_eraseIdx_iff_getElem?.mpr ⟨j, hne, hd⟩) with hnone | hdiff
      · rw [hnone] at hsame
        cases hsame
      · exact hdiff (hsame.trans hsought.symm)
  | created parentId part rest id answered hphase =>
    have hproper := h.paths c hmem (by simp [hphase])
    have hmissed : missed c = some ⟨part, parentId⟩ := by rw [missed, hphase]
    have hq := h.valid c hmem _ hmissed
    refine ⟨hplaced, hothers Named _ h.named ⟨hnamed.isPart, hnamed.other⟩,
      hothers (fun d => d.phase ≠ .idle → ProperPath d.path) _ h.paths fun _ => hproper,
      h.stored, h.single.create hc hmissed ?_ (createdFor_newFolder hq id) h.valid⟩
    cases answered with
    | false => rfl
    | true => exact missed_of_turn rfl
  | uploaded folderId id name hphase =>
    have hproper := h.paths c hmem (by simp [hphase])
    refine ⟨hplaced, hothers Named _ h.named ⟨hnamed.isPart, hnamed.other⟩,
      hothers (fun d => d.phase ≠ .idle → ProperPath d.path) _ h.paths (by simp), ?_,
      (h.single.other (fun q _ => not_meets_newFile q id name folderId) h.valid).keep hc
        (by simp [missed])⟩
    intro u hu
    rcases List.mem_append.mp hu with hu | hu
    · exact h.stored u hu
    · rw [List.mem_singleton.mp hu]
      exact hproper
  | failed =>
    exact ⟨hplaced, hothers Named _ h.named ⟨hnamed.isPart, hnamed.other⟩,
      hothers (fun d => d.phase ≠ .idle → ProperPath d.path) _ h.paths (by simp),
      h.stored, h.single.keep hc (by simp [missed])⟩

/-- Where every query has one answer, one path leads to one folder. -/
theorem Leads.unique {files : List DriveFile} (hone : ∀ q : Query, q.Proper → One meets files q) :
    ∀ (path : List String) (q q' : Option String), ProperPath path →
      Leads files none path q → Leads files none path q' → q = q' := by
  rintro path q q' ⟨rest, rfl, hnot⟩ ⟨f, hf, hfm, hrest⟩ ⟨g, hg, hgm, hrest'⟩
  rw [hone ⟨"Vorsight", none⟩ (by simp [Query.Proper]) f hf g hg hfm hgm] at hrest
  exact unique_below hnot hrest hrest'
where
  unique_below : ∀ {parts : List String} {id : String} {q q' : Option String},
      "Vorsight" ∉ parts → Leads files (some id) parts q → Leads files (some id) parts q' → q = q'
    | [], _, _, _, _, rfl, rfl => rfl
    | part :: rest, id, _, _, hnot, ⟨f, hf, hfm, hrest⟩, ⟨g, hg, hgm, hrest'⟩ => by
      rw [List.mem_cons, not_or] at hnot
      have hproper : (⟨part, some id⟩ : Query).Proper := by
        simpa [Query.Proper] using Ne.symm hnot.1
      rw [hone _ hproper f hf g hg hfm hgm] at hrest
      exact unique_below hnot.2 hrest hrest'

/-- No folder is there twice, and none called `Vorsight` is in another folder of that name. -/
def NoneTwice (files : List DriveFile) : Prop := ∀ q : Query, q.Proper → One meets files q

/-- **Two that are about to create one folder make two**, and later uploads go to either. -/
theorem not_one_of_pair {s : State} {i j : Nat} {c d : Client} {q : Query} {id id' : String}
    (hne : i ≠ j) (hc : s.clients[i]? = some c) (hd : s.clients[j]? = some d)
    (hcm : missed c = some q) (hdm : missed d = some q) (hfresh : s.isFresh id = true)
    (hfresh' : s.isFresh id' = true) (hids : id ≠ id') :
    ∃ s', run step s [.created i id true, .created j id' true] = some s' ∧
      ¬ One meets s'.files q := by
  obtain ⟨name, parentId⟩ := q
  have hphase : ∀ {e : Client}, missed e = some ⟨name, parentId⟩ →
      ∃ rest, e.phase = .create parentId name rest := by
    intro e he
    rw [missed] at he
    split at he
    · next parentId' part rest hcreate =>
      cases he
      exact ⟨rest, hcreate⟩
    · cases he
  obtain ⟨rest, hcp⟩ := hphase hcm
  obtain ⟨rest', hdp⟩ := hphase hdm
  let first := (s.add ((⟨name, parentId⟩ : Query).newFolder id)).move i c (turn (some id) rest)
  have hfirst : step s (.created i id true) = some first := by
    simp only [step, Step.index, hc, Option.bind_some, stepOf, hcp, hfresh, if_true, first]
  have hdf : first.clients[j]? = some d := by
    show (s.clients.set i _)[j]? = some d
    rw [List.getElem?_set_ne hne, hd]
  have hff : first.isFresh id' = true := by
    show (s.files ++ [(⟨name, parentId⟩ : Query).newFolder id]).all (·.id ≠ id') = true
    rw [List.all_append, Bool.and_eq_true]
    exact ⟨hfresh', by simpa [Query.newFolder] using hids⟩
  refine ⟨(first.add ((⟨name, parentId⟩ : Query).newFolder id')).move j d (turn (some id') rest'),
    ?_, ?_⟩
  · rw [run_cons, hfirst, Option.bind_some, run_cons]
    simp only [step, Step.index, hdf, Option.bind_some, stepOf, hdp, hff, if_true, run_nil]
  · have hmeets : ∀ id, meets ⟨name, parentId⟩ ((⟨name, parentId⟩ : Query).newFolder id) := by
      intro id
      unfold meets Query.matches Query.newFolder
      cases parentId <;> simp
    refine FindOrCreate.not_one_of_both (hmeets id) (hmeets id') ?_
    intro heq
    exact hids (congrArg DriveFile.id heq)

end Service.DriveFolders
