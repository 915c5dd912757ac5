/-
  COMMANDS RUN AS THE USER (Vorsight.Service/SystemOperations/CommandExecutor.cs).

  The service runs in session 0 and starts the agent, and what an administrator asks for, in the
  session of the user at the console.  `RunCommandAsUser` takes the token of that session's
  explorer, through three handles and three nested `finally`s.

  1. **What is started, and in whose name** (`Outcome`): `true` is answered exactly when one process
     was started, and that one either by the service itself, in the console session, or with a copy
     of the token of an explorer of that session.  The steps carry what has happened so far
     (`Facts`), and nothing that closes a handle disturbs it.

  2. **Nothing stays open.**  Any number of operations of `CommandExecutor`, `ProcessHelper` and
     `ShutdownHelper` one after another, whatever Windows answers or throws: each handle, block of
     memory and environment is used only while it is open, and closed once, in the reverse order.
-/
import Vorsight.Interop.ShutdownHelper

namespace Service.CommandExecutor

open Calls Prog Interop ProcessHelper ShutdownHelper

/-! ## `RunCommandAsUser` -/

/-- `p.SessionId == sessionId`, an `int` and a `uint`. -/
def inSession (sessionId : UInt32) (id : Int32) : Bool := id.toInt == (sessionId.toNat : Int)

def getCurrentSessionId : Windows Int32 := ask Call.getCurrentSessionId

def start (fileName arguments : String) : Windows Unit := ask (Call.start fileName arguments)

def getProcessesByName (name : String) : Windows (List Process) := ask (Call.getProcessesByName name)

def getProcesses : Windows (List Process) := ask Call.getProcesses

/-- With the token of `userProcess`. -/
def runWithTokenOf (userProcess : Process) (commandLine : String) : Windows Bool :=
  bracket (tryOpenProcess userProcess.Id.toUInt32 PROCESS_QUERY_LIMITED_INFORMATION)
    Call.closeHandle (return false) fun hProcess =>
  bracket (tryOpenProcessToken hProcess TOKEN_DUPLICATE) Call.closeHandle (return false)
    fun hToken =>
  bracket (tryDuplicateTokenEx hToken (TOKEN_ASSIGN_PRIMARY ||| TOKEN_DUPLICATE ||| TOKEN_QUERY |||
      TOKEN_ADJUST_PRIVILEGES) SecurityImpersonation TokenPrimary) Call.closeHandle (return false)
    fun hUserToken => do
      match ← tryCreateProcessAsUser hUserToken none commandLine none with
      | some _ => return true
      | none => return false

/-- Nobody is logged in at the console, or explorer is not there: only the log differs. -/
def noExplorer (sessionId : UInt32) : Windows Bool := do
  let logonUI ← getProcessesByName "LogonUI"
  if logonUI.any (inSession sessionId ·.SessionId) then return false
  else
    let _ ← getProcesses
    return false

def runInSession (sessionId : UInt32) (command arguments : String) : Windows Bool := do
  let current ← getCurrentSessionId
  if inSession sessionId current then
    start "cmd.exe" ("/c \"" ++ command ++ " " ++ arguments ++ "\"")
    return true
  else
    let explorers ← getProcessesByName "explorer"
    match explorers.find? (inSession sessionId ·.SessionId) with
    | none => noExplorer sessionId
    | some userProcess => runWithTokenOf userProcess (command ++ " " ++ arguments)

def runCommandAsUser (command arguments : String) : Windows Bool :=
  Prog.handle (do
    let sessionId ← getActiveConsoleSessionId
    if sessionId = 0xFFFFFFFF then return false else runInSession sessionId command arguments)
    (return false)

/-! ## What has been started -/

inductive Started
  | direct (fileName arguments : String)
  | withToken (token : IntPtr) (commandLine : String)
deriving DecidableEq, Repr

def startedBy : Event Reply → Option Started
  | .answered c r =>
    match c, r with
    | .start fileName arguments, _ => some (.direct fileName arguments)
    | .createProcessAsUser token _ commandLine _ _ _ _ _, some _ =>
      some (.withToken token commandLine)
    | _, _ => none
  | _ => none

def started (t : List (Event Reply)) : List Started := t.filterMap startedBy

/-- `token` is a copy of the token of a process that was found as an explorer of the session. -/
def IsUserToken (t : List (Event Reply)) (sessionId : UInt32) (token : IntPtr) : Prop :=
  ∃ (explorers : List Process) (userProcess : Process) (hProcess hToken : IntPtr),
    .answered (Call.getProcessesByName "explorer") explorers ∈ t ∧
    userProcess ∈ explorers ∧ inSession sessionId userProcess.SessionId ∧ hProcess ≠ 0 ∧
    .answered (Call.openProcess PROCESS_QUERY_LIMITED_INFORMATION false userProcess.Id.toUInt32)
      hProcess ∈ t ∧
    .answered (Call.openProcessToken hProcess TOKEN_DUPLICATE) (some hToken) ∈ t ∧
    .answered (Call.duplicateTokenEx hToken (TOKEN_ASSIGN_PRIMARY ||| TOKEN_DUPLICATE |||
      TOKEN_QUERY ||| TOKEN_ADJUST_PRIVILEGES) SecurityImpersonation TokenPrimary) (some token) ∈ t

/-- The command was started in the session of the user at the console: by the service, where it is
    in that session itself, or with the token of the user there. -/
def InConsoleSession (t : List (Event Reply)) (command arguments : String) (x : Started) : Prop :=
  ∃ sessionId : UInt32, sessionId ≠ 0xFFFFFFFF ∧
    .answered Call.wtsGetActiveConsoleSessionId sessionId ∈ t ∧
    ((x = .direct "cmd.exe" ("/c \"" ++ command ++ " " ++ arguments ++ "\"") ∧
        ∃ current : Int32, .answered Call.getCurrentSessionId current ∈ t ∧
          inSession sessionId current) ∨
      ∃ token, x = .withToken token (command ++ " " ++ arguments) ∧ IsUserToken t sessionId token)

/-- What `RunCommandAsUser` answers, and what was started. -/
def Outcome (command arguments : String) : Bool → List (Event Reply) → Prop
  | true, t => ∃ x, started t = [x] ∧ InConsoleSession t command arguments x
  | false, t => started t = []

variable {command arguments : String} {t t' : List (Event Reply)} {fs : List (Event Reply)}

@[simp] theorem started_snoc (t : List (Event Reply)) (e : Event Reply) :
    started (t ++ [e]) = started t ++ (startedBy e).toList := by
  cases h : startedBy e <;> simp [started, h]

theorem IsUserToken.mono {sessionId : UInt32} {token : IntPtr} (hsub : t ⊆ t')
    (h : IsUserToken t sessionId token) : IsUserToken t' sessionId token := by
  obtain ⟨explorers, userProcess, hProcess, hToken, hfind, hmem, hin, hnull, hopen, htoken, hcopy⟩ :=
    h
  exact ⟨explorers, userProcess, hProcess, hToken, hsub hfind, hmem, hin, hnull, hsub hopen,
    hsub htoken, hsub hcopy⟩

theorem InConsoleSession.mono {x : Started} (hsub : t ⊆ t')
    (h : InConsoleSession t command arguments x) : InConsoleSession t' command arguments x := by
  obtain ⟨sessionId, hactive, hconsole, h⟩ := h
  refine ⟨sessionId, hactive, hsub hconsole, ?_⟩
  rcases h with ⟨hx, current, hcurrent, hin⟩ | ⟨token, hx, htoken⟩
  · exact .inl ⟨hx, current, hsub hcurrent, hin⟩
  · exact .inr ⟨token, hx, htoken.mono hsub⟩

/-- Closing something changes nothing. -/
theorem Outcome.told {ok : Bool} (h : Outcome command arguments ok t) (c : Call) :
    Outcome command arguments ok (t ++ [.told c]) := by
  have hsame : started (t ++ [.told c]) = started t := by simp [startedBy]
  cases ok with
  | false => exact hsame.trans h
  | true =>
    obtain ⟨x, hx, hin⟩ := h
    exact ⟨x, hsame.trans hx, hin.mono (List.subset_append_left t _)⟩

/-! ### The steps -/

/-- Nothing has been started, and `fs` has happened. -/
def Facts (fs t : List (Event Reply)) : Prop := started t = [] ∧ fs ⊆ t

/-- An event that starts nothing is one more fact. -/
theorem Facts.snoc (h : Facts fs t) {e : Event Reply} (he : startedBy e = none) :
    Facts (e :: fs) (t ++ [e]) := by
  refine ⟨by simp [h.1, he], ?_⟩
  intro f hf
  rcases List.mem_cons.mp hf with rfl | hf
  · exact List.mem_append_right t List.mem_cons_self
  · exact List.mem_append_left _ (h.2 hf)

theorem Facts.threw (h : Facts fs t) (c : Call) : started (t ++ [.threw c]) = [] := by
  simp [h.1, startedBy]

theorem ask_facts (h : Facts fs t) (c : Call) (hc : ∀ r, startedBy (.answered c r) = none) :
    (ask c).Ensures (fun r => Facts (.answered c r :: fs)) (started · = []) t :=
  ensures_ask.mpr ⟨fun r => h.snoc (hc r), h.threw c⟩

/-- With the handle there is the fact that it was opened. -/
theorem tryOpenProcess_facts (h : Facts fs t) (processId desiredAccess : UInt32) :
    (tryOpenProcess processId desiredAccess).Ensures
      (fun r t' => match r with
        | none => started t' = []
        | some (hProcess : IntPtr) => hProcess ≠ 0 ∧
          Facts (.answered (Call.openProcess desiredAccess false processId) hProcess :: fs) t')
      (started · = []) t := by
  refine (ask_facts h (Call.openProcess desiredAccess false processId) fun _ => rfl).bind
    (fun (hProcess : IntPtr) t' ht' => ?_) fun _ h => h
  show Ensures _ _ (if hProcess = 0 then .done none else .done (some hProcess)) t'
  split
  next => exact ht'.1
  next hnull => exact ⟨hnull, ht'⟩

/-- What `TryCreateProcessAsUser` has done. -/
def Created (fs : List (Event Reply)) (token : IntPtr) (commandLine : String) :
    Option UInt32 → List (Event Reply) → Prop
  | none, t => started t = []
  | some _, t => started t = [.withToken token commandLine] ∧ fs ⊆ t

theorem Created.told {token : IntPtr} {commandLine : String} {r : Option UInt32}
    (h : Created fs token commandLine r t) (c : Call) :
    Created fs token commandLine r (t ++ [.told c]) := by
  have hsame : started (t ++ [.told c]) = started t := by simp [startedBy]
  cases r with
  | none => exact hsame.trans h
  | some _ => exact ⟨hsame.trans h.1, List.subset_append_of_subset_left _ h.2⟩

theorem createIn_created (h : Facts fs t) (lpEnvironment token : IntPtr) (commandLine : String) :
    (createIn lpEnvironment token none commandLine none).Ensures (Created fs token commandLine)
      (started · = []) t := by
  refine ⟨fun r => ?_, h.threw _⟩
  match r with
  | none => exact (h.snoc rfl).1
  | some processInfo =>
    have hcreated : Created fs token commandLine (some processInfo.dwProcessId)
        (t ++ [.answered (Call.createProcessAsUser token none commandLine false
          (CREATE_UNICODE_ENVIRONMENT ||| NORMAL_PRIORITY_CLASS ||| CREATE_NO_WINDOW) lpEnvironment
          none "winsta0\\default") (some processInfo)]) := by
      refine ⟨?_, List.subset_append_of_subset_left _ h.2⟩
      rw [started_snoc, h.1]
      rfl
    exact (hcreated.told (.closeHandle processInfo.hProcess)).told (.closeHandle processInfo.hThread)

theorem tryCreateProcessAsUser_created (h : Facts fs t) (token : IntPtr) (commandLine : String) :
    (tryCreateProcessAsUser token none commandLine none).Ensures (Created fs token commandLine)
      (started · = []) t := by
  refine (ask_facts h (Call.createEnvironmentBlock token false) fun _ => rfl).bind
    (fun r t' ht' => ?_) fun _ h => h
  have hfacts : Facts fs t' := ⟨ht'.1, fun _ he => ht'.2 (List.mem_cons_of_mem _ he)⟩
  match r with
  | none => exact createIn_created hfacts 0 token commandLine
  | some lpEnvironment =>
    refine (createIn_created hfacts lpEnvironment token commandLine).ensuring
      (fun r t'' hr => ?_) fun t'' hthrow => ?_
    · split
      · exact ensures_say.mpr (hr.told _)
      · exact hr
    · split
      · exact ensures_say.mpr (by simp [startedBy, hthrow])
      · exact hthrow

/-- The three nested `finally`s. -/
theorem runWithTokenOf_outcome {sessionId : UInt32} {explorers : List Process}
    {userProcess : Process} (hactive : sessionId ≠ 0xFFFFFFFF)
    (h : Facts [.answered (Call.getProcessesByName "explorer") explorers,
      .answered Call.wtsGetActiveConsoleSessionId sessionId] t)
    (hmem : userProcess ∈ explorers) (hin : inSession sessionId userProcess.SessionId) :
    (runWithTokenOf userProcess (command ++ " " ++ arguments)).Ensures (Outcome command arguments)
      (started · = []) t := by
  have hclosed : ∀ (h : IntPtr) (t : List (Event Reply)), started t = [] →
      started (t ++ [.told (Call.closeHandle h)]) = [] := by
    intro h t ht
    simp [startedBy, ht]
  have hkeep : ∀ (h : IntPtr) (ok : Bool) (t : List (Event Reply)), Outcome command arguments ok t →
      Outcome command arguments ok (t ++ [.told (Call.closeHandle h)]) := fun h ok t ht => ht.told _
  refine Ensures.bracket (fun t ht => ht) (fun hProcess t₁ h₁ => ?_) hkeep hclosed
    (tryOpenProcess_facts h _ _)
  obtain ⟨hnull, h₁⟩ := h₁
  refine Ensures.bracket (fun t ht => ht.1) (fun hToken t₂ h₂ => ?_) hkeep hclosed
    (ask_facts h₁ (Call.openProcessToken hProcess TOKEN_DUPLICATE) fun _ => rfl)
  refine Ensures.bracket (fun t ht => ht.1) (fun hUserToken t₃ h₃ => ?_) hkeep hclosed
    (ask_facts h₂ (Call.duplicateTokenEx hToken _ _ _) fun _ => rfl)
  refine (tryCreateProcessAsUser_created h₃ hUserToken (command ++ " " ++ arguments)).bind
    (fun r t₄ h₄ => ?_) fun _ h => h
  match r with
  | none => exact h₄
  | some pid =>
    obtain ⟨hstarted, hfacts⟩ := h₄
    refine ⟨_, hstarted, sessionId, hactive, hfacts (by simp), .inr ⟨hUserToken, rfl, ?_⟩⟩
    exact ⟨explorers, userProcess, hProcess, hToken, hfacts (by simp), hmem, hin, hnull,
      hfacts (by simp), hfacts (by simp), hfacts (by simp)⟩

theorem noExplorer_outcome (h : Facts fs t) (sessionId : UInt32) :
    (noExplorer sessionId).Ensures (Outcome command arguments) (started · = []) t := by
  refine (ask_facts h (Call.getProcessesByName "LogonUI") fun _ => rfl).bind
    (fun (logonUI : List Process) t' ht' => ?_) fun _ h => h
  show Ensures _ _ (if logonUI.any _ then _ else _) t'
  split
  · exact ht'.1
  · exact (ask_facts ht' Call.getProcesses fun _ => rfl).bind (fun _ _ h => h.1) fun _ h => h

theorem runInSession_outcome {sessionId : UInt32} (hactive : sessionId ≠ 0xFFFFFFFF)
    (h : Facts [.answered Call.wtsGetActiveConsoleSessionId sessionId] t) :
    (runInSession sessionId command arguments).Ensures (Outcome command arguments)
      (started · = []) t := by
  refine (ask_facts h Call.getCurrentSessionId fun _ => rfl).bind
    (fun (current : Int32) t₁ h₁ => ?_) fun _ h => h
  show Ensures _ _ (if inSession sessionId current then _ else _) t₁
  split
  next hin =>
    refine ⟨fun r => ?_, h₁.threw _⟩
    refine ⟨.direct "cmd.exe" ("/c \"" ++ command ++ " " ++ arguments ++ "\""), ?_, sessionId,
      hactive, List.mem_append_left _ (h₁.2 (by simp)), .inl ⟨rfl, current,
      List.mem_append_left _ (h₁.2 (by simp)), hin⟩⟩
    rw [started_snoc, h₁.1]
    rfl
  next =>
    have h₁' : Facts [.answered Call.wtsGetActiveConsoleSessionId sessionId] t₁ :=
      ⟨h₁.1, fun e he => h₁.2 (List.mem_cons_of_mem _ he)⟩
    refine (ask_facts h₁' (Call.getProcessesByName "explorer") fun _ => rfl).bind
      (fun (explorers : List Process) t₂ h₂ => ?_) fun _ h => h
    show Ensures _ _ (match explorers.find? _ with | none => _ | some userProcess => _) t₂
    split
    next => exact noExplorer_outcome h₂ sessionId
    next userProcess hfind =>
      exact runWithTokenOf_outcome hactive h₂ (List.mem_of_find?_eq_some hfind)
        (List.find?_some (p := fun p : Process => inSession sessionId p.SessionId) hfind)

/-- **`RunCommandAsUser` answers `true` exactly when it has started one process**, in the session of
    the user at the console; it throws nothing. -/
theorem started_for_user (command arguments : String) (world : World Reply) :
    ∃ ok, ((runCommandAsUser command arguments).exec world []).2 = some ok ∧
      Outcome command arguments ok ((runCommandAsUser command arguments).exec world []).1 := by
  have hspec : (runCommandAsUser command arguments).Ensures (Outcome command arguments)
      (fun _ => False) [] := by
    refine Ensures.handle (E := fun t => started t = []) ?_ ?_
    · intro t ht
      exact ht
    · have hstart : Facts [] [] := ⟨rfl, fun _ he => he⟩
      refine (ask_facts hstart Call.wtsGetActiveConsoleSessionId fun _ => rfl).bind
        (fun (sessionId : UInt32) t₁ h₁ => ?_) fun _ h => h
      show Ensures _ _ (if sessionId = 0xFFFFFFFF then _ else _) t₁
      split
      next => exact h₁.1
      next hactive => exact runInSession_outcome hactive h₁
  have hexec := exec_ensures world hspec
  generalize (runCommandAsUser command arguments).exec world [] = r at hexec
  obtain ⟨t, _ | ok⟩ := r
  · exact hexec.elim
  · exact ⟨ok, rfl, hexec⟩

/-! ## Nothing stays open -/

variable {ctx : List Resource}

theorem balanced_runWithTokenOf (userProcess : Process) (commandLine : String) :
    Balanced ledger ctx (runWithTokenOf userProcess commandLine) := by
  refine balanced_bracket (opens_tryOpenProcess _ _) (Balanced.done false) fun hProcess => ?_
  refine balanced_bracket (opens_tryOpenProcessToken _ List.mem_cons_self) (Balanced.done false)
    fun hToken => ?_
  refine balanced_bracket (opens_tryDuplicateTokenEx _ _ _ List.mem_cons_self) (Balanced.done false)
    fun hUserToken => ?_
  refine (balanced_tryCreateProcessAsUser none commandLine none List.mem_cons_self).bind fun r => ?_
  cases r with
  | none => exact Balanced.done false
  | some pid => exact Balanced.done true

theorem balanced_noExplorer (sessionId : UInt32) : Balanced ledger ctx (noExplorer sessionId) := by
  refine (Balanced.ask (Call.getProcessesByName "LogonUI") (by simp [ledger]) fun _ => rfl).bind
    fun (logonUI : List Process) => ?_
  show Balanced ledger ctx (if logonUI.any _ then _ else _)
  split
  · exact Balanced.done false
  · exact (Balanced.ask Call.getProcesses (by simp [ledger]) fun _ => rfl).bind
      fun _ => Balanced.done false

theorem balanced_runInSession (sessionId : UInt32) (command arguments : String) :
    Balanced ledger ctx (runInSession sessionId command arguments) := by
  refine (Balanced.ask Call.getCurrentSessionId (by simp [ledger]) fun _ => rfl).bind
    fun (current : Int32) => ?_
  show Balanced ledger ctx (if inSession sessionId current then _ else _)
  split
  · exact (Balanced.ask (Call.start _ _) (by simp [ledger]) fun _ => rfl).bind
      fun _ => Balanced.done true
  · refine (Balanced.ask (Call.getProcessesByName "explorer") (by simp [ledger]) fun _ => rfl).bind
      fun (explorers : List Process) => ?_
    show Balanced ledger ctx (match explorers.find? _ with | none => _ | some userProcess => _)
    split
    next => exact balanced_noExplorer sessionId
    next userProcess _ => exact balanced_runWithTokenOf userProcess _

theorem balanced_runCommandAsUser (command arguments : String) :
    Balanced ledger ctx (runCommandAsUser command arguments) := by
  refine Balanced.handle ?_ (Balanced.done false)
  refine (Balanced.ask Call.wtsGetActiveConsoleSessionId (by simp [ledger]) fun _ => rfl).bind
    fun (sessionId : UInt32) => ?_
  show Balanced ledger ctx (if sessionId = 0xFFFFFFFF then _ else _)
  split
  · exact Balanced.done false
  · exact balanced_runInSession sessionId command arguments

/-- What the service asks of Windows. -/
inductive Operation
  | runCommandAsUser (command arguments : String)
  | tryEnablePrivilege (privilegeName : String)
  | tryQuerySessionInformation (sessionId : UInt32) (infoClass : Int32)
  | tryEnumerateSessions
  | tryLogoffSession (sessionId : UInt32) (wait : Bool)
  | tryForceLogoff
  | tryForceLogoffInteractiveUser
  | tryInitiateShutdown (timeoutSeconds : UInt32) (message : Option String)
      (forceAppsClose rebootAfter : Bool)
  | tryAbortShutdown
  | tryLockWorkstation
  | tryGetSessionIdForProcess (processId : UInt32)

/-- One operation, its answer left aside. -/
def perform : Operation → Windows Unit
  | .runCommandAsUser command arguments => do
    let _ ← CommandExecutor.runCommandAsUser command arguments
  | .tryEnablePrivilege privilegeName => do
    let _ ← ProcessHelper.tryEnablePrivilege privilegeName
  | .tryQuerySessionInformation sessionId infoClass => do
    let _ ← ProcessHelper.tryQuerySessionInformation sessionId infoClass
  | .tryEnumerateSessions => do
    let _ ← ProcessHelper.tryEnumerateSessions
  | .tryLogoffSession sessionId wait => do
    let _ ← ShutdownHelper.tryLogoffSession sessionId wait
  | .tryForceLogoff => do
    let _ ← ShutdownHelper.tryForceLogoff
  | .tryForceLogoffInteractiveUser => do
    let _ ← ShutdownHelper.tryForceLogoffInteractiveUser
  | .tryInitiateShutdown timeoutSeconds message forceAppsClose rebootAfter => do
    let _ ← ShutdownHelper.tryInitiateShutdown timeoutSeconds message forceAppsClose rebootAfter
  | .tryAbortShutdown => do
    let _ ← ShutdownHelper.tryAbortShutdown
  | .tryLockWorkstation => do
    let _ ← ShutdownHelper.tryLockWorkstation
  | .tryGetSessionIdForProcess processId => do
    let _ ← ShutdownHelper.tryGetSessionIdForProcess processId

/-- One after another; an exception ends one operation, and not the service. -/
def performAll : List Operation → Windows Unit
  | [] => return ()
  | op :: ops => do
    (perform op).handle (return ())
    performAll ops

theorem balanced_ignoring {α : Type} {p : Windows α} (h : Balanced ledger ctx p) :
    Balanced ledger ctx (do let _ ← p) := h.bind fun _ => Balanced.done ()

theorem balanced_perform (op : Operation) : Balanced ledger ctx (perform op) := by
  cases op with
  | runCommandAsUser command arguments =>
    exact balanced_ignoring (balanced_runCommandAsUser command arguments)
  | tryEnablePrivilege privilegeName =>
    exact balanced_ignoring (balanced_tryEnablePrivilege privilegeName)
  | tryQuerySessionInformation sessionId infoClass =>
    exact balanced_ignoring (balanced_tryQuerySessionInformation sessionId infoClass)
  | tryEnumerateSessions => exact balanced_ignoring balanced_tryEnumerateSessions
  | tryLogoffSession sessionId wait =>
    exact balanced_ignoring (balanced_tryLogoffSession sessionId wait)
  | tryForceLogoff => exact balanced_ignoring balanced_tryForceLogoff
  | tryForceLogoffInteractiveUser => exact balanced_ignoring balanced_tryForceLogoffInteractiveUser
  | tryInitiateShutdown timeoutSeconds message forceAppsClose rebootAfter =>
    exact balanced_ignoring
      (balanced_tryInitiateShutdown timeoutSeconds message forceAppsClose rebootAfter)
  | tryAbortShutdown => exact balanced_ignoring balanced_tryAbortShutdown
  | tryLockWorkstation => exact balanced_ignoring balanced_tryLockWorkstation
  | tryGetSessionIdForProcess processId =>
    exact balanced_ignoring (balanced_tryGetSessionIdForProcess processId)

theorem balanced_performAll : ∀ ops, Balanced ledger ctx (performAll ops)
  | [] => Balanced.done ()
  | op :: ops => ((balanced_perform op).handle (Balanced.done ())).bind
    fun _ => balanced_performAll ops

end Service.CommandExecutor
