/-
  THE WRAPPERS AROUND WINDOWS (Vorsight.Interop/ProcessHelper.cs), and the handles they hold.

  Each P/Invoke and each call of `System.Diagnostics` is a call of the outside world, with the data
  it is given and what it answers.  A function that returns `bool` and sets an `out` parameter
  answers an `Option`.  `Marshal.GetLastWin32Error` is only logged, and left out.

  1. **The calls** (`Call`, `Reply`), and what they open, need and close (`ledger`): a handle, an
     environment block, or memory of the terminal services.

  2. **The wrappers**, each one balanced: whatever Windows answers or throws, they use only what is
     open, close what they have opened, and in the reverse order.
-/
import Vorsight.Library.Calls

namespace Interop

open Calls

/-- A handle or an address. -/
abbrev IntPtr := UInt64

/-- `System.Diagnostics.Process`, as far as it is read. -/
structure Process where
  Id : Int32
  SessionId : Int32
  ProcessName : String
deriving DecidableEq, Repr

structure PROCESS_INFORMATION where
  hProcess : IntPtr
  hThread : IntPtr
  dwProcessId : UInt32
  dwThreadId : UInt32
deriving DecidableEq, Repr

structure LUID where
  LowPart : UInt32
  HighPart : Int32
deriving DecidableEq, Repr

structure TOKEN_PRIVILEGES where
  PrivilegeCount : UInt32
  Luid : LUID
  Attributes : UInt32
deriving DecidableEq, Repr

structure WTS_SESSION_INFO where
  SessionId : UInt32 := 0
  pWinStationName : IntPtr := 0
  State : Int32 := 0
deriving DecidableEq, Repr

/-! ## Constants -/

def CREATE_UNICODE_ENVIRONMENT : UInt32 := 0x00000400
def NORMAL_PRIORITY_CLASS : UInt32 := 0x00000020
def CREATE_NO_WINDOW : UInt32 := 0x08000000
def PROCESS_QUERY_INFORMATION : UInt32 := 0x0400
def PROCESS_QUERY_LIMITED_INFORMATION : UInt32 := 0x1000
def TOKEN_ADJUST_PRIVILEGES : UInt32 := 0x0020
def TOKEN_QUERY : UInt32 := 0x0008
def TOKEN_DUPLICATE : UInt32 := 0x0002
def TOKEN_ASSIGN_PRIMARY : UInt32 := 0x0001
def SecurityImpersonation : Int32 := 2
def TokenPrimary : Int32 := 1
def SE_PRIVILEGE_ENABLED : UInt32 := 0x00000002
def SE_SHUTDOWN_NAME : String := "SeShutdownPrivilege"

/-! ## The calls -/

inductive Call
  | getCurrentProcessId
  /-- `Process.GetCurrentProcess().SessionId` -/
  | getCurrentSessionId
  | getProcessesByName (name : String)
  | getProcesses
  /-- `Process.Start`, without a shell and without a window -/
  | start (fileName arguments : String)
  | wtsGetActiveConsoleSessionId
  | openProcess (desiredAccess : UInt32) (bInheritHandle : Bool) (processId : UInt32)
  | openProcessToken (processHandle : IntPtr) (desiredAccess : UInt32)
  | duplicateTokenEx (existingToken : IntPtr) (desiredAccess : UInt32)
      (impersonationLevel tokenType : Int32)
  | createEnvironmentBlock (token : IntPtr) (bInherit : Bool)
  | createProcessAsUser (token : IntPtr) (applicationName : Option String) (commandLine : String)
      (bInheritHandles : Bool) (creationFlags : UInt32) (lpEnvironment : IntPtr)
      (currentDirectory : Option String) (lpDesktop : String)
  | lookupPrivilegeValue (name : String)
  | adjustTokenPrivileges (token : IntPtr) (disableAll : Bool) (newState : TOKEN_PRIVILEGES)
  | wtsQuerySessionInformation (sessionId : UInt32) (infoClass : Int32)
  | ptrToStringAnsi (buffer : IntPtr)
  | wtsEnumerateSessions
  /-- `new WTS_SESSION_INFO[sessionCount]` -/
  | newSessionArray (sessionCount : UInt32)
  /-- `PtrToStructure(sessionInfoPtr + i * structSize)` -/
  | ptrToStructure (sessionInfoPtr : IntPtr) (i : Nat)
  | wtsLogoffSession (sessionId : UInt32) (wait : Bool)
  | exitWindowsEx (flags reason : UInt32)
  | initiateSystemShutdownEx (message : String) (timeout : UInt32) (forceAppsClosed : Bool)
      (rebootAfterShutdown : Bool) (reason : UInt32)
  | abortSystemShutdown
  | lockWorkStation
  | processIdToSessionId (processId : UInt32)
  | closeHandle (handle : IntPtr)
  | destroyEnvironmentBlock (lpEnvironment : IntPtr)
  | wtsFreeMemory (memory : IntPtr)
deriving DecidableEq

def Reply : Call → Type
  | .getCurrentProcessId => Int32
  | .getCurrentSessionId => Int32
  | .getProcessesByName _ => List Process
  | .getProcesses => List Process
  | .start _ _ => Unit
  | .wtsGetActiveConsoleSessionId => UInt32
  | .openProcess _ _ _ => IntPtr
  | .openProcessToken _ _ => Option IntPtr
  | .duplicateTokenEx _ _ _ _ => Option IntPtr
  | .createEnvironmentBlock _ _ => Option IntPtr
  | .createProcessAsUser _ _ _ _ _ _ _ _ => Option PROCESS_INFORMATION
  | .lookupPrivilegeValue _ => Option Int64
  | .adjustTokenPrivileges _ _ _ => Bool
  | .wtsQuerySessionInformation _ _ => Option IntPtr
  | .ptrToStringAnsi _ => Option String
  | .wtsEnumerateSessions => Option (IntPtr × UInt32)
  | .newSessionArray _ => Unit
  | .ptrToStructure _ _ => Option WTS_SESSION_INFO
  | .wtsLogoffSession _ _ => Bool
  | .exitWindowsEx _ _ => Bool
  | .initiateSystemShutdownEx _ _ _ _ _ => UInt32
  | .abortSystemShutdown => UInt32
  | .lockWorkStation => Bool
  | .processIdToSessionId _ => Option UInt32
  | .closeHandle _ => Bool
  | .destroyEnvironmentBlock _ => Bool
  | .wtsFreeMemory _ => Unit

/-- A program that calls Windows. -/
abbrev Windows (α : Type) := Prog Reply α

/-! ## What is open -/

inductive Resource
  | handle (h : IntPtr)
  | environment (lpEnvironment : IntPtr)
  | memory (buffer : IntPtr)
deriving DecidableEq, Repr

/-- `OpenProcess` fails with a null handle. -/
def handles (h : IntPtr) : List Resource := if h = 0 then [] else [.handle h]

/-- A null environment is the parent's, and not a block of its own. -/
def environments (lpEnvironment : IntPtr) : List Resource :=
  if lpEnvironment = 0 then [] else [.environment lpEnvironment]

def ledger : Ledger Reply Resource where
  needs
    | .openProcessToken h _ => [.handle h]
    | .duplicateTokenEx h _ _ _ => [.handle h]
    | .createEnvironmentBlock h _ => [.handle h]
    | .createProcessAsUser h _ _ _ _ env _ _ => .handle h :: environments env
    | .adjustTokenPrivileges h _ _ => [.handle h]
    | .ptrToStringAnsi p => [.memory p]
    | .ptrToStructure p _ => [.memory p]
    | _ => []
  opens c r := match c, r with
    | .openProcess _ _ _, h => handles h
    | .openProcessToken _ _, some h => [.handle h]
    | .duplicateTokenEx _ _ _ _, some h => [.handle h]
    | .createEnvironmentBlock _ _, some p => environments p
    | .createProcessAsUser _ _ _ _ _ _ _ _, some info => [.handle info.hProcess, .handle info.hThread]
    | .wtsQuerySessionInformation _ _, some p => [.memory p]
    | .wtsEnumerateSessions, some (p, _) => [.memory p]
    | _, _ => []
  closes
    | .closeHandle h => some (.handle h)
    | .destroyEnvironmentBlock p => some (.environment p)
    | .wtsFreeMemory p => some (.memory p)
    | _ => none

/-! ## The wrappers -/

namespace ProcessHelper

open Prog

def openProcess (desiredAccess : UInt32) (bInheritHandle : Bool) (processId : UInt32) :
    Windows IntPtr :=
  ask (Call.openProcess desiredAccess bInheritHandle processId)

def tryOpenProcess (processId desiredAccess : UInt32) : Windows (Option IntPtr) := do
  let processHandle ← openProcess desiredAccess false processId
  if processHandle = 0 then return none else return some processHandle

def tryOpenProcessToken (processHandle : IntPtr) (desiredAccess : UInt32) :
    Windows (Option IntPtr) :=
  ask (Call.openProcessToken processHandle desiredAccess)

def tryDuplicateTokenEx (existingToken : IntPtr) (desiredAccess : UInt32)
    (impersonationLevel tokenType : Int32) : Windows (Option IntPtr) :=
  ask (Call.duplicateTokenEx existingToken desiredAccess impersonationLevel tokenType)

def createEnvironmentBlock (token : IntPtr) (bInherit : Bool) : Windows (Option IntPtr) :=
  ask (Call.createEnvironmentBlock token bInherit)

def createProcessAsUser (token : IntPtr) (applicationName : Option String) (commandLine : String)
    (bInheritHandles : Bool) (creationFlags : UInt32) (lpEnvironment : IntPtr)
    (currentDirectory : Option String) (lpDesktop : String) : Windows (Option PROCESS_INFORMATION) :=
  ask (Call.createProcessAsUser token applicationName commandLine bInheritHandles creationFlags
    lpEnvironment currentDirectory lpDesktop)

/-- The second part of `TryCreateProcessAsUser`, under its `finally`. -/
def createIn (lpEnvironment userToken : IntPtr) (applicationPath : Option String)
    (commandLine : String) (workingDirectory : Option String) : Windows (Option UInt32) := do
  match ← createProcessAsUser userToken applicationPath commandLine false
    (CREATE_UNICODE_ENVIRONMENT ||| NORMAL_PRIORITY_CLASS ||| CREATE_NO_WINDOW) lpEnvironment
    workingDirectory "winsta0\\default" with
  | none => return none
  | some processInfo =>
    say (Call.closeHandle processInfo.hProcess)
    say (Call.closeHandle processInfo.hThread)
    return some processInfo.dwProcessId

/-- The process id, or `none`. -/
def tryCreateProcessAsUser (userToken : IntPtr) (applicationPath : Option String)
    (commandLine : String) (workingDirectory : Option String) : Windows (Option UInt32) := do
  match ← createEnvironmentBlock userToken false with
  -- the process gets the environment of the service
  | none => createIn 0 userToken applicationPath commandLine workingDirectory
  | some lpEnvironment =>
    (createIn lpEnvironment userToken applicationPath commandLine workingDirectory).ensuring
      (if lpEnvironment ≠ 0 then say (Call.destroyEnvironmentBlock lpEnvironment) else return ())

def getActiveConsoleSessionId : Windows UInt32 := ask Call.wtsGetActiveConsoleSessionId

def wtsQuerySessionInformation (sessionId : UInt32) (infoClass : Int32) : Windows (Option IntPtr) :=
  ask (Call.wtsQuerySessionInformation sessionId infoClass)

def ptrToStringAnsi (buffer : IntPtr) : Windows (Option String) := ask (Call.ptrToStringAnsi buffer)

/-- `none` is `false`; the string itself may be null. -/
def tryQuerySessionInformation (sessionId : UInt32) (infoClass : Int32) :
    Windows (Option (Option String)) :=
  bracket (wtsQuerySessionInformation sessionId infoClass) Call.wtsFreeMemory (return none)
    fun buffer => do return some (← ptrToStringAnsi buffer)

def wtsEnumerateSessions : Windows (Option (IntPtr × UInt32)) := ask Call.wtsEnumerateSessions

def newSessionArray (sessionCount : UInt32) : Windows Unit := ask (Call.newSessionArray sessionCount)

def ptrToStructure (sessionInfoPtr : IntPtr) (i : Nat) : Windows (Option WTS_SESSION_INFO) :=
  ask (Call.ptrToStructure sessionInfoPtr i)

/-- The loop up to `i < n`: the entries of the array so far. -/
def readSessions (sessionInfoPtr : IntPtr) : Nat → Windows (List WTS_SESSION_INFO)
  | 0 => return []
  | n + 1 => do
    let sessions ← readSessions sessionInfoPtr n
    let entry ← ptrToStructure sessionInfoPtr n
    return sessions ++ [entry.getD {}]

def tryEnumerateSessions : Windows (Option (List WTS_SESSION_INFO)) :=
  bracket wtsEnumerateSessions (fun info => Call.wtsFreeMemory info.1) (return none) fun info => do
    newSessionArray info.2
    return some (← readSessions info.1 info.2.toNat)

/-- `luid & 0xFFFFFFFF` and `luid >> 32`. -/
def ofLuid (luid : Int64) : LUID := ⟨luid.toUInt64.toUInt32, (luid >>> 32).toInt32⟩

def getCurrentProcessId : Windows Int32 := ask Call.getCurrentProcessId

def lookupPrivilegeValue (privilegeName : String) : Windows (Option Int64) :=
  ask (Call.lookupPrivilegeValue privilegeName)

def adjustTokenPrivileges (token : IntPtr) (newState : TOKEN_PRIVILEGES) : Windows Bool :=
  ask (Call.adjustTokenPrivileges token false newState)

def tryEnablePrivilege (privilegeName : String) : Windows Bool := do
  let pid ← getCurrentProcessId
  bracket (tryOpenProcess pid.toUInt32 PROCESS_QUERY_INFORMATION) Call.closeHandle (return false)
    fun processHandle =>
      bracket (tryOpenProcessToken processHandle (TOKEN_ADJUST_PRIVILEGES ||| TOKEN_QUERY))
        Call.closeHandle (return false) fun tokenHandle => do
          match ← lookupPrivilegeValue privilegeName with
          | none => return false
          | some luid =>
            adjustTokenPrivileges tokenHandle ⟨1, ofLuid luid, SE_PRIVILEGE_ENABLED⟩

/-! ## Each is balanced -/

variable {ctx : List Resource} {h : IntPtr}

/-- What `Try…` opens: the handle of its `out` parameter. -/
def opened (r : Option (Option IntPtr)) : List Resource := r.join.elim [] fun h => [.handle h]

theorem opens_tryOpenProcess (processId desiredAccess : UInt32) :
    Opens ledger ctx opened (tryOpenProcess processId desiredAccess) := by
  intro t st hst hheld
  have hneeds : ∀ x ∈ ([] : List Resource), x ∈ st := by simp
  refine ⟨fun (h : IntPtr) => ?_, Ledger.held_threw (Call.openProcess desiredAccess false processId) hheld hneeds⟩
  have hheld' : ledger.held (t ++ [.answered (.openProcess desiredAccess false processId) h]) =
      some (handles h ++ st) :=
    Ledger.held_answered (Call.openProcess desiredAccess false processId) hheld hneeds h
  show Prog.Ensures _ _ (if h = 0 then .done none else .done (some h)) _
  split
  next hnull =>
    rw [handles, if_pos hnull] at hheld'
    exact hheld'
  next hnull =>
    rw [handles, if_neg hnull] at hheld'
    exact hheld'

theorem opens_tryOpenProcessToken (desiredAccess : UInt32) (hopen : .handle h ∈ ctx) :
    Opens ledger ctx opened (tryOpenProcessToken h desiredAccess) := by
  refine (Opens.ask (Call.openProcessToken h desiredAccess)
    (List.forall_mem_singleton.mpr hopen)).congr fun r => ?_
  match r with
  | none => rfl
  | some none => rfl
  | some (some _) => rfl

theorem opens_tryDuplicateTokenEx (desiredAccess : UInt32) (impersonationLevel tokenType : Int32)
    (hopen : .handle h ∈ ctx) :
    Opens ledger ctx opened (tryDuplicateTokenEx h desiredAccess impersonationLevel tokenType) := by
  refine (Opens.ask (Call.duplicateTokenEx h desiredAccess impersonationLevel tokenType)
    (List.forall_mem_singleton.mpr hopen)).congr fun r => ?_
  match r with
  | none => rfl
  | some none => rfl
  | some (some _) => rfl

/-- **Open, use, close** for handles. -/
theorem balanced_bracket {α : Type} {acquire : Windows (Option IntPtr)} {failed : Windows α}
    {body : IntPtr → Windows α} (hopen : Opens ledger ctx opened acquire)
    (hfailed : Balanced ledger ctx failed)
    (hbody : ∀ h, Balanced ledger (.handle h :: ctx) (body h)) :
    Balanced ledger ctx (acquire.bracket Call.closeHandle failed body) :=
  Balanced.bracket Resource.handle hopen (fun _ => rfl) (fun _ => rfl) hfailed hbody

/-- The two handles of the new process are closed at once. -/
theorem balanced_createIn (lpEnvironment : IntPtr) {userToken : IntPtr} (applicationPath : Option String)
    (commandLine : String) (workingDirectory : Option String) (htoken : .handle userToken ∈ ctx)
    (henv : ∀ x ∈ environments lpEnvironment, x ∈ ctx) :
    Balanced ledger ctx
      (createIn lpEnvironment userToken applicationPath commandLine workingDirectory) := by
  refine (Opens.ask (Call.createProcessAsUser userToken applicationPath commandLine false
    (CREATE_UNICODE_ENVIRONMENT ||| NORMAL_PRIORITY_CLASS ||| CREATE_NO_WINDOW) lpEnvironment
    workingDirectory "winsta0\\default") ?_).bind rfl fun r t st hst hheld => ?_
  · intro x hx
    rcases List.mem_cons.mp hx with rfl | hx
    · exact htoken
    · exact henv x hx
  · match r with
    | none => exact hheld
    | some processInfo =>
      have hheld' := Ledger.held_closed (Call.closeHandle processInfo.hProcess) hheld rfl rfl
      exact Ledger.held_closed (Call.closeHandle processInfo.hThread) hheld' rfl rfl

theorem balanced_tryCreateProcessAsUser {userToken : IntPtr} (applicationPath : Option String)
    (commandLine : String) (workingDirectory : Option String) (htoken : .handle userToken ∈ ctx) :
    Balanced ledger ctx
      (tryCreateProcessAsUser userToken applicationPath commandLine workingDirectory) := by
  refine (Opens.ask (Call.createEnvironmentBlock userToken false)
    (List.forall_mem_singleton.mpr htoken)).bind rfl fun r t st hst hheld => ?_
  match r with
  | none =>
    exact balanced_createIn 0 applicationPath commandLine workingDirectory htoken
      (by simp [environments]) t st hst hheld
  | some lpEnvironment =>
    show Prog.Ensures _ _ (Prog.ensuring _ (if lpEnvironment ≠ 0 then _ else _)) t
    replace hheld : ledger.held t = some (environments lpEnvironment ++ st) := hheld
    by_cases hnull : lpEnvironment = 0
    · have hnone : environments lpEnvironment = [] := if_pos hnull
      rw [hnone] at hheld
      rw [if_neg (not_not.mpr hnull)]
      have hcreate := balanced_createIn lpEnvironment applicationPath commandLine workingDirectory
        htoken (by simp [hnone])
      exact hcreate.ensuring (Balanced.done ()) t st hst hheld
    · have hone : environments lpEnvironment = [.environment lpEnvironment] := if_neg hnull
      rw [hone] at hheld
      rw [if_pos hnull]
      refine Balanced.ensures_closing (balanced_createIn lpEnvironment applicationPath commandLine
        workingDirectory (List.mem_cons_of_mem _ htoken) ?_) rfl rfl hst hheld
      rw [hone]
      exact List.forall_mem_singleton.mpr List.mem_cons_self

theorem balanced_tryQuerySessionInformation (sessionId : UInt32) (infoClass : Int32) :
    Balanced ledger ctx (tryQuerySessionInformation sessionId infoClass) := by
  refine Balanced.bracket Resource.memory ?_ (fun _ => rfl) (fun _ => rfl)
    (Balanced.done none) fun buffer => ?_
  · refine (Opens.ask (Call.wtsQuerySessionInformation sessionId infoClass) (by simp [ledger])).congr
      fun r => ?_
    match r with
    | none => rfl
    | some none => rfl
    | some (some _) => rfl
  · exact (Balanced.ask (Call.ptrToStringAnsi buffer)
      (List.forall_mem_singleton.mpr List.mem_cons_self) fun _ => rfl).bind
      fun result => Balanced.done (some result)

theorem balanced_readSessions (sessionInfoPtr : IntPtr) (hopen : .memory sessionInfoPtr ∈ ctx) :
    ∀ n, Balanced ledger ctx (readSessions sessionInfoPtr n)
  | 0 => Balanced.done []
  | n + 1 => (balanced_readSessions sessionInfoPtr hopen n).bind fun _ =>
    (Balanced.ask (Call.ptrToStructure sessionInfoPtr n) (List.forall_mem_singleton.mpr hopen)
      fun _ => rfl).bind fun _ => Balanced.done _

theorem balanced_tryEnumerateSessions : Balanced ledger ctx tryEnumerateSessions := by
  refine Balanced.bracket (fun info => Resource.memory info.1) ?_ (fun _ => rfl)
    (fun _ => rfl) (Balanced.done none) fun info => ?_
  · refine (Opens.ask Call.wtsEnumerateSessions (by simp [ledger])).congr fun r => ?_
    match r with
    | none => rfl
    | some none => rfl
    | some (some _) => rfl
  · refine (Balanced.ask (Call.newSessionArray info.2) (by simp [ledger]) fun _ => rfl).bind
      fun _ => ?_
    exact (balanced_readSessions info.1 List.mem_cons_self info.2.toNat).bind
      fun sessions => Balanced.done (some sessions)

theorem balanced_tryEnablePrivilege (privilegeName : String) :
    Balanced ledger ctx (tryEnablePrivilege privilegeName) := by
  refine (Balanced.ask Call.getCurrentProcessId (by simp [ledger]) fun _ => rfl).bind fun pid => ?_
  refine balanced_bracket (opens_tryOpenProcess _ _) (Balanced.done false) fun processHandle => ?_
  refine balanced_bracket (opens_tryOpenProcessToken _ List.mem_cons_self) (Balanced.done false)
    fun tokenHandle => ?_
  refine (Balanced.ask (Call.lookupPrivilegeValue privilegeName) (by simp [ledger])
    fun _ => rfl).bind fun luid => ?_
  match luid with
  | none => exact Balanced.done false
  | some luid =>
    exact Balanced.ask (Call.adjustTokenPrivileges tokenHandle false _)
      (List.forall_mem_singleton.mpr List.mem_cons_self) fun _ => rfl

end ProcessHelper

end Interop
