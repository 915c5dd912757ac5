/-
  SHUTDOWN AND LOG-OFF (Vorsight.Interop/ShutdownHelper.cs).

  Each function asks for the privilege first, whether it gets it or not, and answers `false` where
  anything throws.  The `uint` that `InitiateSystemShutdownEx` and `AbortSystemShutdown` return is
  taken for an error code.
-/
import Vorsight.Interop.ProcessHelper

namespace Interop.ShutdownHelper

open Calls Prog ProcessHelper

def EWX_LOGOFF : UInt32 := 0
def EWX_FORCE : UInt32 := 4
def SHTDN_REASON_FLAG_PLANNED : UInt32 := 0x80000000
def SHTDN_REASON_MAJOR_APPLICATION : UInt32 := 4
def SHTDN_REASON_MINOR_OTHER : UInt32 := 0

/-- `try { TryEnablePrivilege(SE_SHUTDOWN_NAME); return act(); } catch { return false; }` -/
def privileged (act : Windows Bool) : Windows Bool :=
  (do let _ ← tryEnablePrivilege SE_SHUTDOWN_NAME; act).handle (return false)

def wtsLogoffSession (sessionId : UInt32) (wait : Bool) : Windows Bool :=
  ask (Call.wtsLogoffSession sessionId wait)

def tryLogoffSession (sessionId : UInt32) (wait : Bool) : Windows Bool :=
  privileged (wtsLogoffSession sessionId wait)

def exitWindowsEx (flags reason : UInt32) : Windows Bool := ask (Call.exitWindowsEx flags reason)

def tryForceLogoff : Windows Bool :=
  privileged (exitWindowsEx (EWX_LOGOFF ||| EWX_FORCE)
    (SHTDN_REASON_FLAG_PLANNED ||| SHTDN_REASON_MAJOR_APPLICATION))

def tryForceLogoffInteractiveUser : Windows Bool := privileged do
  let sessionId ← getActiveConsoleSessionId
  if sessionId = 0xFFFFFFFF then return false
  else if sessionId = 0 then return false
  else tryLogoffSession sessionId true

def initiateSystemShutdownEx (message : String) (timeout : UInt32)
    (forceAppsClosed rebootAfterShutdown : Bool) (reason : UInt32) : Windows UInt32 :=
  ask (Call.initiateSystemShutdownEx message timeout forceAppsClosed rebootAfterShutdown reason)

def tryInitiateShutdown (timeoutSeconds : UInt32) (message : Option String)
    (forceAppsClose rebootAfter : Bool) : Windows Bool := privileged do
  let result ← initiateSystemShutdownEx (message.getD "System will shut down shortly")
    timeoutSeconds forceAppsClose rebootAfter (SHTDN_REASON_FLAG_PLANNED |||
      SHTDN_REASON_MAJOR_APPLICATION ||| SHTDN_REASON_MINOR_OTHER)
  return result == 0

def abortSystemShutdown : Windows UInt32 := ask Call.abortSystemShutdown

def tryAbortShutdown : Windows Bool :=
  Prog.handle (do return (← abortSystemShutdown) == 0) (return false)

def lockWorkStation : Windows Bool := ask Call.lockWorkStation

def tryLockWorkstation : Windows Bool := lockWorkStation.handle (return false)

def processIdToSessionId (processId : UInt32) : Windows (Option UInt32) :=
  ask (Call.processIdToSessionId processId)

def tryGetSessionIdForProcess (processId : UInt32) : Windows (Option UInt32) :=
  (processIdToSessionId processId).handle (return none)

/-! ## Nothing stays open -/

variable {ctx : List Resource}

theorem balanced_privileged {act : Windows Bool} (hact : Balanced ledger ctx act) :
    Balanced ledger ctx (privileged act) :=
  ((balanced_tryEnablePrivilege SE_SHUTDOWN_NAME).bind fun _ => hact).handle (Balanced.done false)

theorem balanced_tryLogoffSession (sessionId : UInt32) (wait : Bool) :
    Balanced ledger ctx (tryLogoffSession sessionId wait) :=
  balanced_privileged <| Balanced.ask (Call.wtsLogoffSession sessionId wait) (by simp [ledger])
    fun _ => rfl

theorem balanced_tryForceLogoff : Balanced ledger ctx tryForceLogoff :=
  balanced_privileged <| Balanced.ask (Call.exitWindowsEx _ _) (by simp [ledger]) fun _ => rfl

theorem balanced_tryForceLogoffInteractiveUser :
    Balanced ledger ctx tryForceLogoffInteractiveUser := by
  refine balanced_privileged ((Balanced.ask Call.wtsGetActiveConsoleSessionId (by simp [ledger])
    fun _ => rfl).bind fun (sessionId : UInt32) => ?_)
  show Balanced ledger ctx (if sessionId = 0xFFFFFFFF then _ else if sessionId = 0 then _ else _)
  split
  · exact Balanced.done false
  · split
    · exact Balanced.done false
    · exact balanced_tryLogoffSession sessionId true

theorem balanced_tryInitiateShutdown (timeoutSeconds : UInt32) (message : Option String)
    (forceAppsClose rebootAfter : Bool) :
    Balanced ledger ctx (tryInitiateShutdown timeoutSeconds message forceAppsClose rebootAfter) :=
  balanced_privileged <| (Balanced.ask (Call.initiateSystemShutdownEx _ _ _ _ _)
    (by simp [ledger]) fun _ => rfl).bind fun _ => Balanced.done _

theorem balanced_tryAbortShutdown : Balanced ledger ctx tryAbortShutdown :=
  ((Balanced.ask Call.abortSystemShutdown (by simp [ledger]) fun _ => rfl).bind
    fun _ => Balanced.done _).handle (Balanced.done false)

theorem balanced_tryLockWorkstation : Balanced ledger ctx tryLockWorkstation :=
  (Balanced.ask Call.lockWorkStation (by simp [ledger]) fun _ => rfl).handle (Balanced.done false)

theorem balanced_tryGetSessionIdForProcess (processId : UInt32) :
    Balanced ledger ctx (tryGetSessionIdForProcess processId) :=
  (Balanced.ask (Call.processIdToSessionId processId) (by simp [ledger]) fun _ => rfl).handle
    (Balanced.done none)

end Interop.ShutdownHelper
