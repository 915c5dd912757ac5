/-
  THE PING MONITOR (server/src/jobs/pingMonitor.ts).

  A check pings the machines that have not been seen for two minutes, one after the other, and puts
  the outcome into their states.  What a probe finds is chosen from outside; a probe or a Prisma
  call that fails only ends the check of its machine.
-/
import Mathlib.Algebra.Group.Int.Defs
import Vorsight.Server.Store

namespace Server.PingMonitor

open Js Tables Tasks

/-- What a probe answers: the time is `m / 10 ^ p` milliseconds, and `none` for `'unknown'`. -/
structure Probe where
  alive : Bool
  time : Option (Int × Nat)

/-- What the probes of one check answer, by the target; `none` when a probe is rejected. -/
abbrev Probes := String → Option Probe

/-- `Math.round(m / 10 ^ p)`. -/
def round (m : Int) (p : Nat) : Int := (2 * m + 10 ^ p) / (2 * 10 ^ p)

/-- `pingTime ? Math.round(pingTime) : null`; `none` where that is `NaN`. -/
def Probe.latency (r : Probe) : Option (Option Int) :=
  if r.alive then r.time.map fun (m, p) => if m = 0 then none else some (round m p)
  else some none

/-- `pingStatus`. -/
def Probe.status (r : Probe) : String := if r.alive then "reachable" else "unreachable"

/-- `machine.ipAddress || machine.hostname`, where that is no empty text. -/
def target (m : Machine) : Option String :=
  (m.ipAddress.filter (· ≠ "")).or (m.hostname.filter (· ≠ ""))

/-- Store ping result in machine_state: an update leaves the settings alone. -/
def storePing (id : String) (prevSettings : Option (Obj Json)) (result : Probe) (db : Database)
    (now : DateTime) : Option Database := do
  let pingLatency ← result.latency
  db.upsertState id
    { machineId := id, healthStatus := some (.raw result.status), lastPingTime := some now,
      lastPingSuccess := if result.alive then some now else none, pingLatency,
      -- preserve or init
      settings := some (prevSettings.getD .empty), updatedAt := now }
    (fun r => { r with
      healthStatus := some (.raw result.status)
      lastPingTime := some now
      lastPingSuccess := if result.alive then some now else r.lastPingSuccess
      pingLatency
      updatedAt := now }) fun _ => rfl

/-- The body of the loop, for a machine with a target. -/
def checkMachine (probes : Probes) (id target : String) : Task Store Unit := do
  let result ← .op fun s => (probes target).map fun result => (s, result)
  let prevSettings ← findSettings id
  write (storePing id prevSettings result)

def checkMachines (probes : Probes) : List Machine → Task Store Unit
  | [] => pure ()
  | machine :: rest => do
    match target machine with
    | none => pure ()
    | some target => Task.handle (checkMachine probes machine.id target) (pure ())
    checkMachines probes rest

/-- `prisma.machine.findMany(…)`: not seen since `twoMinutesAgo`. -/
def offlineMachines (twoMinutesAgo : DateTime) (db : Database) : List Machine :=
  db.machines.rows.filter fun m => m.lastSeen.all (· < twoMinutesAgo)

def checkOfflineMachines (probes : Probes) : Task Store Unit :=
  Task.handle (do
    let now ← .look fun s => s.now
    let machines ← read (offlineMachines (now - 2 * 60 * 1000))
    checkMachines probes machines) (pure ())

end Server.PingMonitor
