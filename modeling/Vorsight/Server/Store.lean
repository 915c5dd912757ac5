/-
  THE SERVER'S STATE, and what its handlers do to it.

  `Store` is everything the handlers of the server share: the database, the clock, the connected
  sockets with their rooms, and what has been emitted.  A handler is a `Task Store`: each Prisma
  call is one operation, so handlers interleave at their `await`s.

  `connects` records the credentials each socket was accepted with by `machine:connect`.  No
  handler reads it; it is what the statements about authentication speak of.
-/
import Vorsight.Library.Task
import Mathlib.Data.List.Sort
import Vorsight.Server.Database

namespace Server

open Js Tables Tasks

/-! ## Arguments of Prisma calls -/

/-- What the handlers use of the JavaScript runtime and of Prisma that has no definition in the
    source: how `new Date(v)` reads a value (`none` is an invalid date), what `Number(v)` is for a
    value that is no number (`(m, p)` is `m / 10 ^ p`, `none` is `NaN`), and which texts an object
    given as a filter of a text column selects (`none` when Prisma rejects the filter). -/
class Runtime where
  dateOf : Json → Option DateTime
  numberOf : Json → Option (Int × Nat)
  stringFilter : List (String × Json) → Option (String → Bool)

/-- `new Date(v)`. -/
def newDate [Runtime] (v : Value) : Option DateTime := v.bind Runtime.dateOf

/-- A value for a nullable text column; `none` when Prisma rejects it. -/
def textArg : Value → Option (Option String)
  | none | some .null => some none
  | some (.str s) => some (some s)
  | _ => none

/-- A value for a required text column, or the id of a `where`. -/
def requiredText : Value → Option String
  | some (.str s) => some s
  | _ => none

/-- A value for a nullable integer column. -/
def intArg : Value → Option (Option Int)
  | none | some .null => some none
  | some (.num n) => some (some n)
  | _ => none

/-- A value for a required integer column. -/
def requiredInt : Value → Option Int
  | some (.num n) => some n
  | _ => none

/-- `JSON.stringify(v)` for a nullable text column. -/
def stringifyArg : Value → Option Text := Option.map .json

/-- `typeof v === 'string' ? v : JSON.stringify(v)`. -/
def textOrJson : Value → Option Text
  | some (.str s) => some (.raw s)
  | v => stringifyArg v

/-- In an update, `undefined` leaves the column alone. -/
def assign {α : Type} (v : Value) (new old : α) : α := if v.isSome then new else old

/-- A value in the `where` of a text column: `undefined` does not filter, an object is a filter. -/
def textFilter [Runtime] : Value → Option (String → Bool)
  | none => some fun _ => true
  | some (.str s) => some (· = s)
  | some (.obj fields) => Runtime.stringFilter fields
  | _ => none

/-! ## Sockets and events -/

/-- A socket; `machineId` is what `machine:connect` has set, which may be any value. -/
structure Socket where
  id : String
  address : String
  connected : Bool := true
  machineId : Value := none
  rooms : List String := []

/-- `machine:${machineId}`. -/
def machineRoom (machineId : String) : String := "machine:" ++ machineId

/-- What the server emits, with the data an event carries. -/
inductive Event
  | machinesList (machines : List (Machine × Option MachineState))
  | machineError (error : String)
  | machineConnected
  | machineArchived (machineId : String) (timestamp : DateTime)
  | machineOnline (machineId : String) (timestamp : DateTime)
  | machineOffline (machineId : String) (timestamp : DateTime)
  | machineDiscovered (machineId name : String) (hostname : Value) (timestamp : DateTime)
  | machineState (machineId : String) (state : Value) (timestamp : DateTime)
  | activityUpdate (timestamp activeWindow processName duration username : Value)
  | auditAlert (auditEvent : Value)
  | auditGlobal (machineId : String) (auditEvent : Value) (timestamp : DateTime)
  | screenshotNew (screenshot : Value)
  | settingsUpdate (settings : Obj Json)

/-- `socket.emit`, `io.to(room).emit` and `io.emit`. -/
inductive Target
  | socket (id : String)
  | room (name : String)
  | everyone

/-- An event with the sockets it went to. -/
structure Emission where
  event : Event
  recipients : List String

/-- A `machine:connect` that was accepted: the socket, and the two values it sent. -/
structure Connect where
  socket : String
  machineId : Value
  apiKey : Value

/-- The state the handlers share. -/
structure Store where
  db : Database
  now : DateTime
  sockets : Table Socket.id
  emitted : List Emission := []
  connects : List Connect := []

namespace Store

def reaches : Target → Socket → Bool
  | .socket id, s => s.connected && s.id = id
  | .room name, s => s.connected && name ∈ s.rooms
  | .everyone, s => s.connected

/-- Emit an event to the sockets connected now. -/
def emit (s : Store) (target : Target) (event : Event) : Store :=
  { s with emitted := s.emitted ++
      [{ event, recipients := (s.sockets.rows.filter (reaches target)).map Socket.id }] }

/-- Change the socket with an id. -/
def updateSocket (s : Store) (id : String) (f : Socket → Socket) (hf : ∀ k, (f k).id = k.id) :
    Store :=
  { s with sockets := s.sockets.update id f hf }

@[simp] theorem emit_db (s : Store) (target : Target) (event : Event) :
    (s.emit target event).db = s.db := rfl

@[simp] theorem emit_connects (s : Store) (target : Target) (event : Event) :
    (s.emit target event).connects = s.connects := rfl

@[simp] theorem updateSocket_db (s : Store) (id : String) (f : Socket → Socket)
    (hf : ∀ k, (f k).id = k.id) : (s.updateSocket id f hf).db = s.db := rfl

@[simp] theorem updateSocket_connects (s : Store) (id : String) (f : Socket → Socket)
    (hf : ∀ k, (f k).id = k.id) : (s.updateSocket id f hf).connects = s.connects := rfl

/-- The sockets, once one is changed. -/
theorem mem_updateSocket {s : Store} {id : String} {f : Socket → Socket}
    {hf : ∀ k, (f k).id = k.id} {k : Socket} : k ∈ (s.updateSocket id f hf).sockets.rows ↔
      (k ∈ s.sockets.rows ∧ k.id ≠ id) ∨ ∃ k' ∈ s.sockets.rows, k'.id = id ∧ k = f k' :=
  @Table.mem_update _ _ _ _ s.sockets id f hf k

/-- A server with one adopted machine and one socket, for concrete runs. -/
def adopted : Store where
  db := { Database.empty with machines :=
    ⟨[{ id := "PC-1", name := "Reception", registrationDate := 0, status := .active,
        apiKey := "4f1c", createdAt := 0 }], by decide⟩ }
  now := 1709294400000
  sockets := ⟨[{ id := "a", address := "10.0.0.7" }], by decide⟩

end Store

/-! ## Steps of handlers -/

/-- A Prisma call that writes; it may use the clock, and throws where it gives `none`. -/
def write (f : Database → DateTime → Option Database) : Task Store Unit :=
  .op fun s => (f s.db s.now).map fun db => ({ s with db }, ())

/-- A Prisma call that reads. -/
def read {α : Type} (f : Database → α) : Task Store α := .query fun s => f s.db

/-- Emit an event, which may carry the time. -/
def emit (target : Target) (event : DateTime → Event) : Task Store Unit :=
  .effect fun s => s.emit target (event s.now)

theorem exec_write_some {f : Database → DateTime → Option Database} {s : Store} {db : Database}
    (h : f s.db s.now = some db) : (write f).exec s = ({ s with db }, some ()) := by
  simp [write, Task.exec_op, h]

@[simp] theorem exec_read {α : Type} (f : Database → α) (s : Store) :
    (read f).exec s = (s, some (f s.db)) := rfl

@[simp] theorem exec_emit (target : Target) (event : DateTime → Event) (s : Store) :
    (emit target event).exec s = (s.emit target (event s.now), some ()) := rfl

/-- `machine.findUnique({ where: { id }, select: { status: true } })`. -/
def findStatus (id : String) : Task Store (Option MachineStatus) :=
  read fun db => (db.machines.find id).map (·.status)

/-- `machineState.findUnique({ where: { machineId: id }, select: { settings: true } })`, parsed. -/
def findSettings (id : String) : Task Store (Option (Obj Json)) := read fun db => db.settingsOf id

/-- `broadcastMachineList`: all machines with their states, by name; an error is only logged.  The
    event carries the rows each shown machine is built from. -/
def broadcastMachineList (target : Target) : Task Store Unit :=
  Task.handle (do
    let machines ← read fun db =>
      (db.machines.rows.map fun m => (m, db.machineStates.find m.id)).insertionSort
        fun a b => a.1.name ≤ b.1.name
    emit target fun _ => .machinesList machines) (pure ())

end Server
