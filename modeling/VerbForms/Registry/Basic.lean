import VerbForms.Assoc

/-!
# Registries of consoles

A registry keeps consoles by path, at most as many as its bound, and lets the least recently used one go
first. A visit to a path finds the console there or builds it under the lock of the path. Locks are first
come, first served: a lock is held while the visit that took it builds, and a visit that has been woken
takes the lock at its next turn. The lock of a path is forgotten when the path has no console any more
and nobody holds the lock.

Each function here is what happens at one moment between two turns of the visits.
-/

namespace VerbForms

/-- The number of a console. -/
abbrev ConsoleId := Nat

/-- The number of a visit, a reset or a closing. -/
abbrev Ticket := Nat

namespace Registry

/-- The number of a lock. -/
abbrev LockId := Nat

/-- How far a visit is. -/
inductive Stage where
  /-- In the queue of its lock. -/
  | waiting
  /-- First in the queue, and takes the lock at its next turn. -/
  | woken
  /-- Cancelled while it was waiting; leaves the queue at its next turn. -/
  | withdrawn
  /-- Cancelled after it had been woken; leaves the queue at its next turn. -/
  | dismissed
  /-- Holds the lock and builds; the console, once there is one. -/
  | building (made : Option ConsoleId)
  /-- Holds the lock and closes the console whose start has failed. -/
  | discarding (console : ConsoleId)
  deriving DecidableEq, Repr

/-- Stages in which the lock is held. -/
def Stage.holds : Stage → Bool
  | .building _ | .discarding _ => true
  | _ => false

/-- A visit that has not ended. -/
structure Visit where
  ticket : Ticket
  path : String
  lock : LockId
  stage : Stage
  deriving DecidableEq, Repr

/-- Consoles that an operation still has to close. -/
structure Closing where
  ticket : Ticket
  left : List ConsoleId
  deriving DecidableEq, Repr

end Registry

/-- A registry of consoles. -/
structure Registry where
  bound : Nat
  bound_pos : 0 < bound
  /-- The consoles by path, the least recently used one first. -/
  cached : List (String × ConsoleId)
  /-- The locks of paths. -/
  locks : List (String × Registry.LockId)
  nextLock : Registry.LockId
  /-- The visits in order of arrival, which is the order of the queues. -/
  visits : List Registry.Visit
  closings : List Registry.Closing

/-- The bound leaves no room for a console. -/
structure NoRoom where
  deriving DecidableEq, Repr

/-- The wording of a refusal. -/
def NoRoom.message (_ : NoRoom) : String := "A console registry must hold at least one console"

namespace Registry

/-- An empty registry. -/
def make (bound : Int) : Except NoRoom Registry :=
  if h : 0 < bound.toNat then .ok ⟨bound.toNat, h, [], [], 0, [], []⟩ else .error {}

/-- The console at a path. -/
def find? (r : Registry) (path : String) : Option ConsoleId := Assoc.get? r.cached path

/-- Number of consoles. -/
def size (r : Registry) : Nat := r.cached.length

/-- Whether somebody holds a lock. -/
def held (r : Registry) (lock : LockId) : Bool := r.visits.any fun v => v.lock == lock && v.stage.holds

/-- The visits in the queue of a lock. -/
def queue (r : Registry) (lock : LockId) : List Visit := r.visits.filter fun v => v.lock == lock && !v.stage.holds

/-- Whether a newcomer gets a lock at once. -/
def isFree (r : Registry) (lock : LockId) : Bool := !r.held lock && (r.queue lock).all (·.stage == .withdrawn)

/-- The visit with a ticket. -/
def visit? (r : Registry) (ticket : Ticket) : Option Visit := r.visits.find? (·.ticket == ticket)

/-- Change the stage of a visit. -/
def setStage (r : Registry) (ticket : Ticket) (stage : Stage) : Registry :=
  { r with visits := r.visits.map fun v => if v.ticket = ticket then { v with stage } else v }

/-- Remove a visit, and with it its hold on the lock. -/
def remove (r : Registry) (ticket : Ticket) : Registry := { r with visits := r.visits.filter (·.ticket != ticket) }

/-- Use the console at a path. -/
def touch (r : Registry) (path : String) (console : ConsoleId) : Registry :=
  { r with cached := Assoc.erase r.cached path ++ [(path, console)] }

/-- Forget a lock, unless somebody holds it or the path has another one. -/
def forgetLock (r : Registry) (path : String) (lock : LockId) : Registry :=
  if !r.held lock && Assoc.get? r.locks path == some lock then { r with locks := Assoc.erase r.locks path } else r

/-- Forget the lock of a path. -/
def forgetLockOf (r : Registry) (path : String) : Registry :=
  match Assoc.get? r.locks path with
  | some lock => r.forgetLock path lock
  | none => r

/-- Forget a lock of a path that has no console. -/
def tidy (r : Registry) (path : String) (lock : LockId) : Registry :=
  if (r.find? path).isSome then r else r.forgetLock path lock

/-- Wake the first in the queue of a lock, unless it is awake already; gives its ticket. -/
def wakeFirst (r : Registry) (lock : LockId) : Registry × Option Ticket :=
  match r.queue lock with
  | first :: _ => if first.stage = .waiting then (r.setStage first.ticket .woken, some first.ticket) else (r, none)
  | [] => (r, none)

/-- The lock of a path, a new one if it has none. -/
def lockFor (r : Registry) (path : String) : Registry × LockId :=
  match Assoc.get? r.locks path with
  | some lock => (r, lock)
  | none => ({ r with locks := r.locks ++ [(path, r.nextLock)], nextLock := r.nextLock + 1 }, r.nextLock)

/-! ### Visits -/

/-- What comes of the arrival of a visit. -/
inductive Arrival where
  | found (console : ConsoleId)
  | queued
  /-- The visit holds the lock and must build. -/
  | builds
  deriving DecidableEq, Repr

/-- A visit to a path arrives. -/
def arrive (r : Registry) (ticket : Ticket) (path : String) : Registry × Arrival :=
  match r.find? path with
  | some console => (r.touch path console, .found console)
  | none =>
    let (r, lock) := r.lockFor path
    if r.isFree lock then ({ r with visits := r.visits ++ [⟨ticket, path, lock, .building none⟩] }, .builds)
    else ({ r with visits := r.visits ++ [⟨ticket, path, lock, .waiting⟩] }, .queued)

/-- What comes of a turn of a queued visit. -/
inductive TurnEnd where
  | found (console : ConsoleId)
  | builds
  | cancelled
  /-- It was not its turn. -/
  | asleep
  deriving DecidableEq, Repr

/-- A visit leaves its lock: the next one in the queue is woken, and the lock is forgotten where the path
has no console. -/
def leave (r : Registry) (v : Visit) : Registry × Option Ticket :=
  let (r, woken) := (r.remove v.ticket).wakeFirst v.lock
  (r.tidy v.path v.lock, woken)

/-- A cancelled visit leaves the queue; it wakes the next one only if nobody holds the lock. -/
def quit (r : Registry) (v : Visit) : Registry × Option Ticket :=
  let r := r.remove v.ticket
  let (r, woken) := if r.held v.lock then (r, none) else r.wakeFirst v.lock
  (r.tidy v.path v.lock, woken)

/-- The turn of a queued visit; gives the ticket of a visit that has been woken. -/
def resume (r : Registry) (ticket : Ticket) : Registry × TurnEnd × Option Ticket :=
  match r.visit? ticket with
  | none => (r, .asleep, none)
  | some v =>
    match v.stage with
    | .woken =>
      match r.find? v.path with
      | some console =>
        let (r, woken) := (r.touch v.path console).leave v
        (r, .found console, woken)
      | none => (r.setStage ticket (.building none), .builds, none)
    | .withdrawn | .dismissed =>
      let (r, woken) := r.quit v
      (r, .cancelled, woken)
    | _ => (r, .asleep, none)

/-- Cancel a queued visit; tells whether it needs a turn to notice. -/
def cancel (r : Registry) (ticket : Ticket) : Registry × Bool :=
  match (r.visit? ticket).map Visit.stage with
  | some .waiting => (r.setStage ticket .withdrawn, true)
  | some .woken => (r.setStage ticket .dismissed, false)
  | _ => (r, false)

/-! ### Builds -/

/-- The console that a visit builds has been made and is being started. -/
def made (r : Registry) (ticket : Ticket) (console : ConsoleId) : Registry := r.setStage ticket (.building (some console))

/-- The registry without its least recently used consoles as far as there is no room for them; gives those
consoles. -/
def evict (r : Registry) : List (String × ConsoleId) → Registry × List ConsoleId
  | [] => (r, [])
  | (path, console) :: rest =>
    if r.bound < r.cached.length then
      let (r, evicted) := ({ r with cached := rest }.forgetLockOf path).evict rest
      (r, console :: evicted)
    else (r, [])

/-- Put a console at a path; gives the consoles that have to go. -/
def insert (r : Registry) (path : String) (console : ConsoleId) : Registry × List ConsoleId :=
  let displaced := (r.find? path).toList.filter (· != console)
  let r := r.touch path console
  let (r, evicted) := r.evict r.cached
  (r, displaced ++ evicted)

/-- A build has succeeded: its console is put at its path. Gives the consoles that have to be closed and
the ticket of a visit that has been woken. -/
def keep (r : Registry) (ticket : Ticket) (console : ConsoleId) : Registry × List ConsoleId × Option Ticket :=
  match r.visit? ticket with
  | none => (r, [], none)
  | some v =>
    let (r, stale) := r.insert v.path console
    let (r, woken) := r.leave v
    ({ r with closings := if stale.isEmpty then r.closings else r.closings ++ [⟨ticket, stale⟩] }, stale, woken)

/-- A build has failed; gives the console that has to be closed before the lock is released. -/
def fail (r : Registry) (ticket : Ticket) : Registry × Option ConsoleId :=
  match (r.visit? ticket).map Visit.stage with
  | some (.building (some console)) => (r.setStage ticket (.discarding console), some console)
  | _ => (r, none)

/-- A failed visit ends; gives the ticket of a visit that has been woken. -/
def giveUp (r : Registry) (ticket : Ticket) : Registry × Option Ticket :=
  match r.visit? ticket with
  | none => (r, none)
  | some v => r.leave v

/-! ### Removals -/

/-- Take the console at a path out; gives the console that has to be closed. -/
def reset (r : Registry) (ticket : Ticket) (path : String) : Registry × Option ConsoleId :=
  let console := r.find? path
  let r := { r with cached := Assoc.erase r.cached path }.forgetLockOf path
  ({ r with closings := r.closings ++ (console.map fun c => ⟨ticket, [c]⟩).toList }, console)

/-- Take all consoles out; gives the consoles that have to be closed. -/
def clear (r : Registry) (ticket : Ticket) : Registry × List ConsoleId :=
  let consoles := r.cached.map Prod.snd
  ({ r with
      cached := []
      locks := []
      closings := if consoles.isEmpty then r.closings else r.closings ++ [⟨ticket, consoles⟩] }, consoles)

/-- An operation has closed the first of the consoles it has to close. -/
def closed (r : Registry) (ticket : Ticket) : Registry :=
  { r with closings := r.closings.filterMap fun c =>
      if c.ticket = ticket then
        match c.left with
        | _ :: next :: rest => some { c with left := next :: rest }
        | _ => none
      else some c }

end Registry

end VerbForms
