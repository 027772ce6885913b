import VerbForms.Host.Endpoint
import VerbForms.Registry.Basic
import VerbForms.Remote.Script

/-!
# The desk

A desk is a running system: consoles with their store and the resource they talk to, and the tasks that
are under way. A task runs until it has to wait for a gate, for a lock or for other tasks; the turns of the
tasks that can go on stand in a queue, first in, first out.
-/

namespace VerbForms

/-- The number of a task. -/
abbrev TaskId := Nat

namespace Desk

/-- Why a task ends without a result. -/
inductive Fault where
  | request (error : Remote.RequestError)
  | notReady (reason : NotReady)
  /-- The factory of consoles has failed. -/
  | factory (reason : String)
  | console (error : ConsoleError)
  deriving DecidableEq, Repr

/-- The task was cancelled. -/
def Fault.cancelled : Fault := .request .cancelled

/-- What a task gives. -/
inductive Product where
  | nothing
  | phase (phase : Phase)
  | submitted (result : SubmitResult)
  | console (console : ConsoleId)
  | reply (reply : Host.Reply)

/-- How a task has ended. -/
abbrev Ending := Except Fault Product

/-- What a request to the resource is for. -/
inductive Purpose where
  /-- The schema of a panel. `unmounting`: the panel is unmounted while the store is read. -/
  | schema (console : ConsoleId) (panel : Nat) (unmounting : Bool)
  | submission (console : ConsoleId) (panel : Nat)
  | resource (console : ConsoleId)

/-- Who uses what a task gives. -/
inductive Goal where
  /-- Whoever asks for it. -/
  | result
  /-- The task that has started this one to load a panel; an unexpected error marks the panel as failed. -/
  | loading (parent : TaskId) (console : ConsoleId) (panel : Nat)
  /-- The task that has started this one to read the resource. -/
  | reading (parent : TaskId)
  /-- A caller of the host, which may have named its request. -/
  | caller (errand : Host.Errand) (name : Option String)

/-- What the factory of consoles does at a call. -/
structure Plan where
  /-- The gate that has to be open first. -/
  gate : Option String
  failure : Option String
  /-- Answers for the new console alone. -/
  script : Option Remote.Script

/-- What a task does first. -/
inductive Job where
  | load (console : ConsoleId) (panel : Nat) (unmounting : Bool)
  | submit (console : ConsoleId) (panel : Nat)
  | read (console : ConsoleId)
  | start (console : ConsoleId)
  | visit (path : String)

/-- How far a task is. -/
inductive Stage where
  | fresh (job : Job)
  /-- The request has been sent, and this will come of it. -/
  | asking (purpose : Purpose) (request : Remote.Request) (outcome : Remote.Outcome)
  /-- The factory has been called for a path. -/
  | producing (path : String) (plan : Plan)
  /-- In the queue of the lock of a path. -/
  | queued
  /-- A console is being started by other tasks, of which some are left; `building`: for the registry. -/
  | starting (console : ConsoleId) (building : Bool) (left : Nat) (ended : Option (Except Fault Unit))
  | ended (ending : Ending)

/-- A task. -/
structure Task where
  goal : Goal
  stage : Stage
  /-- Whether it will learn at its next turn that it has been cancelled. -/
  cancelled : Bool

/-- What happens next. -/
inductive Turn where
  /-- A task goes on. -/
  | run (task : TaskId)
  /-- A task learns that one of those it has started has ended. -/
  | childEnded (parent child : TaskId)

/-- A console and the answers for it alone. -/
structure Station where
  console : Console
  own : Option Remote.Script

/-- How consoles are made. -/
structure Factory where
  baseUrl : String
  verbs : List String
  single : Bool
  /-- What happens at the calls for a path: one plan per call, the last one again and again. -/
  plans : List (String × List Plan)
  /-- Number of calls per path. -/
  calls : List (String × Nat)

end Desk

/-- A running system. -/
structure Desk where
  store : Store
  /-- The consoles in order of making. -/
  stations : List Desk.Station
  /-- The answers for all consoles without answers of their own. -/
  script : Remote.Script
  openGates : List String
  /-- The tasks that wait for gates, in the order in which they began to. -/
  atGates : List (String × TaskId)
  /-- The requests that have been sent. -/
  sent : List Remote.Request
  /-- The tasks by number. -/
  tasks : List Desk.Task
  ready : List Desk.Turn
  registry : Registry
  factory : Desk.Factory

namespace Desk

/-- A desk on which nothing has happened. -/
def make (store : Store) (script : Remote.Script) (registry : Registry) (factory : Factory) : Desk where
  store := store
  stations := []
  script := script
  openGates := []
  atGates := []
  sent := []
  tasks := []
  ready := []
  registry := registry
  factory := factory

/-- The console with a number. -/
def console? (desk : Desk) (id : ConsoleId) : Option Console := desk.stations[id]?.map Station.console

/-- Put a new console on the desk; gives its number. -/
def addConsole (desk : Desk) (console : Console) (own : Option Remote.Script) : Desk × ConsoleId :=
  ({ desk with stations := desk.stations ++ [⟨console, own⟩] }, desk.stations.length)

/-- Change a console. -/
def modifyConsole (desk : Desk) (id : ConsoleId) (f : Console → Console) : Desk :=
  { desk with stations := desk.stations.modify id fun station => { station with console := f station.console } }

/-- A panel of a console. -/
def panel? (desk : Desk) (id : ConsoleId) (index : Nat) : Option Panel := (desk.console? id).bind (·.panels[index]?)

/-- Put a panel at its place. -/
def setPanel (desk : Desk) (id : ConsoleId) (index : Nat) (panel : Panel) : Desk :=
  desk.modifyConsole id (·.setPanel index panel)

/-- Close a console. -/
def closeConsole (desk : Desk) (id : ConsoleId) : Desk := desk.modifyConsole id Console.close

/-- Change a task. -/
def modifyTask (desk : Desk) (task : TaskId) (f : Task → Task) : Desk := { desk with tasks := desk.tasks.modify task f }

/-- Put a task into a stage. -/
def setStage (desk : Desk) (task : TaskId) (stage : Stage) : Desk := desk.modifyTask task ({ · with stage })

/-- Put a turn at the end of the queue. -/
def push (desk : Desk) (turn : Turn) : Desk := { desk with ready := desk.ready ++ [turn] }

/-- Start a task; its first turn comes at the end of the queue. -/
def spawn (desk : Desk) (goal : Goal) (job : Job) : Desk × TaskId :=
  let task := desk.tasks.length
  let desk : Desk := { desk with tasks := desk.tasks ++ [⟨goal, .fresh job, false⟩] }
  (desk.push (.run task), task)

/-- Whether a gate, if there is one, is open. -/
def passes (desk : Desk) (gate : Option String) : Bool :=
  match gate with
  | some gate => desk.openGates.contains gate
  | none => true

/-- Let a task wait for a gate. -/
def waitAt (desk : Desk) (task : TaskId) (gate : Option String) (stage : Stage) : Desk :=
  { desk.setStage task stage with atGates := desk.atGates ++ (gate.map fun gate => (gate, task)).toList }

end Desk

end VerbForms
