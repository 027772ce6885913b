import VerbForms.Desk.Step

/-!
# Running a desk

Between two steps from outside a desk settles: turns are taken until no task can go on without a gate
being opened. Each turn that is not the last of its task belongs to a task that waits afterwards, so the
number of turns is bounded by the tasks there are and those that starting consoles can add.
-/

namespace VerbForms.Desk

/-- Take at most a number of turns. -/
def settleWithin : Nat → Desk → Desk
  | 0, desk => desk
  | fuel + 1, desk =>
    match desk.ready with
    | [] => desk
    | turn :: rest => settleWithin fuel ({ desk with ready := rest }.take turn)

/-- Whether a task has not ended. -/
def Task.isOpen (task : Task) : Bool :=
  match task.stage with
  | .ended _ => false
  | _ => true

/-- The greatest number of panels that a console has or will have. -/
def mostPanels (desk : Desk) : Nat :=
  desk.stations.foldl (fun n station => max n station.console.panels.length) desk.factory.verbs.length

/-- A bound for the number of turns: a task takes up to four turns of its own, and for starting a console
two notices and four turns for each task that it starts. -/
def turnBound (desk : Desk) : Nat :=
  ((desk.tasks.filter Task.isOpen).length + 1) * (8 + 8 * (desk.mostPanels + 1)) + desk.ready.length

/-- Take turns until no task can go on. -/
def settle (desk : Desk) : Desk := settleWithin desk.turnBound desk

/-- Start a task for whoever asks for its result. -/
def launch (desk : Desk) (job : Job) : Desk × TaskId :=
  let (desk, task) := desk.spawn .result job
  (desk.settle, task)

/-- A caller's errand on a resource. -/
def serve (desk : Desk) (errand : Host.Errand) (name : Option String) (path : String) : Desk × TaskId :=
  let (desk, task) := desk.spawn (.caller errand name) (.visit path)
  (desk.settle, task)

/-- Open a gate: the tasks that wait for it go on in the order in which they began to wait. -/
def release (desk : Desk) (gate : String) : Desk :=
  let waiting := (desk.atGates.filter (·.1 == gate)).map Prod.snd
  let desk := { desk with
    openGates := desk.openGates ++ [gate]
    atGates := desk.atGates.filter (·.1 != gate)
    ready := desk.ready ++ waiting.map Turn.run }
  desk.settle

/-- A task that waits at a gate or for its first turn will learn that it has been cancelled. -/
def interrupt (desk : Desk) (task : TaskId) : Desk :=
  let desk := desk.modifyTask task ({ · with cancelled := true })
  { desk with atGates := desk.atGates.filter (·.2 != task) }.push (.run task)

/-- The tasks that a task has started and that have not ended. -/
def openChildren (desk : Desk) (parent : TaskId) : List TaskId :=
  (List.range desk.tasks.length).filter fun task =>
    match desk.tasks[task]? with
    | some child => child.isOpen &&
      match child.goal with
      | .loading p _ _ | .reading p => p == parent
      | _ => false
    | none => false

/-- Cancel a task, and with it the tasks that it has started. -/
def cancel (desk : Desk) (task : TaskId) : Desk :=
  match (desk.tasks[task]?).map Task.stage with
  | some (.asking ..) | some (.producing ..) => (desk.interrupt task).settle
  | some .queued =>
    let (registry, needsTurn) := desk.registry.cancel task
    let desk : Desk := { desk with registry }
    (if needsTurn then desk.push (.run task) else desk).settle
  | some (.starting ..) => ((desk.openChildren task).foldl interrupt desk).settle
  | _ => desk

/-! ### Operations that never wait -/

/-- Take the console of a path out of the registry and close it. -/
def reset (desk : Desk) (path : String) : Desk :=
  let ticket := desk.tasks.length
  let (registry, console) := desk.registry.reset ticket path
  { desk with registry }.closeStale ticket console.toList

/-- Take all consoles out of the registry and close them. -/
def closeAll (desk : Desk) : Desk :=
  let ticket := desk.tasks.length
  let (registry, consoles) := desk.registry.clear ticket
  { desk with registry }.closeStale ticket consoles

end VerbForms.Desk
