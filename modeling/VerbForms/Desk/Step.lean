import VerbForms.Desk.Basic

/-!
# Turns

What a task does in one turn, from the moment it can go on until it has to wait again or has ended. A
request whose answer waits at no gate is answered in the same turn.
-/

namespace VerbForms.Desk

/-- The goal of a task. -/
def goalOf (desk : Desk) (task : TaskId) : Goal := ((desk.tasks[task]?).map Task.goal).getD .result

/-- A task has ended; the task that has started it will learn so. -/
def finish (desk : Desk) (task : TaskId) (ending : Ending) : Desk :=
  let desk := desk.setStage task (.ended ending)
  match desk.goalOf task with
  | .loading parent _ _ | .reading parent => desk.push (.childEnded parent task)
  | _ => desk

/-- An ending as the host answers it. -/
def replyOf (name : Option String) (served : Host.Served) : Ending := .ok (.reply (served.reply name))

/-! ### Requests -/

/-- The script for a console, used for one request: its answer and the desk after it. -/
def answerFor (desk : Desk) (id : ConsoleId) (request : Remote.Request) : Desk × Remote.Answer :=
  match (desk.stations[id]?).bind Station.own with
  | some script =>
    let (answer, script) := script.answer request
    ({ desk with stations := desk.stations.modify id fun station => { station with own := some script } }, answer)
  | none =>
    let (answer, script) := desk.script.answer request
    ({ desk with script }, answer)

/-- The end of a load: an unexpected error goes to whoever asked for it, or marks the panel as failed. -/
def endLoad (desk : Desk) (task : TaskId) (id : ConsoleId) (index : Nat) (error : Option Remote.RequestError) : Desk :=
  match error with
  | none =>
    let phase := ((desk.panel? id index).map Panel.phase).getD .uninitialized
    desk.finish task (.ok (.phase phase))
  | some error =>
    match desk.goalOf task, error with
    | .loading .., .cancelled => desk.finish task (.error .cancelled)
    | .loading .., error =>
      let desk := desk.modifyConsole id fun console =>
        { console with panels := console.panels.modify index fun panel =>
            panel.markFailed (.setupFailed panel.verb error.text) }
      desk.finish task (.ok .nothing)
    | _, error => desk.finish task (.error (.request error))

/-- The answer to a request for a schema. -/
def receiveSchema (desk : Desk) (task : TaskId) (id : ConsoleId) (index : Nat) (unmounting : Bool)
    (answer : Except Remote.RequestError Json) : Desk :=
  match desk.panel? id index with
  | none => desk.finish task (.ok .nothing)
  | some panel =>
    match panel.receive answer with
    | (panel, .settled) => (desk.setPanel id index panel).endLoad task id index none
    | (panel, .crashed error) => (desk.setPanel id index panel).endLoad task id index (some error)
    | (panel, .prepared schema metadata) =>
      let data := desk.store.load panel.key
      let panel := if unmounting then panel.unmount else panel
      (desk.setPanel id index (panel.attach schema metadata data)).endLoad task id index none

/-- The answer to a submission. -/
def receiveSubmission (desk : Desk) (task : TaskId) (id : ConsoleId) (index : Nat)
    (answer : Except Remote.RequestError Json) : Desk :=
  match desk.panel? id index with
  | none => desk.finish task (.ok .nothing)
  | some panel =>
    let done := panel.endSubmit answer
    let desk := desk.modifyConsole id fun console => (console.setPanel index done.panel).alert done.alert
    match desk.goalOf task, done.result with
    | .caller _ name, .ok result => desk.finish task (replyOf name (Host.submitReply done.panel result))
    | .caller _ _, .error .cancelled => desk.finish task (.error .cancelled)
    | .caller _ name, .error _ => desk.finish task (replyOf name .crash)
    | _, .ok result => desk.finish task (.ok (.submitted result))
    | _, .error error => desk.finish task (.error (.request error))

/-- The answer to a reading of the resource. -/
def receiveResource (desk : Desk) (task : TaskId) (id : ConsoleId) (answer : Except Remote.RequestError Json) : Desk :=
  match desk.console? id with
  | none => desk.finish task (.ok .nothing)
  | some console =>
    let (console, error) := console.receiveResource answer
    let desk := desk.modifyConsole id fun _ => console
    match error with
    | none => desk.finish task (.ok .nothing)
    | some error => desk.finish task (.error (.request error))

/-- The answer to a request. -/
def receive (desk : Desk) (task : TaskId) (answer : Except Remote.RequestError Json) : Purpose → Desk
  | .schema id index unmounting => desk.receiveSchema task id index unmounting answer
  | .submission id index => desk.receiveSubmission task id index answer
  | .resource id => desk.receiveResource task id answer

/-- The console that a purpose belongs to. -/
def Purpose.console : Purpose → ConsoleId
  | .schema id _ _ => id
  | .submission id _ => id
  | .resource id => id

/-- Send a request, and wait where its answer has a closed gate. -/
def ask (desk : Desk) (task : TaskId) (purpose : Purpose) (method accept path : String) (payload : Json) : Desk :=
  match desk.console? purpose.console with
  | none => desk.finish task (.ok .nothing)
  | some console =>
    match console.gateway.request method accept path payload with
    | .error error => desk.receive task (.error error) purpose
    | .ok request =>
      let (desk, answer) := { desk with sent := desk.sent ++ [request] }.answerFor purpose.console request
      if desk.passes answer.gate then desk.receive task (Remote.interpret request answer.outcome) purpose
      else desk.waitAt task answer.gate (.asking purpose request answer.outcome)

/-- Load a panel; one that has been loaded only tells its phase. -/
def load (desk : Desk) (task : TaskId) (id : ConsoleId) (index : Nat) (unmounting : Bool) : Desk :=
  match desk.panel? id index with
  | none => desk.finish task (.ok .nothing)
  | some panel =>
    if panel.phase = .uninitialized then
      desk.ask task (.schema id index unmounting) "GET" Remote.schemaMime panel.schemaQuery .null
    else desk.endLoad task id index none

/-- Submit the form of a panel. -/
def submit (desk : Desk) (task : TaskId) (id : ConsoleId) (index : Nat) : Desk :=
  match desk.panel? id index with
  | none => desk.finish task (.ok .nothing)
  | some panel =>
    match panel.startSubmit with
    | .busy =>
      match desk.goalOf task with
      | .caller _ name => desk.finish task (replyOf name (Host.submitReply panel Panel.ignored))
      | _ => desk.finish task (.ok (.submitted Panel.ignored))
    | .refused reason =>
      match desk.goalOf task with
      | .caller _ name => desk.finish task (replyOf name (.refused (.notReady reason)))
      | _ => desk.finish task (.error (.notReady reason))
    | .sending panel payload =>
      (desk.setPanel id index panel).ask task (.submission id index) panel.verb Remote.jsonMime "" payload

/-! ### Consoles that start -/

/-- Start a console: its resource is read first, then its panels are loaded in order, each by a task of
its own. -/
def startConsole (desk : Desk) (task : TaskId) (id : ConsoleId) (building : Bool) : Desk :=
  let panels := ((desk.console? id).map fun console => console.panels.length).getD 0
  let desk := desk.setStage task (.starting id building (panels + 1) none)
  let desk := (desk.spawn (.reading task) (.read id)).1
  (List.range panels).foldl (fun desk index => (desk.spawn (.loading task id index) (.load id index false)).1) desk

/-- A visit ends with a console, on which the errand of a caller is performed. -/
def visited (desk : Desk) (task : TaskId) (result : Except Fault ConsoleId) : Desk :=
  match desk.goalOf task, result with
  | .caller errand name, .ok id =>
    match desk.console? id with
    | none => desk.finish task (.ok .nothing)
    | some console =>
      let step := Host.perform console desk.store errand
      let desk := { desk.modifyConsole id fun _ => step.console with store := step.store }
      match step.performed with
      | .answered served => desk.finish task (replyOf name served)
      | .submits index => desk.submit task id index
  | .caller _ name, .error fault =>
    if fault = .cancelled then desk.finish task (.error fault) else desk.finish task (replyOf name .crash)
  | _, .ok id => desk.finish task (.ok (.console id))
  | _, .error fault => desk.finish task (.error fault)

/-- Give a turn to a visit that has been woken. -/
def pushWoken (desk : Desk) (woken : Option TaskId) : Desk :=
  match woken with
  | some task => desk.push (.run task)
  | none => desk

/-- A build has failed: what was made is closed before the lock is released. -/
def failBuild (desk : Desk) (task : TaskId) (fault : Fault) : Desk :=
  let (registry, made) := desk.registry.fail task
  let desk : Desk := { desk with registry }
  let desk := match made with
    | some id => desk.closeConsole id
    | none => desk
  let (registry, woken) := desk.registry.giveUp task
  ({ desk with registry }.pushWoken woken).visited task (.error fault)

/-- Close the consoles that an operation has to close, one after the other. -/
def closeStale (desk : Desk) (ticket : Ticket) (stale : List ConsoleId) : Desk :=
  stale.foldl (fun desk id =>
    let desk := desk.closeConsole id
    { desk with registry := desk.registry.closed ticket }) desk

/-- A build has succeeded: its console is kept, and the ones that have to go are closed. -/
def keepBuilt (desk : Desk) (task : TaskId) (id : ConsoleId) : Desk :=
  let (registry, stale, woken) := desk.registry.keep task id
  let desk := { desk with registry }.pushWoken woken
  (desk.closeStale task stale).visited task (.ok id)

/-- The tasks that start a console have ended, all of them or the first that failed. -/
def started (desk : Desk) (task : TaskId) (id : ConsoleId) (building : Bool) (result : Except Fault Unit) : Desk :=
  match result, building with
  | .ok _, true => (desk.modifyConsole id Console.selectFirst).keepBuilt task id
  | .ok _, false => (desk.modifyConsole id Console.selectFirst).finish task (.ok .nothing)
  | .error fault, true => desk.failBuild task fault
  | .error fault, false => desk.finish task (.error fault)

/-! ### Visits -/

/-- The factory makes a console, which is then started. -/
def produce (desk : Desk) (task : TaskId) (path : String) (plan : Plan) : Desk :=
  match plan.failure with
  | some reason => desk.failBuild task (.factory reason)
  | none =>
    match Console.build desk.factory.baseUrl path desk.factory.verbs desk.factory.single with
    | .error error => desk.failBuild task (.console error)
    | .ok console =>
      let (desk, id) := desk.addConsole console plan.script
      { desk with registry := desk.registry.made task id }.startConsole task id true

/-- The plan for the next call for a path. -/
def Factory.next (factory : Factory) (path : String) : Plan :=
  let plans := (Assoc.get? factory.plans path).getD []
  let done := (Assoc.get? factory.calls path).getD 0
  ((plans[done]?).or plans.getLast?).getD ⟨none, none, none⟩

/-- The factory after a call for a path. -/
def Factory.count (factory : Factory) (path : String) : Factory :=
  { factory with calls := Assoc.put factory.calls path ((Assoc.get? factory.calls path).getD 0 + 1) }

/-- Call the factory for a path. -/
def build (desk : Desk) (task : TaskId) (path : String) : Desk :=
  let plan := desk.factory.next path
  let desk := { desk with factory := desk.factory.count path }
  if desk.passes plan.gate then desk.produce task path plan else desk.waitAt task plan.gate (.producing path plan)

/-- A visit to a path arrives. -/
def arrive (desk : Desk) (task : TaskId) (path : String) : Desk :=
  let (registry, arrival) := desk.registry.arrive task path
  let desk : Desk := { desk with registry }
  match arrival with
  | .found id => desk.visited task (.ok id)
  | .queued => desk.setStage task .queued
  | .builds => desk.build task path

/-- The turn of a visit in the queue of a lock. -/
def resumeVisit (desk : Desk) (task : TaskId) : Desk :=
  let path := ((desk.registry.visit? task).map (·.path)).getD ""
  let (registry, turnEnd, woken) := desk.registry.resume task
  let desk := { desk with registry }.pushWoken woken
  match turnEnd with
  | .found id => desk.visited task (.ok id)
  | .builds => desk.build task path
  | .cancelled => desk.visited task (.error .cancelled)
  | .asleep => desk

/-! ### Turns -/

/-- Begin a job. -/
def begin (desk : Desk) (task : TaskId) : Job → Desk
  | .load id index unmounting => desk.load task id index unmounting
  | .submit id index => desk.submit task id index
  | .read id => desk.ask task (.resource id) "GET" Remote.jsonMime "" .null
  | .start id => desk.startConsole task id false
  | .visit path => desk.arrive task path

/-- A task goes on. -/
def runTask (desk : Desk) (task : TaskId) : Desk :=
  match desk.tasks[task]? with
  | none => desk
  | some current =>
    let desk := desk.modifyTask task ({ · with cancelled := false })
    match current.stage with
    | .fresh job => if current.cancelled then desk.finish task (.error .cancelled) else desk.begin task job
    | .asking purpose request outcome =>
      desk.receive task (if current.cancelled then .error .cancelled else Remote.interpret request outcome) purpose
    | .producing path plan => if current.cancelled then desk.failBuild task .cancelled else desk.produce task path plan
    | .queued => desk.resumeVisit task
    | .starting id building _ (some result) => desk.started task id building result
    | .starting _ _ _ none => desk
    | .ended _ => desk

/-- How a task has ended, if it has. -/
def ending? (desk : Desk) (task : TaskId) : Option Ending :=
  match (desk.tasks[task]?).map Task.stage with
  | some (.ended ending) => some ending
  | _ => none

/-- A task that starts a console learns that a task has ended: it goes on after the last one or the first
that failed. -/
def childEnded (desk : Desk) (parent child : TaskId) : Desk :=
  match (desk.tasks[parent]?).map Task.stage, desk.ending? child with
  | some (.starting id building left none), some (.error fault) =>
    (desk.setStage parent (.starting id building left (some (.error fault)))).push (.run parent)
  | some (.starting id building left none), some (.ok _) =>
    if left = 1 then (desk.setStage parent (.starting id building 0 (some (.ok ())))).push (.run parent)
    else desk.setStage parent (.starting id building (left - 1) none)
  | _, _ => desk

/-- Take a turn. -/
def take (desk : Desk) : Turn → Desk
  | .run task => desk.runTask task
  | .childEnded parent child => desk.childEnded parent child

end VerbForms.Desk
