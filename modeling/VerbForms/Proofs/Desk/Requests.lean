import VerbForms.Desk.Run
import VerbForms.Proofs.Console.Readiness
import VerbForms.Proofs.Registry.Sharing
import VerbForms.Proofs.Remote.Gateway
import Mathlib.Logic.Relation

/-!
# Where a desk sends requests

Whatever happens on a desk, every request that it sends goes to the server of its base address. All
requests are sent by `Desk.ask`, by way of the gateway of a console, and for the resource of that console;
the other functions only have to keep consoles and paths as they should be (`StaysOn`).
-/

namespace VerbForms

open Remote (Address Gateway Request Rooted MeansResource)

variable {upstream : Address}

/-- The gateway of a console leads to a resource of the server. -/
structure Console.LeadsTo (upstream : Address) (console : Console) : Prop where
  server : upstream.SameServer console.gateway.base
  normal : console.gateway.base.Normal
  rooted : Rooted console.gateway.resourcePath

theorem Console.LeadsTo.of_gateway {console after : Console} (h : console.LeadsTo upstream)
    (same : after.gateway = console.gateway) : after.LeadsTo upstream :=
  ⟨same ▸ h.server, same ▸ h.normal, same ▸ h.rooted⟩

theorem Console.leadsTo_build {baseUrl path : String} {verbs : List String} {single : Bool}
    {console : Console} (based : Address.parse (Gateway.baseText baseUrl) = .ok upstream)
    (rooted : Rooted path) (built : Console.build baseUrl path verbs single = .ok console) :
    console.LeadsTo upstream := by
  rw [Console.build] at built
  split at built
  · next gateway made =>
    obtain ⟨kept, normal, upstream', based', same⟩ := Gateway.sameServer_make made
    rw [based] at based'
    obtain rfl := Except.ok.inj based'
    rw [Console.make_eq_ok built]
    refine ⟨same, normal, ?_⟩
    rw [Console.ofPanels, kept]
    exact rooted.keptPath
  · cases built

namespace Desk

variable {desk after : Desk} {task : TaskId} {id : ConsoleId} {path : String} {stage : Stage}

/-- A task that is to visit a path visits that of a resource. -/
def Stage.Rooted : Stage → Prop
  | .fresh (.visit path) | .producing path _ => Remote.Rooted path
  | _ => True

/-- All consoles lead to resources of one server, all paths are those of resources, and all requests have
been sent to that server. -/
structure StaysOn (upstream : Address) (desk : Desk) : Prop where
  factory : Address.parse (Gateway.baseText desk.factory.baseUrl) = .ok upstream
  stations : ∀ station ∈ desk.stations, station.console.LeadsTo upstream
  visits : ∀ path ∈ desk.registry.paths, Rooted path
  tasks : ∀ task ∈ desk.tasks, task.stage.Rooted
  sent : ∀ request ∈ desk.sent, upstream.SameServer request.address

/-! ### Single changes -/

theorem StaysOn.console (h : StaysOn upstream desk) {console : Console}
    (found : desk.console? id = some console) : console.LeadsTo upstream := by
  obtain ⟨station, there, rfl⟩ := Option.map_eq_some_iff.mp found
  exact h.stations station (List.mem_of_getElem? there)

theorem StaysOn.modifyTask (h : StaysOn upstream desk) (task : TaskId) {f : Task → Task}
    (rooted : ∀ t : Task, t.stage.Rooted → (f t).stage.Rooted) :
    StaysOn upstream (desk.modifyTask task f) := by
  refine { h with tasks := fun t mem ↦ ?_ }
  obtain ⟨index, found⟩ := List.getElem?_of_mem mem
  rw [Desk.modifyTask, List.getElem?_modify] at found
  obtain ⟨old, there, rfl⟩ := Option.map_eq_some_iff.mp found
  have before := h.tasks old (List.mem_of_getElem? there)
  split
  · exact rooted old before
  · exact before

theorem StaysOn.setStage (h : StaysOn upstream desk) (task : TaskId) (rooted : stage.Rooted) :
    StaysOn upstream (desk.setStage task stage) :=
  h.modifyTask task fun _ _ ↦ rooted

theorem StaysOn.push (h : StaysOn upstream desk) (turn : Turn) : StaysOn upstream (desk.push turn) :=
  { h with }

theorem StaysOn.finish (h : StaysOn upstream desk) (task : TaskId) (ending : Ending) :
    StaysOn upstream (desk.finish task ending) := by
  have ended : StaysOn upstream (desk.setStage task (.ended ending)) := h.setStage task trivial
  rw [Desk.finish]
  split
  · exact ended.push _
  · exact ended.push _
  · exact ended

theorem StaysOn.modifyConsole (h : StaysOn upstream desk) (id : ConsoleId) {f : Console → Console}
    (kept : ∀ console, desk.console? id = some console → console.LeadsTo upstream →
      (f console).LeadsTo upstream) :
    StaysOn upstream (desk.modifyConsole id f) := by
  refine { h with stations := fun station mem ↦ ?_ }
  obtain ⟨index, found⟩ := List.getElem?_of_mem mem
  rw [Desk.modifyConsole, List.getElem?_modify] at found
  obtain ⟨old, there, rfl⟩ := Option.map_eq_some_iff.mp found
  have before := h.stations old (List.mem_of_getElem? there)
  split
  · next same =>
    subst same
    exact kept old.console (Option.map_eq_some_iff.mpr ⟨old, there, rfl⟩) before
  · exact before

/-- A change of a console that leaves its gateway alone. -/
theorem StaysOn.work (h : StaysOn upstream desk) (id : ConsoleId) {f : Console → Console}
    (same : ∀ console, (f console).gateway = console.gateway) : StaysOn upstream (desk.modifyConsole id f) :=
  h.modifyConsole id fun console _ leads ↦ leads.of_gateway (same console)

theorem StaysOn.closeConsole (h : StaysOn upstream desk) (id : ConsoleId) :
    StaysOn upstream (desk.closeConsole id) :=
  h.modifyConsole id fun _ _ leads ↦ ⟨leads.server, leads.normal, leads.rooted⟩

theorem StaysOn.setPanel (h : StaysOn upstream desk) (id : ConsoleId) (index : Nat) (panel : Panel) :
    StaysOn upstream (desk.setPanel id index panel) :=
  h.work id fun _ ↦ rfl

theorem StaysOn.with_store (h : StaysOn upstream desk) (store : Store) : StaysOn upstream { desk with store } :=
  { h with }

/-- Another registry with visits to no other paths. -/
theorem StaysOn.with_registry (h : StaysOn upstream desk) {registry : Registry}
    (paths : registry.paths ⊆ desk.registry.paths) : StaysOn upstream { desk with registry } :=
  { h with visits := fun path mem ↦ h.visits path (paths mem) }

/-- Only an arrival brings a visit to a path that had none. -/
theorem StaysOn.perform (h : StaysOn upstream desk) (event : Registry.Event)
    (stays : ∀ path, event.visits path = false) :
    StaysOn upstream { desk with registry := desk.registry.perform event } := by
  refine h.with_registry fun path mem ↦ ?_
  refine (desk.registry.paths_perform_subset event path mem).resolve_right fun visits ↦ ?_
  rw [stays path] at visits
  cases visits

/-- A task is started, which visits no path but that of a resource. -/
theorem StaysOn.spawn (h : StaysOn upstream desk) (goal : Goal) {job : Job}
    (rooted : Stage.Rooted (.fresh job)) : StaysOn upstream (desk.spawn goal job).1 := by
  refine { h with tasks := fun t mem ↦ ?_ }
  rcases List.mem_append.mp mem with old | new
  · exact h.tasks t old
  · rw [List.mem_singleton.mp new]
    exact rooted

theorem StaysOn.waitAt (h : StaysOn upstream desk) (task : TaskId) (gate : Option String)
    (rooted : stage.Rooted) : StaysOn upstream (desk.waitAt task gate stage) :=
  { h.setStage task rooted with }

theorem StaysOn.addConsole (h : StaysOn upstream desk) {console : Console} (leads : console.LeadsTo upstream)
    (own : Option Remote.Script) : StaysOn upstream (desk.addConsole console own).1 := by
  refine { h with stations := fun station mem ↦ ?_ }
  rcases List.mem_append.mp mem with old | new
  · exact h.stations station old
  · rw [List.mem_singleton.mp new]
    exact leads

theorem StaysOn.answerFor (h : StaysOn upstream desk) (id : ConsoleId) (request : Request) :
    StaysOn upstream (desk.answerFor id request).1 := by
  rw [Desk.answerFor]
  split
  · refine { h with stations := fun station mem ↦ ?_ }
    obtain ⟨index, found⟩ := List.getElem?_of_mem mem
    rw [List.getElem?_modify] at found
    obtain ⟨old, there, rfl⟩ := Option.map_eq_some_iff.mp found
    have before := h.stations old (List.mem_of_getElem? there)
    split <;> exact before
  · exact { h with }

/-! ### Answers -/

theorem StaysOn.endLoad (h : StaysOn upstream desk) (task : TaskId) (id : ConsoleId) (index : Nat)
    (error : Option Remote.RequestError) : StaysOn upstream (desk.endLoad task id index error) := by
  unfold Desk.endLoad
  split
  · exact h.finish task _
  · split
    · exact h.finish task _
    · refine StaysOn.finish ?_ task _
      exact h.work id fun _ ↦ rfl
    · exact h.finish task _

theorem StaysOn.receiveSchema (h : StaysOn upstream desk) (task : TaskId) (id : ConsoleId) (index : Nat)
    (unmounting : Bool) (answer : Except Remote.RequestError Json) :
    StaysOn upstream (desk.receiveSchema task id index unmounting answer) := by
  unfold Desk.receiveSchema
  split
  · exact h.finish task _
  · split <;> exact (h.setPanel id index _).endLoad task id index _

theorem StaysOn.receiveSubmission (h : StaysOn upstream desk) (task : TaskId) (id : ConsoleId) (index : Nat)
    (answer : Except Remote.RequestError Json) :
    StaysOn upstream (desk.receiveSubmission task id index answer) := by
  unfold Desk.receiveSubmission
  split
  · exact h.finish task _
  · next panel _ =>
    have put : StaysOn upstream (desk.modifyConsole id fun console ↦
        (console.setPanel index (panel.endSubmit answer).panel).alert (panel.endSubmit answer).alert) :=
      h.work id fun _ ↦ rfl
    dsimp only
    split <;> exact put.finish task _

theorem StaysOn.receiveResource (h : StaysOn upstream desk) (task : TaskId) (id : ConsoleId)
    (answer : Except Remote.RequestError Json) :
    StaysOn upstream (desk.receiveResource task id answer) := by
  unfold Desk.receiveResource
  split
  · exact h.finish task _
  · next console found =>
    have same : (console.receiveResource answer).1.gateway = console.gateway := by
      unfold Console.receiveResource
      split <;> rfl
    have put : StaysOn upstream (desk.modifyConsole id fun _ ↦ (console.receiveResource answer).1) :=
      h.modifyConsole id fun _ _ _ ↦ (h.console found).of_gateway same
    dsimp only
    split <;> exact put.finish task _

theorem StaysOn.receive (h : StaysOn upstream desk) (task : TaskId)
    (answer : Except Remote.RequestError Json) (purpose : Purpose) :
    StaysOn upstream (desk.receive task answer purpose) := by
  cases purpose with
  | schema id index unmounting => exact h.receiveSchema task id index unmounting answer
  | submission id index => exact h.receiveSubmission task id index answer
  | resource id => exact h.receiveResource task id answer

/-! ### Requests -/

/-- **A request for the resource of a console goes to the server.** -/
theorem StaysOn.ask (h : StaysOn upstream desk) (task : TaskId) (purpose : Purpose) (method accept : String)
    {path : String} (means : MeansResource path) (payload : Json) :
    StaysOn upstream (desk.ask task purpose method accept path payload) := by
  unfold Desk.ask
  split
  · exact h.finish task _
  · next console found =>
    split
    · exact h.receive task _ purpose
    · next request asked =>
      have leads := h.console found
      have goes := leads.server.trans (Gateway.sameServer_request leads.normal leads.rooted means asked)
      have sent : StaysOn upstream { desk with sent := desk.sent ++ [request] } := by
        refine { h with sent := fun other mem ↦ ?_ }
        rcases List.mem_append.mp mem with old | new
        · exact h.sent other old
        · rw [List.mem_singleton.mp new]
          exact goes
      have answered := sent.answerFor purpose.console request
      dsimp only
      split
      · exact answered.receive task _ purpose
      · exact answered.waitAt task _ trivial

theorem StaysOn.load (h : StaysOn upstream desk) (task : TaskId) (id : ConsoleId) (index : Nat)
    (unmounting : Bool) : StaysOn upstream (desk.load task id index unmounting) := by
  unfold Desk.load
  split
  · exact h.finish task _
  · next panel _ =>
    split
    · exact h.ask task _ _ _ (Remote.meansResource_schemaQuery panel) _
    · exact h.endLoad task id index none

theorem StaysOn.submit (h : StaysOn upstream desk) (task : TaskId) (id : ConsoleId) (index : Nat) :
    StaysOn upstream (desk.submit task id index) := by
  unfold Desk.submit
  split
  · exact h.finish task _
  · split
    · split <;> exact h.finish task _
    · split <;> exact h.finish task _
    · exact (h.setPanel id index _).ask task _ _ _ Remote.meansResource_empty _

/-! ### Consoles that start -/

theorem StaysOn.startConsole (h : StaysOn upstream desk) (task : TaskId) (id : ConsoleId) (building : Bool) :
    StaysOn upstream (desk.startConsole task id building) := by
  unfold Desk.startConsole
  generalize ((desk.console? id).map fun console ↦ console.panels.length).getD 0 = panels
  have loads (indices : List Nat) {desk : Desk} (h : StaysOn upstream desk) :
      StaysOn upstream (indices.foldl
        (fun desk index ↦ (desk.spawn (.loading task id index) (.load id index false)).1) desk) := by
    induction indices generalizing desk with
    | nil => exact h
    | cons index indices ih => exact ih (h.spawn _ trivial)
  have staged : StaysOn upstream (desk.setStage task (.starting id building (panels + 1) none)) :=
    h.setStage task trivial
  exact loads _ (staged.spawn _ trivial)

theorem StaysOn.visited (h : StaysOn upstream desk) (task : TaskId) (result : Except Fault ConsoleId) :
    StaysOn upstream (desk.visited task result) := by
  unfold Desk.visited
  split
  · split
    · exact h.finish task _
    · next errand _ id _ _ console found =>
      have performed : StaysOn upstream { desk.modifyConsole id fun _ ↦
          (Host.perform console desk.store errand).console with
            store := (Host.perform console desk.store errand).store } :=
        (h.modifyConsole id fun _ _ _ ↦
          (h.console found).of_gateway (console.works_perform desk.store errand).gateway).with_store _
      dsimp only
      split
      · exact performed.finish task _
      · exact performed.submit task id _
  · split <;> exact h.finish task _
  · exact h.finish task _
  · exact h.finish task _

theorem StaysOn.pushWoken (h : StaysOn upstream desk) (woken : Option TaskId) :
    StaysOn upstream (desk.pushWoken woken) := by
  cases woken with
  | none => exact h
  | some task => exact h.push _

theorem StaysOn.failBuild (h : StaysOn upstream desk) (task : TaskId) (fault : Fault) :
    StaysOn upstream (desk.failBuild task fault) := by
  unfold Desk.failBuild
  have failed : StaysOn upstream { desk with registry := (desk.registry.fail task).1 } :=
    h.perform (.fail task) fun _ ↦ rfl
  have ended {closed : Desk} (h : StaysOn upstream closed) :=
    ((h.perform (.giveUp task) fun _ ↦ rfl).pushWoken (closed.registry.giveUp task).2).visited task
      (.error fault)
  generalize desk.registry.fail task = result at failed ⊢
  obtain ⟨registry, made⟩ := result
  cases made with
  | some id => exact ended (failed.closeConsole id)
  | none => exact ended failed

theorem StaysOn.closeStale (h : StaysOn upstream desk) (ticket : Ticket) (stale : List ConsoleId) :
    StaysOn upstream (desk.closeStale ticket stale) := by
  unfold Desk.closeStale
  induction stale generalizing desk with
  | nil => exact h
  | cons id stale ih => exact ih ((h.closeConsole id).perform (.closed ticket) fun _ ↦ rfl)

theorem StaysOn.keepBuilt (h : StaysOn upstream desk) (task : TaskId) (id : ConsoleId) :
    StaysOn upstream (desk.keepBuilt task id) := by
  unfold Desk.keepBuilt
  have kept := h.with_registry (desk.registry.paths_keep_subset task id)
  exact ((kept.pushWoken _).closeStale task _).visited task _

theorem StaysOn.started (h : StaysOn upstream desk) (task : TaskId) (id : ConsoleId) (building : Bool)
    (result : Except Fault Unit) : StaysOn upstream (desk.started task id building result) := by
  have selected : StaysOn upstream (desk.modifyConsole id Console.selectFirst) := by
    refine h.work id fun console ↦ ?_
    rw [Console.selectFirst]
    split
    · rfl
    · split <;> rfl
  unfold Desk.started
  split
  · exact selected.keepBuilt task id
  · exact selected.finish task _
  · exact h.failBuild task _
  · exact h.finish task _

/-! ### Visits -/

theorem StaysOn.produce (h : StaysOn upstream desk) (task : TaskId) (rooted : Rooted path) (plan : Plan) :
    StaysOn upstream (desk.produce task path plan) := by
  unfold Desk.produce
  split
  · exact h.failBuild task _
  · split
    · exact h.failBuild task _
    · next console built =>
      have added := h.addConsole (Console.leadsTo_build h.factory rooted built) plan.script
      have made := added.perform (.made task desk.stations.length) fun _ ↦ rfl
      exact made.startConsole task _ true

theorem StaysOn.build (h : StaysOn upstream desk) (task : TaskId) (rooted : Rooted path) :
    StaysOn upstream (desk.build task path) := by
  unfold Desk.build
  have counted : StaysOn upstream { desk with factory := desk.factory.count path } := { h with }
  dsimp only
  split
  · exact counted.produce task rooted _
  · exact counted.waitAt task _ rooted

theorem StaysOn.arrive (h : StaysOn upstream desk) (task : TaskId) (rooted : Rooted path) :
    StaysOn upstream (desk.arrive task path) := by
  have arrived : StaysOn upstream { desk with registry := (desk.registry.arrive task path).1 } := by
    refine { h with visits := fun key mem ↦ ?_ }
    rcases List.mem_append.mp (desk.registry.paths_arrive_subset task path mem) with old | new
    · exact h.visits key old
    · exact List.mem_singleton.mp new ▸ rooted
  unfold Desk.arrive
  dsimp only
  split
  · exact arrived.visited task _
  · exact arrived.setStage task trivial
  · exact arrived.build task rooted

theorem StaysOn.resumeVisit (h : StaysOn upstream desk) (task : TaskId) :
    StaysOn upstream (desk.resumeVisit task) := by
  have resumed := (h.with_registry (desk.registry.paths_resume_subset task)).pushWoken
    (desk.registry.resume task).2.2
  unfold Desk.resumeVisit
  dsimp only
  split
  · exact resumed.visited task _
  · next builds =>
    -- A visit that builds is in the registry, so its path is known.
    cases found : desk.registry.visit? task with
    | none =>
      rw [Registry.resume, found] at builds
      cases builds
    | some v =>
      refine resumed.build task (h.visits v.path ?_)
      exact List.mem_map_of_mem (List.mem_of_find?_eq_some found)
  · exact resumed.visited task _
  · exact resumed

/-! ### Turns -/

theorem StaysOn.begin (h : StaysOn upstream desk) (task : TaskId) {job : Job}
    (rooted : Stage.Rooted (.fresh job)) : StaysOn upstream (desk.begin task job) := by
  cases job with
  | load id index unmounting => exact h.load task id index unmounting
  | submit id index => exact h.submit task id index
  | read id => exact h.ask task _ _ _ Remote.meansResource_empty _
  | start id => exact h.startConsole task id false
  | visit path => exact h.arrive task rooted

theorem StaysOn.runTask (h : StaysOn upstream desk) (task : TaskId) : StaysOn upstream (desk.runTask task) := by
  unfold Desk.runTask
  split
  · exact h
  · next current found =>
    have rooted := h.tasks current (List.mem_of_getElem? found)
    have noticed : StaysOn upstream (desk.modifyTask task ({ · with cancelled := false })) :=
      h.modifyTask task fun _ same ↦ same
    dsimp only
    split
    · next job stage =>
      rw [stage] at rooted
      split
      · exact noticed.finish task _
      · exact noticed.begin task rooted
    · exact noticed.receive task _ _
    · next path plan stage =>
      rw [stage] at rooted
      split
      · exact noticed.failBuild task _
      · exact noticed.produce task rooted plan
    · exact noticed.resumeVisit task
    · exact noticed.started task _ _ _
    · exact noticed
    · exact noticed

theorem StaysOn.childEnded (h : StaysOn upstream desk) (parent child : TaskId) :
    StaysOn upstream (desk.childEnded parent child) := by
  unfold Desk.childEnded
  split
  · refine StaysOn.push ?_ _
    exact h.setStage parent trivial
  · split
    · refine StaysOn.push ?_ _
      exact h.setStage parent trivial
    · exact h.setStage parent trivial
  · exact h

/-- Every turn stays on the server. -/
theorem StaysOn.take (h : StaysOn upstream desk) (turn : Turn) : StaysOn upstream (desk.take turn) := by
  cases turn with
  | run task => exact h.runTask task
  | childEnded parent child => exact h.childEnded parent child

theorem StaysOn.settle (h : StaysOn upstream desk) : StaysOn upstream desk.settle := by
  have within (fuel : Nat) {desk : Desk} (h : StaysOn upstream desk) :
      StaysOn upstream (settleWithin fuel desk) := by
    induction fuel generalizing desk with
    | zero => exact h
    | succ fuel ih =>
      rw [settleWithin]
      split
      · exact h
      · next turn rest _ =>
        have popped : StaysOn upstream { desk with ready := rest } := { h with }
        exact ih (popped.take turn)
  exact within _ h

theorem StaysOn.interrupt (h : StaysOn upstream desk) (task : TaskId) :
    StaysOn upstream (desk.interrupt task) := by
  have told : StaysOn upstream (desk.modifyTask task ({ · with cancelled := true })) :=
    h.modifyTask task fun _ same ↦ same
  exact { told with }

theorem StaysOn.interruptAll (h : StaysOn upstream desk) (tasks : List TaskId) :
    StaysOn upstream (tasks.foldl Desk.interrupt desk) := by
  induction tasks generalizing desk with
  | nil => exact h
  | cons task tasks ih => exact ih (h.interrupt task)

theorem StaysOn.cancel (h : StaysOn upstream desk) (task : TaskId) : StaysOn upstream (desk.cancel task) := by
  unfold Desk.cancel
  split
  · exact (h.interrupt task).settle
  · exact (h.interrupt task).settle
  · have withdrawn := h.perform (.cancel task) fun _ ↦ rfl
    dsimp only
    refine StaysOn.settle ?_
    split
    · exact withdrawn.push _
    · exact withdrawn
  · exact (h.interruptAll _).settle
  · exact h

/-! ### Runs -/

/-- Whatever can happen to a desk whose visits are to resources: tasks are started, take turns and are
cancelled, gates are opened, consoles are taken out of the registry, made outside of it, and worked on. -/
inductive Happens (desk : Desk) : Desk → Prop where
  | spawned {goal : Goal} {job : Job} :
      (∀ path, job = .visit path → ∃ given, Host.normalizeResource given = .ok path) →
      Happens desk (desk.spawn goal job).1
  | turn {turn : Turn} {rest : List Turn} : desk.ready = turn :: rest →
      Happens desk ({ desk with ready := rest }.take turn)
  | cancelled (task : TaskId) : Happens desk (desk.cancel task)
  | released (gate : String) : Happens desk (desk.release gate)
  | reset (path : String) : Happens desk (desk.reset path)
  | closed : Happens desk desk.closeAll
  /-- A console for a resource that is not in the registry. -/
  | added {given path : String} {verbs : List String} {single : Bool} {console : Console}
      (own : Option Remote.Script) : Host.normalizeResource given = .ok path →
      Console.build desk.factory.baseUrl path verbs single = .ok console →
      Happens desk (desk.addConsole console own).1
  /-- Somebody works on a console and saves what is on it. -/
  | worked (id : ConsoleId) {f : Console → Console} (store : Store) :
      (∀ console, (f console).gateway = console.gateway) →
      Happens desk { desk.modifyConsole id f with store }

/-- Everything that happens stays on the server. -/
theorem StaysOn.happens (h : StaysOn upstream desk) (step : Happens desk after) : StaysOn upstream after := by
  cases step with
  | @spawned goal job named =>
    refine h.spawn goal ?_
    cases job with
    | visit path =>
      obtain ⟨given, named⟩ := named path rfl
      exact Remote.rooted_of_normalizeResource named
    | _ => trivial
  | @turn turn rest =>
    have popped : StaysOn upstream { desk with ready := rest } := { h with }
    exact popped.take turn
  | cancelled task => exact h.cancel task
  | released gate =>
    refine StaysOn.settle ?_
    exact { h with }
  | reset path =>
    have taken := h.perform (.reset desk.tasks.length path) fun _ ↦ rfl
    exact taken.closeStale _ _
  | closed =>
    have cleared := h.perform (.clear desk.tasks.length) fun _ ↦ rfl
    exact cleared.closeStale _ _
  | added own named built =>
    exact h.addConsole (Console.leadsTo_build h.factory (Remote.rooted_of_normalizeResource named) built) own
  | worked id store same => exact (h.work id same).with_store store

/-- **Requests stay on the server of the base address.** For every base address that a gateway accepts,
whatever happens on a desk whose visits and consoles are for paths that the host accepts, every request
that it sends goes to the server of the base address. The request has the very scheme, host and port of a
base address that is plain. -/
theorem requests_stay_on_server {store : Store} {script : Remote.Script} {bound : Int} {registry : Registry}
    {factory : Factory} {resource : String} {gateway : Gateway}
    (accepted : Gateway.make factory.baseUrl resource = .ok gateway)
    (made : Registry.make bound = .ok registry)
    (run : Relation.ReflTransGen Happens (Desk.make store script registry factory) desk) :
    ∃ upstream, Address.parse (Gateway.baseText factory.baseUrl) = .ok upstream ∧
      ∀ request ∈ desk.sent, request.address.server = upstream.server ∧
        (upstream.IsPlain → request.address.scheme = upstream.scheme ∧
          request.address.host = upstream.host ∧ request.address.portNumber = upstream.portNumber) := by
  obtain ⟨-, -, upstream, based, -⟩ := Gateway.sameServer_make accepted
  have start : StaysOn upstream (Desk.make store script registry factory) := by
    refine ⟨based, List.forall_mem_nil _, ?_, List.forall_mem_nil _, List.forall_mem_nil _⟩
    have none : registry.paths = [] := by
      rw [Registry.paths, (Registry.calm_make made).2.1]
      rfl
    intro path mem
    rw [Desk.make, none] at mem
    cases mem
  have stays : StaysOn upstream desk := by
    induction run with
    | refl => exact start
    | tail _ step ih => exact ih.happens step
  refine ⟨upstream, based, fun request mem ↦ ?_⟩
  exact ⟨(stays.sent request mem).server, (stays.sent request mem).plain⟩

/-- The turns that a desk takes until nothing can go on belong to its run. -/
theorem reaches_settleWithin (fuel : Nat) (desk : Desk) :
    Relation.ReflTransGen Happens desk (settleWithin fuel desk) := by
  induction fuel generalizing desk with
  | zero => exact .refl
  | succ fuel ih =>
    rw [settleWithin]
    split
    · exact .refl
    · next turn rest ready => exact .head (.turn ready) (ih _)

/-- Consoles for resources under `http://h:8080/api`. -/
def exampleSite : Factory := ⟨"http://h:8080/api", ["post"], false, [], []⟩

/-- A path that looks like another host is one of the server. -/
theorem odd_path_stays_on_server : ∃ start desk : Desk,
    start.factory.baseUrl = "http://h:8080/api" ∧
      Host.normalizeResource "@evil.test:1/x" = .ok "/@evil.test:1/x" ∧
      Relation.ReflTransGen Happens start desk ∧
      desk.sent.map Request.url =
        ["http://h:8080/api/@evil.test:1/x", "http://h:8080/api/@evil.test:1/x?method=POST"] ∧
      ∀ request ∈ desk.sent, request.address.scheme = "http".toList ∧
        request.address.host = "h".toList ∧ request.address.portNumber = some 8080 := by
  have named : Host.normalizeResource "@evil.test:1/x" = .ok "/@evil.test:1/x" := by with_unfolding_all rfl
  have made : Registry.make 1 = .ok ⟨1, by decide, [], [], 0, [], []⟩ := rfl
  generalize start_eq : Desk.make (.memory []) (.sequence ⟨[.ofText 200 "\x7b\x7d"], 0⟩)
    ⟨1, by decide, [], [], 0, [], []⟩ exampleSite = start
  have visits : Happens start (start.spawn .result (.visit "/@evil.test:1/x")).1 :=
    .spawned fun path same ↦ by
      cases same
      exact ⟨_, named⟩
  have run := (Relation.ReflTransGen.single visits).trans (reaches_settleWithin 3 _)
  have parsed : Address.parse (Gateway.baseText exampleSite.baseUrl) =
      .ok ⟨"http".toList, [], "h".toList, some 8080, "/api/".toList, none, none⟩ := by decide +kernel
  obtain ⟨gateway, accepted⟩ : ∃ gateway, Gateway.make exampleSite.baseUrl "/" = .ok gateway := by
    have accepted : (Gateway.make exampleSite.baseUrl "/").isOk = true := by decide +kernel
    cases made : Gateway.make exampleSite.baseUrl "/" with
    | ok gateway => exact ⟨gateway, rfl⟩
    | error error =>
      rw [made] at accepted
      cases accepted
  subst start_eq
  obtain ⟨upstream, based, stays⟩ := requests_stay_on_server accepted made run
  rw [parsed] at based
  obtain rfl := Except.ok.inj based
  have plain : Address.IsPlain ⟨"http".toList, [], "h".toList, some 8080, "/api/".toList, none, none⟩ :=
    ⟨by decide, by rintro _ ⟨⟩; decide⟩
  exact ⟨_, _, rfl, named, run, by decide +kernel, fun request mem ↦ (stays request mem).2 plain⟩

end Desk

end VerbForms
