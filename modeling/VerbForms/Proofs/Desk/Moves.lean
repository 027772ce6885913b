import VerbForms.Desk.Run
import VerbForms.Proofs.Console.Readiness
import VerbForms.Proofs.Desk.World
import VerbForms.Proofs.Remote.Resource
import Mathlib.Logic.Relation

/-!
# The single changes of a desk

What happens on a desk consists of single changes (`Moves`): books are kept, a request is sent, somebody
works on a console, a console is closed or added. Each function of a desk is a run of such changes, and
so is each turn of a task on a desk where tasks wait only for consoles that have reached their resource
(`Expects`). What the single changes keep, everything keeps.
-/

namespace VerbForms

namespace Desk

open Relation (ReflTransGen)
open Remote (Request MeansResource)

variable {desk after : Desk} {task : TaskId} {id : ConsoleId} {index : Nat} {path : String} {stage : Stage}

/-- The console with a number has a gateway that reaches its resource. -/
def Reaches (desk : Desk) (id : ConsoleId) : Prop :=
  ∃ console, desk.console? id = some console ∧ console.gateway.Reaches

/-- The console for which a task waits for an answer. -/
def Stage.awaits : Stage → Option ConsoleId
  | .asking purpose _ _ => some purpose.console
  | _ => none

/-- The consoles for which tasks wait for answers. -/
def awaited (desk : Desk) : List ConsoleId := desk.tasks.filterMap (·.stage.awaits)

/-- A single change of a desk. -/
inductive Moves (desk : Desk) : Desk → Prop where
  /-- Everything but consoles and requests is free, but a task begins to wait for an answer only for a
  console that has reached its resource. -/
  | kept {after : Desk} : after.consoles = desk.consoles → after.sent = desk.sent →
      (∀ id ∈ after.awaited, id ∈ desk.awaited ∨ desk.Reaches id) → Moves desk after
  | asked {id : ConsoleId} {console : Console} {method accept path : String} {payload : Json}
      {request : Request} :
      desk.console? id = some console → console.gateway.request method accept path payload = .ok request →
      Moves desk { desk with sent := desk.sent ++ [request] }
  | worked (id : ConsoleId) {f : Console → Console} :
      (∀ console, desk.console? id = some console → console.Works (f console)) →
      Moves desk (desk.modifyConsole id f)
  | closed (id : ConsoleId) : Moves desk (desk.closeConsole id)
  | added {console : Console} (own : Option Remote.Script) : console.IsFresh →
      Moves desk (desk.addConsole console own).1

/-- What a desk becomes by single changes. -/
abbrev Becomes : Desk → Desk → Prop := ReflTransGen Moves

/-- Tasks wait for answers only for consoles that have reached their resource. -/
def Expects (desk : Desk) : Prop := ∀ id ∈ desk.awaited, desk.Reaches id

/-! ### What the single changes keep -/

theorem Reaches.congr (h : desk.Reaches id) (same : after.consoles = desk.consoles) : after.Reaches id := by
  obtain ⟨console, found, reaches⟩ := h
  exact ⟨console, by rw [console?_eq, same, ← console?_eq, found], reaches⟩

theorem Reaches.modifyConsole (h : desk.Reaches id) (other : ConsoleId) {f : Console → Console}
    (kept : ∀ console, desk.console? other = some console → console.gateway.Reaches →
      (f console).gateway.Reaches) : (desk.modifyConsole other f).Reaches id := by
  obtain ⟨console, found, reaches⟩ := h
  by_cases same : other = id
  · subst same
    exact ⟨_, console?_modifyConsole_self found f, kept console found reaches⟩
  · refine ⟨console, ?_, reaches⟩
    simpa [console?, Desk.modifyConsole, same] using found

/-- A console that has reached its resource has done so for good. -/
theorem Reaches.move (h : desk.Reaches id) (step : Moves desk after) : after.Reaches id := by
  cases step with
  | kept same => exact h.congr same
  | asked => exact h
  | worked other works =>
    exact h.modifyConsole other fun console found reaches ↦ (works console found).gateway ▸ reaches
  | closed other => exact h.modifyConsole other fun _ _ reaches ↦ reaches
  | added own =>
    obtain ⟨console, found, reaches⟩ := h
    refine ⟨console, ?_, reaches⟩
    have known : id < desk.stations.length := by
      obtain ⟨station, there, -⟩ := console?_eq_some_iff.mp found
      exact (List.getElem?_eq_some_iff.mp there).1
    rw [console?, addConsole, List.getElem?_append_left known]
    exact found

theorem Expects.move (h : desk.Expects) (step : Moves desk after) : after.Expects := by
  intro id mem
  have before : desk.Reaches id := by
    cases step with
    | kept _ _ awaited => exact (awaited id mem).elim (h id) fun reaches ↦ reaches
    | asked | worked | closed | added => exact h id mem
  exact before.move step

theorem Expects.run (h : desk.Expects) (run : Becomes desk after) : after.Expects := by
  induction run with
  | refl => exact h
  | tail _ step ih => exact ih.move step

theorem Reaches.run (h : desk.Reaches id) (run : Becomes desk after) : after.Reaches id := by
  induction run with
  | refl => exact h
  | tail _ step ih => exact ih.move step

/-! ### Keeping books -/

/-- Queues, gates, scripts, the store and the registry are free. -/
theorem run_kept (consoles : after.consoles = desk.consoles) (sent : after.sent = desk.sent)
    (tasks : after.tasks = desk.tasks) : Becomes desk after :=
  .single (.kept consoles sent fun id mem ↦ .inl (by rwa [awaited, tasks] at mem))

theorem run_with_store (desk : Desk) (store : Store) : Becomes desk { desk with store } :=
  run_kept rfl rfl rfl

theorem run_with_registry (desk : Desk) (registry : Registry) :
    Becomes desk { desk with registry } := run_kept rfl rfl rfl

theorem mem_awaited_modifyTask {f : Task → Task} (mem : id ∈ (desk.modifyTask task f).awaited) :
    id ∈ desk.awaited ∨ ∃ t ∈ desk.tasks, (f t).stage.awaits = some id := by
  obtain ⟨t, there, awaits⟩ := List.mem_filterMap.mp mem
  obtain ⟨place, found⟩ := List.getElem?_of_mem there
  rw [modifyTask, List.getElem?_modify] at found
  obtain ⟨old, here, rfl⟩ := Option.map_eq_some_iff.mp found
  split at awaits
  · exact .inr ⟨old, List.mem_of_getElem? here, awaits⟩
  · exact .inl (List.mem_filterMap.mpr ⟨old, List.mem_of_getElem? here, awaits⟩)

/-- A task waits for an answer only for a console that has reached its resource. -/
theorem run_setStage (desk : Desk) (task : TaskId)
    (awaits : ∀ id, stage.awaits = some id → desk.Reaches id) :
    Becomes desk (desk.setStage task stage) := by
  refine .single (.kept rfl rfl fun id mem ↦ ?_)
  exact (mem_awaited_modifyTask mem).imp_right fun ⟨_, _, now⟩ ↦ awaits id now

/-- A task that is told or learns something stays in its stage. -/
theorem run_modifyTask (desk : Desk) (task : TaskId) {f : Task → Task} (same : ∀ t, (f t).stage = t.stage) :
    Becomes desk (desk.modifyTask task f) := by
  refine .single (.kept rfl rfl fun id mem ↦ .inl ?_)
  rcases mem_awaited_modifyTask mem with before | ⟨t, there, awaits⟩
  · exact before
  · exact List.mem_filterMap.mpr ⟨t, there, same t ▸ awaits⟩

theorem run_push (desk : Desk) (turn : Turn) : Becomes desk (desk.push turn) := run_kept rfl rfl rfl

theorem run_finish (desk : Desk) (task : TaskId) (ending : Ending) :
    Becomes desk (desk.finish task ending) := by
  have ended : Becomes desk (desk.setStage task (.ended ending)) :=
    desk.run_setStage task fun _ none ↦ by cases none
  rw [finish]
  split
  · exact ended.trans (run_push _ _)
  · exact ended.trans (run_push _ _)
  · exact ended

theorem run_waitAt (desk : Desk) (task : TaskId) (gate : Option String)
    (awaits : ∀ id, stage.awaits = some id → desk.Reaches id) :
    Becomes desk (desk.waitAt task gate stage) :=
  (desk.run_setStage task awaits).trans (run_kept rfl rfl rfl)

theorem run_spawn (desk : Desk) (goal : Goal) (job : Job) : Becomes desk (desk.spawn goal job).1 := by
  refine .single (.kept rfl rfl fun id mem ↦ .inl ?_)
  have new : (spawn desk goal job).1.awaited = desk.awaited := by
    simp [awaited, spawn, push, Stage.awaits]
  exact new ▸ mem

theorem run_answerFor (desk : Desk) (id : ConsoleId) (request : Request) :
    Becomes desk (desk.answerFor id request).1 := by
  have consoles := desk.consoles_answerFor id request
  rw [answerFor] at consoles ⊢
  split at consoles <;> exact run_kept consoles rfl rfl

/-! ### Work on consoles -/

theorem run_modifyConsole (desk : Desk) (id : ConsoleId) {f : Console → Console}
    (works : ∀ console, desk.console? id = some console → console.Works (f console)) :
    Becomes desk (desk.modifyConsole id f) :=
  .single (.worked id works)

theorem run_setPanel {panel next : Panel} (found : desk.panel? id index = some panel)
    (works : ∀ console, desk.console? id = some console → Panel.Works console.gateway.Reaches panel next) :
    Becomes desk (desk.setPanel id index next) := by
  refine desk.run_modifyConsole id fun console here ↦ console.works_setPanel index fun old there ↦ ?_
  rw [panel?, here, Option.bind_some, there] at found
  exact Option.some.inj found ▸ works console here

theorem run_closeConsole (desk : Desk) (id : ConsoleId) : Becomes desk (desk.closeConsole id) :=
  .single (.closed id)

/-! ### Answers -/

theorem run_endLoad (desk : Desk) (task : TaskId) (id : ConsoleId) (index : Nat)
    (error : Option Remote.RequestError) : Becomes desk (desk.endLoad task id index error) := by
  unfold endLoad
  split
  · exact desk.run_finish task _
  · split
    · exact desk.run_finish task _
    · refine ReflTransGen.trans ?_ (run_finish _ task _)
      refine desk.run_modifyConsole id fun console _ ↦ ⟨rfl, ?_⟩
      exact forall₂_modify console.panels index fun panel _ ↦ panel.works_withdraw (.inr rfl) _
    · exact desk.run_finish task _

/-- A form is attached only when a schema has come, for which the console must have reached its resource. -/
theorem run_receiveSchema (desk : Desk) (task : TaskId) (id : ConsoleId) (index : Nat) (unmounting : Bool)
    {answer : Except Remote.RequestError Json}
    (reaches : ∀ document, answer = .ok document → desk.Reaches id) :
    Becomes desk (desk.receiveSchema task id index unmounting answer) := by
  unfold receiveSchema
  split
  · exact desk.run_finish task _
  · next panel found =>
    have received (reached : Prop) : Panel.Works reached panel (panel.receive answer).1 :=
      panel.works_receive answer
    split
    · next same =>
      rw [same] at received
      exact (run_setPanel found fun _ _ ↦ received _).trans (run_endLoad _ task id index none)
    · next error same =>
      rw [same] at received
      exact (run_setPanel found fun _ _ ↦ received _).trans (run_endLoad _ task id index (some error))
    · next next schema metadata same =>
      obtain ⟨document, came⟩ := Panel.exists_ok_of_prepared same
      obtain ⟨console, here, reached⟩ := reaches document came
      rw [same] at received
      refine (run_setPanel found fun other there ↦ ?_).trans (run_endLoad _ task id index none)
      obtain rfl := Option.some.inj (here.symm.trans there)
      have mounted : Panel.Works console.gateway.Reaches next
          (if unmounting then next.unmount else next) := by
        split
        · exact next.works_unmount
        · exact .refl _ next
      exact ((received _).trans mounted).trans (Panel.works_attach reached _ schema metadata _)

theorem run_receiveSubmission (desk : Desk) (task : TaskId) (id : ConsoleId) (index : Nat)
    (answer : Except Remote.RequestError Json) :
    Becomes desk (desk.receiveSubmission task id index answer) := by
  unfold receiveSubmission
  split
  · exact desk.run_finish task _
  · next panel found =>
    have put : Becomes desk (desk.modifyConsole id fun console ↦
        (console.setPanel index (panel.endSubmit answer).panel).alert (panel.endSubmit answer).alert) := by
      refine desk.run_modifyConsole id fun console here ↦ ?_
      have ended : console.Works (console.setPanel index (panel.endSubmit answer).panel) := by
        refine console.works_setPanel index fun old there ↦ ?_
        rw [panel?, here, Option.bind_some, there] at found
        obtain rfl := Option.some.inj found
        exact old.works_endSubmit answer
      exact ⟨ended.gateway, ended.panels⟩
    dsimp only
    split <;> exact put.trans (run_finish _ task _)

theorem run_receiveResource (desk : Desk) (task : TaskId) (id : ConsoleId)
    (answer : Except Remote.RequestError Json) :
    Becomes desk (desk.receiveResource task id answer) := by
  unfold receiveResource
  split
  · exact desk.run_finish task _
  · next console found =>
    have put : Becomes desk (desk.modifyConsole id fun _ ↦ (console.receiveResource answer).1) := by
      refine desk.run_modifyConsole id fun old here ↦ ?_
      rw [found] at here
      exact Option.some.inj here ▸ console.works_receiveResource answer
    dsimp only
    split <;> exact put.trans (run_finish _ task _)

theorem run_receive (desk : Desk) (task : TaskId) {answer : Except Remote.RequestError Json}
    {purpose : Purpose} (reaches : ∀ document, answer = .ok document → desk.Reaches purpose.console) :
    Becomes desk (desk.receive task answer purpose) := by
  cases purpose with
  | schema id index unmounting => exact desk.run_receiveSchema task id index unmounting reaches
  | submission id index => exact desk.run_receiveSubmission task id index answer
  | resource id => exact desk.run_receiveResource task id answer

/-! ### Requests -/

/-- A console that sends a request for its resource has reached it. -/
theorem reaches_of_request {console : Console} {method accept : String} {payload : Json} {request : Request}
    (found : desk.console? id = some console) (means : MeansResource path)
    (asked : console.gateway.request method accept path payload = .ok request) : desk.Reaches id := by
  obtain ⟨address, there, -⟩ := Remote.Gateway.request_eq_ok asked
  exact ⟨console, found, Remote.Gateway.exists_addressOf_resource means there⟩

theorem run_ask (desk : Desk) (task : TaskId) (purpose : Purpose) (method accept : String)
    (means : MeansResource path) (payload : Json) :
    Becomes desk (desk.ask task purpose method accept path payload) := by
  unfold ask
  split
  · exact desk.run_finish task _
  · next console found =>
    split
    · exact desk.run_receive task fun _ none ↦ by cases none
    · next request asked =>
      have sent : Becomes desk { desk with sent := desk.sent ++ [request] } :=
        .single (.asked found asked)
      have answered := sent.trans (run_answerFor _ purpose.console request)
      have reaches := (reaches_of_request found means asked).run answered
      dsimp only
      split
      · exact answered.trans (run_receive _ task fun _ _ ↦ reaches)
      · refine answered.trans (run_waitAt _ task _ fun id awaits ↦ ?_)
        exact Option.some.inj awaits ▸ reaches

theorem run_load (desk : Desk) (task : TaskId) (id : ConsoleId) (index : Nat) (unmounting : Bool) :
    Becomes desk (desk.load task id index unmounting) := by
  unfold load
  split
  · exact desk.run_finish task _
  · next panel _ =>
    split
    · exact desk.run_ask task _ _ _ (Remote.meansResource_schemaQuery panel) _
    · exact desk.run_endLoad task id index none

theorem run_submit (desk : Desk) (task : TaskId) (id : ConsoleId) (index : Nat) :
    Becomes desk (desk.submit task id index) := by
  unfold submit
  split
  · exact desk.run_finish task _
  · next panel found =>
    split
    · split <;> exact desk.run_finish task _
    · split <;> exact desk.run_finish task _
    · next sending payload started =>
      obtain ⟨rendered, rfl⟩ := Panel.startSubmit_eq_sending started
      refine (run_setPanel found fun _ _ ↦ Panel.works_sending rendered).trans ?_
      exact run_ask _ task _ _ _ Remote.meansResource_empty _

/-! ### Consoles that start -/

theorem run_startConsole (desk : Desk) (task : TaskId) (id : ConsoleId) (building : Bool) :
    Becomes desk (desk.startConsole task id building) := by
  unfold startConsole
  generalize ((desk.console? id).map fun console ↦ console.panels.length).getD 0 = panels
  have loads (indices : List Nat) (desk : Desk) : Becomes desk (indices.foldl
      (fun desk index ↦ (desk.spawn (.loading task id index) (.load id index false)).1) desk) := by
    induction indices generalizing desk with
    | nil => exact .refl
    | cons index indices ih => exact (desk.run_spawn _ _).trans (ih _)
  have staged : Becomes desk (desk.setStage task (.starting id building (panels + 1) none)) :=
    desk.run_setStage task fun _ none ↦ by cases none
  exact (staged.trans (run_spawn _ _ _)).trans (loads _ _)

theorem run_visited (desk : Desk) (task : TaskId) (result : Except Fault ConsoleId) :
    Becomes desk (desk.visited task result) := by
  unfold visited
  split
  · split
    · exact desk.run_finish task _
    · next errand _ id _ _ console found =>
      have performed : Becomes desk { desk.modifyConsole id fun _ ↦
          (Host.perform console desk.store errand).console with
            store := (Host.perform console desk.store errand).store } := by
        refine ReflTransGen.trans (desk.run_modifyConsole id fun old here ↦ ?_) (run_with_store _ _)
        rw [found] at here
        exact Option.some.inj here ▸ console.works_perform desk.store errand
      dsimp only
      split
      · exact performed.trans (run_finish _ task _)
      · exact performed.trans (run_submit _ task id _)
  · split <;> exact desk.run_finish task _
  · exact desk.run_finish task _
  · exact desk.run_finish task _

theorem run_pushWoken (desk : Desk) (woken : Option TaskId) : Becomes desk (desk.pushWoken woken) := by
  cases woken with
  | none => exact .refl
  | some task => exact desk.run_push _

theorem run_failBuild (desk : Desk) (task : TaskId) (fault : Fault) :
    Becomes desk (desk.failBuild task fault) := by
  unfold failBuild
  generalize desk.registry.fail task = result
  obtain ⟨registry, made⟩ := result
  have failed := desk.run_with_registry registry
  have ended (closed : Desk) : Becomes closed
      (({ closed with registry := (closed.registry.giveUp task).1 }.pushWoken
        (closed.registry.giveUp task).2).visited task (.error fault)) :=
    ((closed.run_with_registry _).trans (run_pushWoken _ _)).trans (run_visited _ task _)
  cases made with
  | some id => exact (failed.trans (run_closeConsole _ id)).trans (ended _)
  | none => exact failed.trans (ended _)

theorem run_closeStale (desk : Desk) (ticket : Ticket) (stale : List ConsoleId) :
    Becomes desk (desk.closeStale ticket stale) := by
  unfold closeStale
  induction stale generalizing desk with
  | nil => exact .refl
  | cons id stale ih => exact ((desk.run_closeConsole id).trans (run_with_registry _ _)).trans (ih _)

theorem run_keepBuilt (desk : Desk) (task : TaskId) (id : ConsoleId) :
    Becomes desk (desk.keepBuilt task id) := by
  unfold keepBuilt
  have kept := desk.run_with_registry (desk.registry.keep task id).1
  exact ((kept.trans (run_pushWoken _ _)).trans (run_closeStale _ task _)).trans (run_visited _ task _)

theorem run_started (desk : Desk) (task : TaskId) (id : ConsoleId) (building : Bool)
    (result : Except Fault Unit) : Becomes desk (desk.started task id building result) := by
  have selected : Becomes desk (desk.modifyConsole id Console.selectFirst) :=
    desk.run_modifyConsole id fun console _ ↦ console.works_selectFirst
  unfold started
  split
  · exact selected.trans (run_keepBuilt _ task id)
  · exact selected.trans (run_finish _ task _)
  · exact desk.run_failBuild task _
  · exact desk.run_finish task _

/-! ### Visits -/

theorem run_produce (desk : Desk) (task : TaskId) (path : String) (plan : Plan) :
    Becomes desk (desk.produce task path plan) := by
  unfold produce
  split
  · exact desk.run_failBuild task _
  · split
    · exact desk.run_failBuild task _
    · next console built =>
      have added : Becomes desk (desk.addConsole console plan.script).1 :=
        .single (.added plan.script (Console.isFresh_build built))
      exact (added.trans (run_with_registry _ _)).trans (run_startConsole _ task _ true)

theorem run_build (desk : Desk) (task : TaskId) (path : String) : Becomes desk (desk.build task path) := by
  unfold build
  have counted : Becomes desk { desk with factory := desk.factory.count path } := run_kept rfl rfl rfl
  dsimp only
  split
  · exact counted.trans (run_produce _ task path _)
  · exact counted.trans (run_waitAt _ task _ fun _ none ↦ by cases none)

theorem run_arrive (desk : Desk) (task : TaskId) (path : String) :
    Becomes desk (desk.arrive task path) := by
  have arrived := desk.run_with_registry (desk.registry.arrive task path).1
  unfold arrive
  dsimp only
  split
  · exact arrived.trans (run_visited _ task _)
  · exact arrived.trans (run_setStage _ task fun _ none ↦ by cases none)
  · exact arrived.trans (run_build _ task path)

theorem run_resumeVisit (desk : Desk) (task : TaskId) : Becomes desk (desk.resumeVisit task) := by
  have woken := (desk.run_with_registry (desk.registry.resume task).1).trans
    (run_pushWoken _ (desk.registry.resume task).2.2)
  unfold resumeVisit
  dsimp only
  split
  · exact woken.trans (run_visited _ task _)
  · exact woken.trans (run_build _ task _)
  · exact woken.trans (run_visited _ task _)
  · exact woken

/-! ### Turns -/

theorem run_begin (desk : Desk) (task : TaskId) (job : Job) : Becomes desk (desk.begin task job) := by
  cases job with
  | load id index unmounting => exact desk.run_load task id index unmounting
  | submit id index => exact desk.run_submit task id index
  | read id => exact desk.run_ask task _ _ _ Remote.meansResource_empty _
  | start id => exact desk.run_startConsole task id false
  | visit path => exact desk.run_arrive task path

/-- An answer that has waited for a gate comes for a console that has reached its resource. -/
theorem Expects.run_runTask (h : desk.Expects) (task : TaskId) : Becomes desk (desk.runTask task) := by
  unfold runTask
  split
  · exact .refl
  · next current found =>
    have noticed : Becomes desk (desk.modifyTask task ({ · with cancelled := false })) :=
      desk.run_modifyTask task fun _ ↦ rfl
    dsimp only
    split
    · next job _ =>
      split
      · exact noticed.trans (run_finish _ task _)
      · exact noticed.trans (run_begin _ task job)
    · next purpose request outcome stage =>
      have awaits : purpose.console ∈ desk.awaited :=
        List.mem_filterMap.mpr ⟨current, List.mem_of_getElem? found, by rw [stage]; rfl⟩
      exact noticed.trans (run_receive _ task fun _ _ ↦ (h _ awaits).run noticed)
    · split
      · exact noticed.trans (run_failBuild _ task _)
      · exact noticed.trans (run_produce _ task _ _)
    · exact noticed.trans (run_resumeVisit _ task)
    · exact noticed.trans (run_started _ task _ _ _)
    · exact noticed
    · exact noticed

theorem run_childEnded (desk : Desk) (parent child : TaskId) :
    Becomes desk (desk.childEnded parent child) := by
  have told {stage : Stage} (idle : stage.awaits = none) : Becomes desk (desk.setStage parent stage) :=
    desk.run_setStage parent fun id awaits ↦ by rw [idle] at awaits; cases awaits
  unfold childEnded
  split
  · exact (told rfl).trans (run_push _ _)
  · split
    · exact (told rfl).trans (run_push _ _)
    · exact told rfl
  · exact .refl

/-- **A turn consists of single changes.** -/
theorem Expects.run_take (h : desk.Expects) (turn : Turn) : Becomes desk (desk.take turn) := by
  cases turn with
  | run task => exact h.run_runTask task
  | childEnded parent child => exact desk.run_childEnded parent child

theorem Expects.run_settle (h : desk.Expects) : Becomes desk desk.settle := by
  have within (fuel : Nat) {desk : Desk} (h : desk.Expects) : Becomes desk (settleWithin fuel desk) := by
    induction fuel generalizing desk with
    | zero => exact .refl
    | succ fuel ih =>
      rw [settleWithin]
      split
      · exact .refl
      · next turn rest _ =>
        have popped : Becomes desk { desk with ready := rest } := run_kept rfl rfl rfl
        have taken := popped.trans ((h.run popped).run_take turn)
        exact taken.trans (ih (h.run taken))
  exact within _ h

/-! ### What comes from outside -/

theorem Expects.run_settle_of_run (h : desk.Expects) (run : Becomes desk after) :
    Becomes desk after.settle := run.trans (h.run run).run_settle

theorem run_interrupt (desk : Desk) (task : TaskId) : Becomes desk (desk.interrupt task) := by
  have told : Becomes desk (desk.modifyTask task ({ · with cancelled := true })) :=
    desk.run_modifyTask task fun _ ↦ rfl
  exact told.trans (run_kept rfl rfl rfl)

theorem Expects.run_launch (h : desk.Expects) (job : Job) : Becomes desk (desk.launch job).1 :=
  h.run_settle_of_run (desk.run_spawn .result job)

theorem Expects.run_serve (h : desk.Expects) (errand : Host.Errand) (name : Option String) (path : String) :
    Becomes desk (desk.serve errand name path).1 :=
  h.run_settle_of_run (desk.run_spawn (.caller errand name) (.visit path))

theorem Expects.run_release (h : desk.Expects) (gate : String) : Becomes desk (desk.release gate) :=
  h.run_settle_of_run (run_kept rfl rfl rfl)

theorem Expects.run_cancel (h : desk.Expects) (task : TaskId) : Becomes desk (desk.cancel task) := by
  have interrupted (tasks : List TaskId) (desk : Desk) :
      Becomes desk (tasks.foldl interrupt desk) := by
    induction tasks generalizing desk with
    | nil => exact .refl
    | cons task tasks ih => exact (desk.run_interrupt task).trans (ih _)
  unfold cancel
  split
  · exact h.run_settle_of_run (desk.run_interrupt task)
  · exact h.run_settle_of_run (desk.run_interrupt task)
  · have withdrawn := desk.run_with_registry (desk.registry.cancel task).1
    dsimp only
    refine h.run_settle_of_run ?_
    split
    · exact withdrawn.trans (run_push _ _)
    · exact withdrawn
  · exact h.run_settle_of_run (interrupted _ desk)
  · exact .refl

theorem run_reset (desk : Desk) (path : String) : Becomes desk (desk.reset path) :=
  (desk.run_with_registry _).trans (run_closeStale _ _ _)

theorem run_closeAll (desk : Desk) : Becomes desk desk.closeAll :=
  (desk.run_with_registry _).trans (run_closeStale _ _ _)

end Desk

end VerbForms
