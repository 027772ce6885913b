import VerbForms.Desk.Step
import VerbForms.Proofs.Console.Evolution

/-!
# What the turn of a task leaves alone

Apart from the ways to a console, a turn leaves the store and the registry alone, and of the other tasks
it starts some and changes none.
-/

namespace VerbForms

namespace Desk

/-- Stages of a task that is on its way to a console. -/
def Stage.isVisit : Stage → Bool
  | .fresh (.visit _) => true
  | .producing _ _ => true
  | .queued => true
  | .starting _ building _ _ => building
  | _ => false

/-- Stages of a task that is not at work on anything that it could change but a panel. -/
def Stage.isPast : Stage → Bool
  | .asking _ _ _ => true
  | .ended _ => true
  | _ => false

/-- A task that is neither a caller's nor on its way to a console. -/
def Task.isInner (task : Task) : Bool :=
  match task.goal with
  | .caller _ _ => false
  | _ => !task.stage.isVisit

/-- A station whose console evolves. -/
def Station.Evolves (r : Panel → Panel → Prop) (station after : Station) : Prop :=
  Console.Evolves r station.console after.console

variable {r : Panel → Panel → Prop} {task : TaskId} {before desk after last : Desk}

/-- What the turn of a task leaves alone, with panels that change as far as the relation allows. -/
structure Frame (r : Panel → Panel → Prop) (task : TaskId) (before after : Desk) : Prop where
  store : after.store = before.store
  registry : after.registry = before.registry
  verbs : after.factory.verbs = before.factory.verbs
  single : after.factory.single = before.factory.single
  stations : List.Forall₂ (Station.Evolves r) before.stations after.stations
  own : (after.tasks[task]?).map Task.goal = (before.tasks[task]?).map Task.goal
  others : ∀ other current, other ≠ task → before.tasks[other]? = some current →
    after.tasks[other]? = some current
  spawned : ∀ other current, other ≠ task → before.tasks[other]? = none →
    after.tasks[other]? = some current → current.isInner = true

/-- The turn of a task after which it asks the resource for something or has ended. -/
structure Settles (r : Panel → Panel → Prop) (task : TaskId) (before after : Desk) : Prop extends
    Frame r task before after where
  past : ∀ current, after.tasks[task]? = some current → current.stage.isPast = true

theorem Frame.mono {s : Panel → Panel → Prop} (weaker : ∀ panel after, r panel after → s panel after)
    (h : Frame r task before after) : Frame s task before after :=
  { h with stations := h.stations.imp fun _ _ ↦ .mono weaker }

theorem Settles.mono {s : Panel → Panel → Prop} (weaker : ∀ panel after, r panel after → s panel after)
    (h : Settles r task before after) : Settles s task before after :=
  ⟨h.toFrame.mono weaker, h.past⟩

variable [IsPreorder Panel r]

instance : IsPreorder Station (Station.Evolves r) where
  refl station := refl_of (Console.Evolves r) station.console
  trans _ _ _ h more := trans_of (Console.Evolves r) h more

theorem Frame.refl (task : TaskId) (desk : Desk) : Frame r task desk desk where
  store := rfl
  registry := rfl
  verbs := rfl
  single := rfl
  stations := List.forall₂_refl desk.stations
  own := rfl
  others _ _ _ found := found
  spawned _ _ _ none found := by rw [none] at found; cases found

theorem Frame.trans (h : Frame r task before desk) (more : Frame r task desk after) :
    Frame r task before after where
  store := more.store.trans h.store
  registry := more.registry.trans h.registry
  verbs := more.verbs.trans h.verbs
  single := more.single.trans h.single
  stations := forall₂_trans h.stations more.stations
  own := more.own.trans h.own
  others other current ne found := more.others other current ne (h.others other current ne found)
  spawned other current ne none found := by
    cases middle : desk.tasks[other]? with
    | none => exact more.spawned other current ne middle found
    | some task =>
      have same := more.others other task ne middle
      rw [found] at same
      exact Option.some.inj same ▸ h.spawned other task ne none middle

theorem Frame.settles (h : Frame r task before desk) (more : Settles r task desk after) :
    Settles r task before after :=
  ⟨h.trans more.toFrame, more.past⟩

/-! ### Single changes -/

theorem tasks_modifyTask_self (desk : Desk) (task : TaskId) (f : Task → Task) :
    (desk.modifyTask task f).tasks[task]? = (desk.tasks[task]?).map f := by
  simp [modifyTask]

theorem tasks_modifyTask_of_ne {other : TaskId} (ne : other ≠ task) (desk : Desk) (f : Task → Task) :
    (desk.modifyTask task f).tasks[other]? = desk.tasks[other]? := by
  simp [modifyTask, ne.symm]

/-- A change of the task alone. -/
theorem frame_modifyTask (desk : Desk) (task : TaskId) {f : Task → Task} (goal : ∀ t, (f t).goal = t.goal) :
    Frame r task desk (desk.modifyTask task f) where
  store := rfl
  registry := rfl
  verbs := rfl
  single := rfl
  stations := List.forall₂_refl desk.stations
  own := by
    rw [tasks_modifyTask_self, Option.map_map]
    exact congrArg (Option.map · _) (funext goal)
  others other current ne found := (tasks_modifyTask_of_ne ne desk f).trans found
  spawned other current ne none found := by
    rw [tasks_modifyTask_of_ne ne, none] at found
    cases found

theorem frame_setStage (desk : Desk) (task : TaskId) (stage : Stage) :
    Frame r task desk (desk.setStage task stage) :=
  desk.frame_modifyTask task fun _ ↦ rfl

omit [IsPreorder Panel r] in
/-- The queues of turns, of gates and of requests, the scripts and the counts of the factory are free. -/
theorem Frame.of_eq (store : after.store = before.store) (registry : after.registry = before.registry)
    (verbs : after.factory.verbs = before.factory.verbs)
    (single : after.factory.single = before.factory.single)
    (stations : List.Forall₂ (Station.Evolves r) before.stations after.stations)
    (tasks : after.tasks = before.tasks) : Frame r task before after where
  store := store
  registry := registry
  verbs := verbs
  single := single
  stations := stations
  own := by rw [tasks]
  others _ _ _ found := tasks ▸ found
  spawned _ _ _ none found := by rw [tasks, none] at found; cases found

theorem frame_push (desk : Desk) (task : TaskId) (turn : Turn) : Frame r task desk (desk.push turn) :=
  .of_eq rfl rfl rfl rfl (List.forall₂_refl desk.stations) rfl

theorem frame_modifyConsole (desk : Desk) (task : TaskId) (id : ConsoleId) {f : Console → Console}
    (step : ∀ console, desk.console? id = some console → Console.Evolves r console (f console)) :
    Frame r task desk (desk.modifyConsole id f) := by
  refine .of_eq rfl rfl rfl rfl (forall₂_modify desk.stations id fun station found ↦ ?_) rfl
  exact step station.console (by rw [console?, found]; rfl)

theorem frame_setPanel (desk : Desk) (task : TaskId) (id : ConsoleId) (index : Nat) {panel : Panel}
    (step : ∀ old, desk.panel? id index = some old → r old panel) :
    Frame r task desk (desk.setPanel id index panel) := by
  refine desk.frame_modifyConsole task id fun console found ↦ ?_
  refine console.evolves_setPanel index fun old here ↦ step old ?_
  rw [panel?, found]
  exact here

theorem settles_finish (desk : Desk) (task : TaskId) (ending : Ending) :
    Settles r task desk (desk.finish task ending) := by
  have past : ∀ current, (desk.setStage task (.ended ending)).tasks[task]? = some current →
      current.stage.isPast = true := by
    intro current found
    rw [setStage, tasks_modifyTask_self] at found
    obtain ⟨old, -, rfl⟩ := Option.map_eq_some_iff.mp found
    rfl
  have staged := desk.frame_setStage (r := r) task (.ended ending)
  rw [finish]
  split
  · exact ⟨staged.trans (frame_push _ task _), past⟩
  · exact ⟨staged.trans (frame_push _ task _), past⟩
  · exact ⟨staged, past⟩

/-- The task asks the resource for something and waits for the answer. -/
theorem settles_waitAt (desk : Desk) (task : TaskId) (gate : Option String) (purpose : Purpose)
    (request : Remote.Request) (outcome : Remote.Outcome) :
    Settles r task desk (desk.waitAt task gate (.asking purpose request outcome)) := by
  have staged := desk.frame_setStage (r := r) task (.asking purpose request outcome)
  refine ⟨staged.trans (.of_eq rfl rfl rfl rfl (List.forall₂_refl _) rfl), fun current found ↦ ?_⟩
  rw [waitAt, setStage, tasks_modifyTask_self] at found
  obtain ⟨old, -, rfl⟩ := Option.map_eq_some_iff.mp found
  rfl

/-! ### Answers -/

theorem frame_answerFor (desk : Desk) (task : TaskId) (id : ConsoleId) (request : Remote.Request) :
    Frame r task desk (desk.answerFor id request).1 := by
  rw [answerFor]
  split
  · refine .of_eq rfl rfl rfl rfl (forall₂_modify desk.stations id fun station _ ↦ ?_) rfl
    exact refl_of (Console.Evolves r) station.console
  · exact .of_eq rfl rfl rfl rfl (List.forall₂_refl desk.stations) rfl

theorem settles_endLoad (desk : Desk) (task : TaskId) (id : ConsoleId) (index : Nat)
    (error : Option Remote.RequestError) :
    Settles Panel.Still task desk (desk.endLoad task id index error) := by
  unfold endLoad
  split
  · exact desk.settles_finish task _
  · split
    · exact desk.settles_finish task _
    · refine Frame.settles ?_ (settles_finish _ task _)
      refine desk.frame_modifyConsole task id fun console _ ↦ ⟨rfl, ?_⟩
      exact forall₂_modify console.panels index fun panel _ ↦ Panel.still_withdraw (.inr rfl) panel _
    · exact desk.settles_finish task _

/-- The answer to a load attaches a form with the value from the store at most. -/
theorem settles_receiveSchema (desk : Desk) (task : TaskId) (id : ConsoleId) (index : Nat)
    (unmounting : Bool) (answer : Except Remote.RequestError Json) :
    Settles (Panel.Follows desk.store) task desk
      (desk.receiveSchema task id index unmounting answer) := by
  have ended (d : Desk) (error : Option Remote.RequestError) :
      Settles (Panel.Follows desk.store) task d (d.endLoad task id index error) :=
    (d.settles_endLoad task id index error).mono fun _ _ ↦ .still
  unfold receiveSchema
  split
  · exact desk.settles_finish task _
  · next panel found =>
    have received := panel.still_receive answer
    have put {after : Panel} (step : Panel.Follows desk.store panel after) :
        Frame (Panel.Follows desk.store) task desk (desk.setPanel id index after) := by
      refine desk.frame_setPanel task id index fun old here ↦ ?_
      rw [found] at here
      exact Option.some.inj here ▸ step
    split
    · next after same =>
      rw [same] at received
      exact (put (.still received)).settles (ended _ none)
    · next after error same =>
      rw [same] at received
      exact (put (.still received)).settles (ended _ (some error))
    · next after schema metadata same =>
      rw [same] at received
      refine (put ?_).settles (ended _ none)
      -- Whether the panel is unmounted or not, its entry is the same.
      have mounted : Panel.Still after (if unmounting then after.unmount else after) := by
        split
        · exact after.still_unmount
        · exact .refl after
      have attached := Panel.follows_attach desk.store
        (if unmounting then after.unmount else after) schema metadata
      rw [mounted.key] at attached
      exact (Panel.Follows.still (received.trans mounted)).trans attached

theorem settles_receiveSubmission (desk : Desk) (task : TaskId) (id : ConsoleId) (index : Nat)
    (answer : Except Remote.RequestError Json) :
    Settles Panel.Still task desk (desk.receiveSubmission task id index answer) := by
  unfold receiveSubmission
  split
  · exact desk.settles_finish task _
  · next panel found =>
    have put : Frame Panel.Still task desk (desk.modifyConsole id fun console ↦
        (console.setPanel index (panel.endSubmit answer).panel).alert (panel.endSubmit answer).alert) := by
      refine desk.frame_modifyConsole task id fun console here ↦ ?_
      have ended : Console.Evolves Panel.Still console
          (console.setPanel index (panel.endSubmit answer).panel) := by
        refine console.evolves_setPanel index fun old there ↦ ?_
        rw [panel?, here, Option.bind_some, there] at found
        exact Option.some.inj found ▸ panel.still_endSubmit answer
      exact ⟨ended.path, ended.panels⟩
    dsimp only
    split <;> exact put.settles (settles_finish _ task _)

theorem settles_receiveResource (desk : Desk) (task : TaskId) (id : ConsoleId)
    (answer : Except Remote.RequestError Json) :
    Settles Panel.Still task desk (desk.receiveResource task id answer) := by
  unfold receiveResource
  split
  · exact desk.settles_finish task _
  · next console found =>
    have put : Frame Panel.Still task desk
        (desk.modifyConsole id fun _ ↦ (console.receiveResource answer).1) := by
      refine desk.frame_modifyConsole task id fun old here ↦ ?_
      rw [found] at here
      exact Option.some.inj here ▸ console.still_receiveResource answer
    dsimp only
    split <;> exact put.settles (settles_finish _ task _)

/-- An answer attaches a form with the value from the store at most. -/
theorem settles_receive (desk : Desk) (task : TaskId) (answer : Except Remote.RequestError Json)
    (purpose : Purpose) :
    Settles (Panel.Follows desk.store) task desk (desk.receive task answer purpose) := by
  cases purpose with
  | schema id index unmounting => exact desk.settles_receiveSchema task id index unmounting answer
  | submission id index =>
    exact (desk.settles_receiveSubmission task id index answer).mono fun _ _ ↦ .still
  | resource id => exact (desk.settles_receiveResource task id answer).mono fun _ _ ↦ .still

/-! ### Requests -/

theorem settles_ask (desk : Desk) (task : TaskId) (purpose : Purpose)
    (method accept path : String) (payload : Json) :
    Settles (Panel.Follows desk.store) task desk
      (desk.ask task purpose method accept path payload) := by
  unfold ask
  split
  · exact desk.settles_finish task _
  · split
    · exact desk.settles_receive task _ purpose
    · next console _ request _ =>
      have sent : Frame (Panel.Follows desk.store) task desk { desk with sent := desk.sent ++ [request] } :=
        .of_eq rfl rfl rfl rfl (List.forall₂_refl desk.stations) rfl
      have answered := sent.trans (frame_answerFor _ task purpose.console request)
      dsimp only
      split
      · have received := settles_receive
          ({ desk with sent := desk.sent ++ [request] }.answerFor purpose.console request).1 task
          (Remote.interpret request
            ({ desk with sent := desk.sent ++ [request] }.answerFor purpose.console request).2.outcome)
          purpose
        rw [answered.store] at received
        exact answered.settles received
      · exact answered.settles (settles_waitAt _ task _ purpose request _)

theorem settles_load (desk : Desk) (task : TaskId) (id : ConsoleId) (index : Nat) (unmounting : Bool) :
    Settles (Panel.Follows desk.store) task desk (desk.load task id index unmounting) := by
  unfold load
  split
  · exact desk.settles_finish task _
  · split
    · exact desk.settles_ask task _ _ _ _ _
    · exact (desk.settles_endLoad task id index none).mono fun _ _ ↦ .still

theorem settles_submit (desk : Desk) (task : TaskId) (id : ConsoleId) (index : Nat) :
    Settles (Panel.Follows desk.store) task desk (desk.submit task id index) := by
  unfold submit
  split
  · exact desk.settles_finish task _
  · next panel found =>
    split
    · split <;> exact desk.settles_finish task _
    · split <;> exact desk.settles_finish task _
    · next sending payload started =>
      obtain ⟨rendered, rfl⟩ := Panel.startSubmit_eq_sending started
      have put : Frame (Panel.Follows desk.store) task desk
          (desk.setPanel id index { panel with phase := .submitting }) := by
        refine desk.frame_setPanel task id index fun old here ↦ ?_
        rw [found] at here
        obtain rfl := Option.some.inj here
        exact .still ⟨⟨⟨rfl, rfl, rfl⟩, fun _ ↦ by rw [Panel.isRendered, rendered]; rfl⟩, rfl, rfl⟩
      have asked := settles_ask (desk.setPanel id index { panel with phase := .submitting }) task
        (.submission id index) panel.verb Remote.jsonMime "" payload
      rw [put.store] at asked
      exact put.settles asked

/-! ### Consoles that start -/

/-- A task is started behind the others. -/
theorem frame_spawn (desk : Desk) (known : task < desk.tasks.length) {goal : Goal} {job : Job}
    (inner : Task.isInner ⟨goal, .fresh job, false⟩ = true) :
    Frame r task desk (desk.spawn goal job).1 where
  store := rfl
  registry := rfl
  verbs := rfl
  single := rfl
  stations := List.forall₂_refl desk.stations
  own := congrArg (Option.map Task.goal) (List.getElem?_append_left known)
  others other current _ found := by
    obtain ⟨bound, -⟩ := List.getElem?_eq_some_iff.mp found
    exact (List.getElem?_append_left bound).trans found
  spawned other current _ none found := by
    have here : (desk.tasks ++ [⟨goal, .fresh job, false⟩])[other]? = some current := found
    rw [List.getElem?_append_right (List.getElem?_eq_none_iff.mp none)] at here
    obtain rfl := List.mem_singleton.mp (List.mem_of_getElem? here)
    exact inner

/-- The loads of panels are started behind the other tasks. -/
theorem frame_spawnLoads (desk : Desk) (known : task < desk.tasks.length) (id : ConsoleId)
    (indices : List Nat) :
    let after := indices.foldl
      (fun desk index ↦ (desk.spawn (.loading task id index) (.load id index false)).1) desk
    Frame r task desk after ∧ after.tasks[task]? = desk.tasks[task]? := by
  induction indices generalizing desk with
  | nil => exact ⟨.refl task desk, rfl⟩
  | cons index indices ih =>
    have spawned : Frame r task desk (desk.spawn (.loading task id index) (.load id index false)).1 :=
      desk.frame_spawn known rfl
    have more : task < (desk.spawn (.loading task id index) (.load id index false)).1.tasks.length := by
      simpa [spawn, push] using Nat.lt_succ_of_lt known
    obtain ⟨rest, same⟩ := ih _ more
    exact ⟨spawned.trans rest, same.trans (List.getElem?_append_left known)⟩

/-- A console that starts is started by other tasks. -/
theorem frame_startConsole (desk : Desk) (known : task < desk.tasks.length) (id : ConsoleId)
    (building : Bool) :
    Frame r task desk (desk.startConsole task id building) ∧
      ∃ left, ((desk.startConsole task id building).tasks[task]?).map Task.stage =
        some (.starting id building left none) := by
  unfold startConsole
  generalize ((desk.console? id).map fun console ↦ console.panels.length).getD 0 = panels
  have staged := desk.frame_setStage (r := r) task (.starting id building (panels + 1) none)
  have known' : task < (desk.setStage task (.starting id building (panels + 1) none)).tasks.length := by
    simpa [setStage, modifyTask] using known
  have reading : Frame r task _ (((desk.setStage task (.starting id building (panels + 1) none)).spawn
      (.reading task) (.read id)).1) := frame_spawn _ known' rfl
  have more : task < ((desk.setStage task (.starting id building (panels + 1) none)).spawn
      (.reading task) (.read id)).1.tasks.length := by
    simpa [spawn, push] using Nat.lt_succ_of_lt known'
  obtain ⟨loads, same⟩ := frame_spawnLoads (r := r) _ more id (List.range panels)
  refine ⟨staged.trans (reading.trans loads), panels + 1, ?_⟩
  have first : ((desk.setStage task (.starting id building (panels + 1) none)).spawn
      (.reading task) (.read id)).1.tasks[task]? = (desk.tasks[task]?).map fun t ↦
        { t with stage := .starting id building (panels + 1) none } :=
    (List.getElem?_append_left known').trans (tasks_modifyTask_self desk task _)
  dsimp only at same ⊢
  rw [same, first, List.getElem?_eq_getElem known]
  rfl

end Desk

end VerbForms
