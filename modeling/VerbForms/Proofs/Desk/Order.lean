import VerbForms.Proofs.Desk.Visits

/-!
# Steps leave a desk in order

Whatever happens next to a desk that is in order, it is in order again, and a panel that has been rendered
on the way has a fresh form with the value from the store (`Faithful.step`). What happens is the turn of a
task that is on its way to a console, the turn of another task, or something from outside.
-/

namespace VerbForms.Desk

variable {first : Store} {verbs : List String} {single : Bool} {desk after : Desk} {calls more : List Call}
  {call : Call} {task : TaskId}

/-! ### Calls on their way -/

theorem Faithful.hand (h : Faithful first verbs single desk calls) (mem : call ∈ calls)
    (going : desk.onItsWay call = true) : Hand first verbs single desk desk calls call where
  world := h.world
  attended := ⟨fun other there _ ↦ h.attended.placed other there (Option.some_ne_none _),
    fun v there _ ↦ h.attended.visits v there (Option.some_ne_none _)⟩
  listed := h.listed
  stored := h.stored
  plain := .refl desk
  mem := mem
  going := going

/-- A turn of a call that is on its way. -/
theorem Faithful.runCall (h : Faithful first verbs single desk calls)
    (plain : Console.PlainVerbs verbs single) (mem : call ∈ calls) (going : desk.onItsWay call = true) :
    Turned first verbs single desk (desk.runTask call.task) calls := by
  have start := h.hand mem going
  obtain ⟨current, _, found, -, visit⟩ := start.exists_task
  have placed := h.attended.placed call mem (Option.some_ne_none _) current found
  have told : Frame Panel.Still call.task desk (desk.modifyTask call.task ({ · with cancelled := false })) :=
    desk.frame_modifyTask call.task fun _ ↦ rfl
  have same : ((desk.modifyTask call.task ({ · with cancelled := false })).tasks[call.task]?).map Task.stage =
      (desk.tasks[call.task]?).map Task.stage := by
    rw [tasks_modifyTask_self, Option.map_map]
    rfl
  have hand := start.evolve told same
  unfold runTask
  rw [found]
  dsimp only
  cases stage : current.stage with
  | fresh job =>
    cases job with
    | visit path =>
      rw [stage] at placed
      obtain ⟨rfl, gone⟩ := placed
      dsimp only
      split
      · exact hand.finish gone (call.put?_error .cancelled)
      · exact hand.arrive plain gone
    | _ => rw [stage] at visit; cases visit
  | producing path plan =>
    rw [stage] at placed
    obtain ⟨rfl, lock, there⟩ := placed
    dsimp only
    split
    · exact hand.failBuild there rfl .cancelled
    · exact hand.produce there plan
  | queued => rw [stage] at placed; exact placed.elim
  | starting id building left result =>
    cases building with
    | true =>
      rw [stage] at placed
      obtain ⟨serves, lock, there⟩ := placed
      cases result with
      | some result =>
        exact hand.started plain there rfl rfl (serves.frame (told.mono fun _ _ ↦ .still)) result
      | none =>
        refine hand.waits (.refl call.task _) hand.going fun later here ↦ ?_
        rw [here, found, Option.map_some, Option.map_some, Option.some.injEq] at same
        rw [same, stage]
        exact ⟨serves.frame (told.mono fun _ _ ↦ .still), lock, there⟩
    | false => rw [stage] at visit; cases visit
  | asking purpose request outcome => rw [stage] at visit; cases visit
  | ended ending => rw [stage] at visit; cases visit

/-! ### Other tasks -/

/-- A turn that sets no task on its way, and after which the call of the task, if there is one, has come to
its place without a value for a panel. -/
theorem Faithful.frame (h : Faithful first verbs single desk calls)
    (frame : Frame (Panel.Follows desk.store) task desk after)
    (going : ∀ current, after.tasks[task]? = some current → current.stage.isVisit = true →
      ∃ old, desk.tasks[task]? = some old ∧ old.stage.isVisit = true)
    (own : ∀ call ∈ calls, call.task = task → after.put? call = desk.put? call ∧
      ∀ current, after.tasks[task]? = some current → desk.Placed call current.stage) :
    Turned first verbs single desk after calls := by
  have attended : Attended after calls none := by
    refine ⟨fun call mem _ current found ↦ ?_, fun v mem _ ↦ ?_⟩
    · have placed : desk.Placed call current.stage := by
        by_cases here : call.task = task
        · exact (own call mem here).2 current (here ▸ found)
        · obtain ⟨old, _, there, -⟩ := h.listed.goals call mem
          have same := frame.others call.task old here there
          rw [found] at same
          exact Option.some.inj same ▸ h.attended.placed call mem (Option.some_ne_none _) old there
      exact placed.change (fun v _ ↦ by rw [frame.registry]) fun _ _ serves ↦ serves.frame frame
    · exact h.attended.visits v (frame.registry ▸ mem) (Option.some_ne_none _)
  have puts : after.puts calls = desk.puts calls :=
    frame.puts h.listed fun call mem same ↦ (own call mem same).1
  exact ⟨⟨h.world.frame frame, attended, h.listed.frame frame going, h.stored.of_eq frame.store puts⟩,
    (Plain.refl desk).renders frame.stations⟩

/-- A turn that leaves the task at its stage. -/
theorem Faithful.still (h : Faithful first verbs single desk calls)
    (frame : Frame (Panel.Follows desk.store) task desk after)
    (stage : (after.tasks[task]?).map Task.stage = (desk.tasks[task]?).map Task.stage) :
    Turned first verbs single desk after calls := by
  have before {current : Task} (found : after.tasks[task]? = some current) :
      ∃ old, desk.tasks[task]? = some old ∧ old.stage = current.stage := by
    rw [found, Option.map_some] at stage
    exact Option.map_eq_some_iff.mp stage.symm
  refine h.frame frame (fun current found visit ↦ ?_) fun call mem own ↦ ⟨?_, fun current found ↦ ?_⟩
  · obtain ⟨old, there, same⟩ := before found
    exact ⟨old, there, same ▸ visit⟩
  · exact put?_congr (own ▸ stage)
  · obtain ⟨old, there, same⟩ := before found
    exact same ▸ h.attended.placed call mem (Option.some_ne_none _) old (own ▸ there)

/-- A turn of a task that is no call's. -/
theorem Faithful.stranger (h : Faithful first verbs single desk calls)
    (stranger : ∀ call ∈ calls, call.task ≠ task)
    (frame : Frame (Panel.Follows desk.store) task desk after)
    (aside : ∀ current, after.tasks[task]? = some current → current.stage.isVisit = false) :
    Turned first verbs single desk after calls := by
  refine h.frame frame (fun current found visit ↦ ?_) fun call mem own ↦ absurd own (stranger call mem)
  rw [aside current found] at visit
  cases visit

theorem Settles.aside {r : Panel → Panel → Prop} (settles : Settles r task desk after) :
    ∀ current, after.tasks[task]? = some current → current.stage.isVisit = false := by
  intro current found
  have past := settles.past current found
  cases stage : current.stage with
  | asking purpose request outcome => rfl
  | ended ending => rfl
  | _ => rw [stage] at past; cases past

/-- A turn after which a task that is no call's asks for something or has ended. -/
theorem Faithful.settles (h : Faithful first verbs single desk calls)
    (stranger : ∀ call ∈ calls, call.task ≠ task)
    (settles : Settles (Panel.Follows desk.store) task desk after) :
    Turned first verbs single desk after calls :=
  h.stranger stranger settles.toFrame settles.aside

/-- The answer to a request that a task has sent. -/
theorem Faithful.receive (h : Faithful first verbs single desk calls) {current : Task} {purpose : Purpose}
    {request : Remote.Request} {outcome : Remote.Outcome} (found : desk.tasks[task]? = some current)
    (stage : current.stage = .asking purpose request outcome)
    (settles : Settles (Panel.Follows desk.store) task desk after) :
    Turned first verbs single desk after calls := by
  refine h.frame settles.toFrame (fun later there visit ↦ ?_) fun call mem own ↦ ?_
  · rw [settles.aside later there] at visit
    cases visit
  · have placed := h.attended.placed call mem (Option.some_ne_none _) current (own ▸ found)
    rw [stage] at placed
    obtain ⟨⟨verb, submits⟩, gone⟩ := placed
    have unput (desk : Desk) : desk.put? call = none := by
      rw [put?]
      cases desk.ending? call.task with
      | none => rfl
      | some ending => exact call.put?_submit submits ending
    refine ⟨(unput after).trans (unput desk).symm, fun later there ↦ ?_⟩
    have past := settles.past later there
    cases stage : later.stage with
    | asking purpose request outcome => exact ⟨⟨verb, submits⟩, gone⟩
    | ended ending => exact gone
    | _ => rw [stage] at past; cases past

/-- The first turn of a task that does not visit a path. -/
theorem frame_begin (desk : Desk) (known : task < desk.tasks.length) (job : Job)
    (aside : (Stage.fresh job).isVisit = false) :
    Frame (Panel.Follows desk.store) task desk (desk.begin task job) ∧
      ∀ current, (desk.begin task job).tasks[task]? = some current → current.stage.isVisit = false := by
  have both {after : Desk} (settles : Settles (Panel.Follows desk.store) task desk after) :
      Frame (Panel.Follows desk.store) task desk after ∧
        ∀ current, after.tasks[task]? = some current → current.stage.isVisit = false :=
    ⟨settles.toFrame, settles.aside⟩
  cases job with
  | load id index unmounting => exact both (desk.settles_load task id index unmounting)
  | submit id index => exact both (desk.settles_submit task id index)
  | read id => exact both (desk.settles_ask task (.resource id) "GET" Remote.jsonMime "" .null)
  | start id =>
    obtain ⟨frame, left, started⟩ := desk.frame_startConsole (r := Panel.Follows desk.store) known id false
    unfold begin
    refine ⟨frame, fun later there ↦ ?_⟩
    rw [there, Option.map_some, Option.some.injEq] at started
    rw [started]
    rfl
  | visit path => cases aside

/-- A turn of a task that is on no visit. -/
theorem Faithful.runOther (h : Faithful first verbs single desk calls) {current : Task}
    (found : desk.tasks[task]? = some current) (visit : current.stage.isVisit = false) :
    Turned first verbs single desk (desk.runTask task) calls := by
  have told : Frame (Panel.Follows desk.store) task desk
      (desk.modifyTask task ({ · with cancelled := false })) :=
    desk.frame_modifyTask task fun _ ↦ rfl
  obtain ⟨known, -⟩ := List.getElem?_eq_some_iff.mp found
  have known' : task < (desk.modifyTask task ({ · with cancelled := false })).tasks.length := by
    simpa [modifyTask] using known
  -- A call whose task is on no visit has sent a submission, or it has ended.
  have stranger (other : ∀ call, ¬ desk.Placed call current.stage) : ∀ call ∈ calls, call.task ≠ task := by
    intro call mem own
    exact other call (h.attended.placed call mem (Option.some_ne_none _) current (own ▸ found))
  have unchanged :
      Turned first verbs single desk (desk.modifyTask task ({ · with cancelled := false })) calls := by
    refine h.still told ?_
    rw [tasks_modifyTask_self, Option.map_map]
    rfl
  unfold runTask
  rw [found]
  dsimp only
  cases stage : current.stage with
  | fresh job =>
    rw [stage] at visit stranger
    dsimp only
    have other : ∀ call, ¬ desk.Placed call (.fresh job) := by
      intro call placed
      cases job with
      | visit path => cases visit
      | _ => exact placed
    split
    · exact h.settles (stranger other) (told.settles (settles_finish _ task _))
    · obtain ⟨begun, aside⟩ := frame_begin _ known' job visit
      exact h.stranger (stranger other) (told.trans begun) aside
  | asking purpose request outcome =>
    have received (answer : Except Remote.RequestError Json) := settles_receive
      (desk.modifyTask task ({ · with cancelled := false })) task answer purpose
    exact h.receive found stage (told.settles (received _))
  | starting id building left result =>
    rw [stage] at visit stranger
    cases building with
    | true => cases visit
    | false =>
      cases result with
      | none => exact unchanged
      | some result =>
        refine h.settles (stranger fun _ placed ↦ placed) (told.settles ?_)
        cases result with
        | ok _ =>
          have selected : Frame Panel.Still task (desk.modifyTask task ({ · with cancelled := false }))
              ((desk.modifyTask task ({ · with cancelled := false })).modifyConsole id Console.selectFirst) :=
            frame_modifyConsole _ task id fun console _ ↦ console.still_selectFirst
          exact (selected.settles (settles_finish _ task _)).mono fun _ _ ↦ .still
        | error fault => exact settles_finish _ task _
  | producing path plan => rw [stage] at visit; cases visit
  | queued => rw [stage] at visit; cases visit
  | ended ending => exact unchanged

/-! ### Turns -/

/-- A task on its way to a console is a call's. -/
theorem Listed.exists_call (h : Listed desk calls) {current : Task} (found : desk.tasks[task]? = some current)
    (visit : current.stage.isVisit = true) :
    ∃ call ∈ calls, call.task = task ∧ desk.onItsWay call = true := by
  by_contra none
  have inner := h.inner task current found fun call mem own ↦
    none ⟨call, mem, own, by subst own; exact (onItsWay_of_found found).trans visit⟩
  rw [Task.isInner, visit] at inner
  split at inner <;> cases inner

theorem Faithful.runTask (h : Faithful first verbs single desk calls)
    (plain : Console.PlainVerbs verbs single) (task : TaskId) :
    Turned first verbs single desk (desk.runTask task) calls := by
  cases found : desk.tasks[task]? with
  | none =>
    rw [Desk.runTask, found]
    exact h.still (.refl task desk) rfl
  | some current =>
    cases visit : current.stage.isVisit with
    | true =>
      obtain ⟨call, mem, rfl, going⟩ := h.listed.exists_call found visit
      exact h.runCall plain mem going
    | false => exact h.runOther found visit

/-- A task that starts a console goes on waiting for the tasks that do so, or it gets a turn. -/
theorem Faithful.setStarting (h : Faithful first verbs single desk calls) {id : ConsoleId} {building : Bool}
    {left left' : Nat} {result result' : Option (Except Fault Unit)}
    (stage : (desk.tasks[task]?).map Task.stage = some (.starting id building left result))
    (frame : Frame Panel.Still task desk after)
    (tasks : after.tasks = (desk.setStage task (.starting id building left' result')).tasks) :
    Turned first verbs single desk after calls := by
  obtain ⟨current, found, starting⟩ := Option.map_eq_some_iff.mp stage
  have same (call : Call) : desk.Placed call (.starting id building left result) ↔
      desk.Placed call (.starting id building left' result') := by
    cases building <;> rfl
  cases building with
  | true =>
    obtain ⟨call, mem, rfl, going⟩ := h.listed.exists_call found (starting ▸ rfl)
    have placed := h.attended.placed call mem (Option.some_ne_none _) current found
    exact (h.hand mem going).setStage rfl ((same call).mp (starting ▸ placed)) frame tasks
  | false =>
    refine h.stranger (fun call mem own ↦ ?_) (frame.mono fun _ _ ↦ .still) fun later there ↦ ?_
    · have placed := h.attended.placed call mem (Option.some_ne_none _) current (own ▸ found)
      rw [starting] at placed
      exact placed
    · rw [tasks, Desk.setStage, tasks_modifyTask_self, found] at there
      rw [← Option.some.inj there]
      rfl

theorem Faithful.childEnded (h : Faithful first verbs single desk calls) (parent child : TaskId) :
    Turned first verbs single desk (desk.childEnded parent child) calls := by
  unfold Desk.childEnded
  split
  · next starting _ =>
    exact h.setStarting starting ((desk.frame_setStage parent _).trans (frame_push _ parent _)) rfl
  · next starting _ =>
    split
    · exact h.setStarting starting ((desk.frame_setStage parent _).trans (frame_push _ parent _)) rfl
    · exact h.setStarting starting (desk.frame_setStage parent _) rfl
  · exact h.still (.refl parent desk) rfl

theorem Faithful.take (h : Faithful first verbs single desk calls) (plain : Console.PlainVerbs verbs single)
    (turn : Turn) : Turned first verbs single desk (desk.take turn) calls := by
  cases turn with
  | run task => exact h.runTask plain task
  | childEnded parent child => exact h.childEnded parent child

end VerbForms.Desk
