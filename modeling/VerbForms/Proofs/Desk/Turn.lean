import VerbForms.Proofs.Desk.World

/-!
# Turns of calls

While the task of a call takes its turn, everything but that call is in order (`Hand`). The turn ends with
the call in its place again: under way, answered without an effect, or answered after its errand has been
performed on the console that serves its path.
-/

namespace VerbForms.Desk

variable {first : Store} {verbs : List String} {single : Bool} {start desk after : Desk}
  {calls : List Call} {call : Call} {id : ConsoleId}

/-- A desk on which the task of a call takes its turn. -/
structure Hand (first : Store) (verbs : List String) (single : Bool) (start desk : Desk) (calls : List Call)
    (call : Call) : Prop where
  world : World verbs single desk
  attended : Attended desk calls (some call.task)
  listed : Listed desk calls
  stored : Stored first verbs single desk calls
  plain : Plain start desk
  mem : call ∈ calls
  going : desk.onItsWay call = true

/-- What comes of a turn. -/
structure Turned (first : Store) (verbs : List String) (single : Bool) (start after : Desk)
    (calls : List Call) : Prop where
  faithful : Faithful first verbs single after calls
  renders : Renders start after

/-- A call that is on its way has not put anything on a panel. -/
theorem put?_of_going (going : desk.onItsWay call = true) : desk.put? call = none := by
  rw [put?, ending?]
  split
  · next ending stage =>
    obtain ⟨current, found, ended⟩ := Option.map_eq_some_iff.mp stage
    rw [onItsWay_of_found found, ended] at going
    cases going
  · rfl

theorem Hand.exists_task (h : Hand first verbs single start desk calls call) :
    ∃ current name, desk.tasks[call.task]? = some current ∧ current.goal = .caller call.errand name ∧
      current.stage.isVisit = true := by
  obtain ⟨current, name, found, goal⟩ := h.listed.goals call h.mem
  exact ⟨current, name, found, goal, onItsWay_of_found found ▸ h.going⟩

theorem Hand.goalOf (h : Hand first verbs single start desk calls call) :
    ∃ name, desk.goalOf call.task = .caller call.errand name := by
  obtain ⟨current, name, found, goal, -⟩ := h.exists_task
  exact ⟨name, by rw [Desk.goalOf, found, Option.map_some, goal]; rfl⟩

/-- Consoles may evolve during the turn, as far as no panel gets a form. -/
theorem Hand.evolve (h : Hand first verbs single start desk calls call)
    (frame : Frame Panel.Still call.task desk after)
    (stage : (after.tasks[call.task]?).map Task.stage = (desk.tasks[call.task]?).map Task.stage) :
    Hand first verbs single start after calls call := by
  have follows : Frame (Panel.Follows desk.store) call.task desk after := frame.mono fun _ _ ↦ .still
  have unput : after.puts calls = desk.puts calls := by
    refine frame.puts h.listed fun other mem own ↦ put?_congr ?_
    rw [own, stage]
  have going : after.onItsWay call = desk.onItsWay call := by
    have mapped := congrArg (Option.map Stage.isVisit) stage
    rw [Option.map_map, Option.map_map] at mapped
    exact congrArg (Option.getD · false) mapped
  refine ⟨h.world.frame follows, ?_, ?_, h.stored.of_eq frame.store unput, ?_, h.mem, going.trans h.going⟩
  · exact h.attended.change h.listed frame.others (.of_eq (by rw [frame.registry]))
      fun _ _ _ _ _ serves ↦ serves.frame follows
  · refine h.listed.frame frame fun current found _ ↦ ?_
    obtain ⟨old, _, there, -, visit⟩ := h.exists_task
    exact ⟨old, there, visit⟩
  · exact h.plain.kept frame.store (frame.stations.imp fun _ _ ↦ .mono fun _ _ ↦ Panel.Still.toKept)

/-- The registry may change during the turn, as far as other visits are concerned. -/
theorem Hand.with_registry (h : Hand first verbs single start desk calls call) {registry : Registry}
    (calm : registry.Calm) (cached : ∀ entry ∈ registry.cached, desk.Serves entry.2 entry.1)
    (others : Registry.OthersStay call.task desk.registry registry) :
    Hand first verbs single start { desk with registry } calls call where
  world := h.world.with_registry calm cached
  attended := h.attended.change h.listed (fun _ _ _ found ↦ found) others fun _ _ _ _ _ serves ↦ serves
  listed := h.listed.of_tasks rfl
  stored := h.stored
  plain := ⟨h.plain.store, h.plain.rendered⟩
  mem := h.mem
  going := h.going

/-! ### Ends of turns -/

/-- The stage of a task that has ended. -/
theorem stage_finish {ending : Ending} (desk : Desk) {task : TaskId} {current : Task}
    (found : (desk.finish task ending).tasks[task]? = some current) : current.stage = .ended ending := by
  have staged :
      (desk.finish task ending).tasks[task]? = (desk.setStage task (.ended ending)).tasks[task]? := by
    rw [finish]
    split <;> rfl
  rw [staged, setStage, tasks_modifyTask_self] at found
  obtain ⟨old, -, rfl⟩ := Option.map_eq_some_iff.mp found
  rfl

/-- What a call has put on a panel when it ends. -/
theorem put?_finish (desk : Desk) (known : call.task < desk.tasks.length) (ending : Ending) :
    (desk.finish call.task ending).put? call = call.put? ending := by
  have more : call.task < (desk.finish call.task ending).tasks.length := by
    rw [finish]
    split <;> simpa [setStage, modifyTask, push] using known
  have found := List.getElem?_eq_getElem more
  rw [put?, ending?, found, Option.map_some, desk.stage_finish found]
  rfl

theorem Call.put?_error (call : Call) (fault : Fault) : call.put? (.error fault) = none := by
  unfold Call.put?
  split <;> simp_all

/-- What a call has put on a panel by its answer. -/
theorem Call.put?_replyOf (call : Call) (name : Option String) (served : Host.Served) :
    call.put? (replyOf name served) =
      (call.errand.put? served).map fun put ↦ ⟨call.path, put.1, put.2⟩ := by
  unfold Call.put? Host.Errand.put? replyOf
  cases call.errand with
  | setValue verb value trigger =>
    dsimp only
    rw [Host.reply_status]
    split <;> rfl
  | _ => rfl

/-- What a call has put on a panel it has put there for its path. -/
theorem Call.path_of_put? {ending : Ending} {put : Put} (found : call.put? ending = some put) :
    put.path = call.path := by
  unfold Call.put? at found
  split at found
  · split at found
    · rw [← Option.some.inj found]
    · cases found
  · cases found

theorem Call.put?_submit {verb : String} (submits : call.errand = .submit verb) (ending : Ending) :
    call.put? ending = none := by
  unfold Call.put?
  rw [submits]

/-- A turn that ends after the visit, and without a value for a panel. -/
theorem Hand.settles (h : Hand first verbs single start desk calls call)
    (gone : ∀ v ∈ desk.registry.visits, v.ticket ≠ call.task)
    (settles : Settles (Panel.Follows desk.store) call.task desk after) (unput : after.put? call = none)
    (asks : ∀ current, after.tasks[call.task]? = some current →
      (∃ ending, current.stage = .ended ending) ∨ ∃ verb, call.errand = .submit verb) :
    Turned first verbs single start after calls := by
  have gone' : ∀ v ∈ after.registry.visits, v.ticket ≠ call.task := settles.registry ▸ gone
  have listed : Listed after calls := by
    refine h.listed.frame settles.toFrame fun current found visit ↦ ?_
    have past := settles.past current found
    cases stage : current.stage <;> rw [stage] at past visit <;> cases past <;> cases visit
  have others := h.attended.change h.listed settles.others (.of_eq (by rw [settles.registry]))
    fun _ _ _ _ _ serves ↦ serves.frame settles.toFrame
  have puts : after.puts calls = desk.puts calls := by
    refine settles.puts h.listed fun other mem own ↦ ?_
    obtain rfl := List.inj_on_of_nodup_map h.listed.distinct mem h.mem own
    rw [unput, put?_of_going h.going]
  refine ⟨⟨h.world.frame settles.toFrame, others.complete listed h.mem fun current found ↦ ?_, listed,
    h.stored.of_eq settles.store puts⟩, h.plain.renders settles.stations⟩
  have past := settles.past current found
  cases stage : current.stage with
  | asking purpose request outcome =>
    refine ⟨(asks current found).resolve_left ?_, gone'⟩
    rintro ⟨ending, ended⟩
    rw [stage] at ended
    cases ended
  | ended ending => exact gone'
  | _ => rw [stage] at past; cases past

/-- A call that is answered without an effect. -/
theorem Hand.finish (h : Hand first verbs single start desk calls call)
    (gone : ∀ v ∈ desk.registry.visits, v.ticket ≠ call.task) {ending : Ending}
    (unput : call.put? ending = none) :
    Turned first verbs single start (desk.finish call.task ending) calls := by
  obtain ⟨current, _, found, -⟩ := h.exists_task
  obtain ⟨known, -⟩ := List.getElem?_eq_some_iff.mp found
  refine h.settles gone ((desk.settles_finish call.task ending).mono fun _ _ ↦ .still) ?_ ?_
  · rw [desk.put?_finish known, unput]
  · exact fun current found ↦ .inl ⟨ending, desk.stage_finish found⟩

/-- A call whose visit has failed. -/
theorem Hand.visited_error (h : Hand first verbs single start desk calls call)
    (gone : ∀ v ∈ desk.registry.visits, v.ticket ≠ call.task) (fault : Fault) :
    Turned first verbs single start (desk.visited call.task (.error fault)) calls := by
  obtain ⟨name, goal⟩ := h.goalOf
  unfold visited
  rw [goal]
  dsimp only
  split
  · exact h.finish gone (call.put?_error fault)
  · refine h.finish gone ?_
    rw [Call.put?_replyOf]
    cases call.errand <;> rfl

/-! ### Errands -/

/-- The desk after an errand has been performed on a console. -/
def performed (desk : Desk) (id : ConsoleId) (step : Host.Step) : Desk :=
  { desk.modifyConsole id fun _ ↦ step.console with store := step.store }

variable {console : Console} {errand : Host.Errand} {step : Host.Step}

theorem performed_stations (found : desk.console? id = some console)
    (evolves : console.Evolves Panel.Kept step.console) :
    List.Forall₂ (Station.Evolves Panel.Kept) desk.stations (desk.performed id step).stations := by
  refine forall₂_modify desk.stations id fun station there ↦ ?_
  rw [console?, there] at found
  obtain rfl := Option.some.inj found
  exact evolves

theorem console?_performed_of_ne {other : ConsoleId} (ne : other ≠ id) (desk : Desk) (step : Host.Step) :
    (desk.performed id step).console? other = desk.console? other := by
  simp [performed, modifyConsole, console?, ne.symm]

theorem console?_performed_self (found : desk.console? id = some console) (step : Host.Step) :
    (desk.performed id step).console? id = some step.console :=
  console?_modifyConsole_self found fun _ ↦ step.console

/-- A console for another path serves as before. -/
theorem Serves.performed {put : Option (String × Json)} {path : String} (world : World verbs single desk)
    (plain : Console.PlainVerbs verbs single) (found : desk.console? id = some console)
    (answered : Host.Answered verbs single console.path desk.store step.store put) {other : ConsoleId}
    (serves : desk.Serves other path) (ne : path ≠ console.path) :
    (desk.performed id step).Serves other path := by
  obtain ⟨there, here, rfl, current⟩ := serves
  have apart : other ≠ id := by
    rintro rfl
    rw [found] at here
    exact ne (congrArg Console.path (Option.some.inj here)).symm
  refine ⟨there, (console?_performed_of_ne apart desk step).trans here, rfl, fun panel mem ↦ ?_⟩
  have shaped := world.shaped other there here
  refine (current panel mem).of_load ((answered.loads panel.key).trans ?_)
  cases put with
  | none => rfl
  | some entry =>
    -- The value stands under another key, as the path is another one.
    refine if_neg fun same ↦ ne ?_
    rw [shaped.key mem] at same
    exact (Console.keyOf_inj plain (shaped.verb_mem mem) (answered.verb entry.1 entry.2 rfl) same.2).2

/-- The world after an errand has been performed on the console of its path. -/
theorem World.performed (h : World verbs single desk) (plain : Console.PlainVerbs verbs single)
    (found : desk.console? id = some console) (done : Host.Done verbs single console desk.store errand step)
    {served : Host.Served} (answer : step.performed = .answered served) (formed : errand.WellFormed)
    (only : ∀ entry ∈ desk.registry.cached, entry.1 = console.path → entry.2 = id) :
    World verbs single (desk.performed id step) := by
  have answered := done.performed
  rw [answer] at answered
  refine ⟨h.factoryVerbs, h.factorySingle, done.available, fun key ↦ ?_, fun other after there ↦ ?_, h.calm,
    fun entry mem ↦ ?_⟩
  · have loads := answered.loads key
    cases put : errand.put? served with
    | none =>
      rw [put] at loads
      exact loads ▸ h.storable key
    | some entry =>
      rw [put, Host.loadAfter] at loads
      have either : (step.store.load key).Storable := by
        rw [loads]
        split
        · exact formed.storable put
        · exact h.storable key
      exact either
  · obtain ⟨before, old, evolves⟩ := exists_console_before (performed_stations found done.evolves) there
    exact (h.shaped other before old).evolves (evolves.mono fun _ _ kept ↦ kept.toAlike)
  · by_cases here : entry.1 = console.path
    · rw [only entry mem here, here]
      exact ⟨step.console, console?_performed_self found step, done.evolves.path, done.panels⟩
    · exact (h.cached entry mem).performed h plain found answered here

/-- The calls that came after one that is on its way have put nothing on panels for its path. -/
theorem Listed.path_ne_of_later {earlier later : List Call} (h : Listed desk (earlier ++ call :: later))
    (going : desk.onItsWay call = true) : ∀ put ∈ later.filterMap desk.put?, put.path ≠ call.path := by
  intro put mem
  obtain ⟨other, there, found⟩ := List.mem_filterMap.mp mem
  obtain ⟨ending, -, found⟩ := Option.bind_eq_some_iff.mp found
  have order := (List.pairwise_append.mp h.order).2.1
  rw [Call.path_of_put? found]
  exact (List.pairwise_cons.mp order).1 other there going

/-- The store is faithful after a call has been answered. -/
theorem Stored.answered (h : Stored first verbs single desk calls) (plain : Console.PlainVerbs verbs single)
    (listed : Listed desk calls) (mem : call ∈ calls) (going : desk.onItsWay call = true)
    (put : Option (String × Json))
    (answered : Host.Answered verbs single call.path desk.store after.store put)
    (others : ∀ other ∈ calls, other.task ≠ call.task → after.put? other = desk.put? other)
    (own : after.put? call = put.map fun put ↦ ⟨call.path, put.1, put.2⟩) :
    Stored first verbs single after calls := by
  obtain ⟨earlier, later, rfl⟩ := List.append_of_mem mem
  have tasks := listed.distinct
  rw [List.map_append, List.map_cons, List.nodup_append] at tasks
  obtain ⟨-, rest, apart⟩ := tasks
  have before : earlier.filterMap after.put? = earlier.filterMap desk.put? :=
    List.filterMap_congr fun other there ↦ others other (List.mem_append_left _ there)
      (apart _ (List.mem_map_of_mem there) _ List.mem_cons_self)
  have behind : later.filterMap after.put? = later.filterMap desk.put? :=
    List.filterMap_congr fun other there ↦ others other
      (List.mem_append_right _ (List.mem_cons_of_mem call there))
      fun same ↦ (List.nodup_cons.mp rest).1 (same ▸ List.mem_map_of_mem there)
  have puts : desk.puts (earlier ++ call :: later) =
      earlier.filterMap desk.put? ++ later.filterMap desk.put? := by
    rw [Desk.puts, List.filterMap_append, List.filterMap_cons, put?_of_going going]
  intro path verb named
  rw [answered.loads, Desk.puts, List.filterMap_append, List.filterMap_cons, own, before, behind]
  have stored := h path verb named
  rw [puts] at stored
  cases put with
  | none => exact stored
  | some entry =>
    have same : (entry.2.isEmpty = false ∧
        Console.keyOf single verb path = Console.keyOf single entry.1 call.path) ↔
        call.path = path ∧ entry.1 = verb ∧ entry.2.isEmpty = false := by
      constructor
      · rintro ⟨content, key⟩
        obtain ⟨rfl, rfl⟩ := Console.keyOf_inj plain named (answered.verb entry.1 entry.2 rfl) key
        exact ⟨rfl, rfl, content⟩
      · rintro ⟨rfl, rfl, content⟩
        exact ⟨content, rfl⟩
    have last := lastPut?_append_cons (earlier.filterMap desk.put?) ⟨call.path, entry.1, entry.2⟩
      (listed.path_ne_of_later going) path verb
    rw [Option.map_some]
    dsimp only
    rw [last, Host.loadAfter]
    split
    · next here => rw [if_pos (same.mp here)]; rfl
    · next other => rw [if_neg fun here ↦ other (same.mpr here)]; exact stored

/-- A call that is answered after its errand has been performed. -/
theorem Hand.answered (h : Hand first verbs single start desk calls call)
    (plain : Console.PlainVerbs verbs single) (gone : ∀ v ∈ desk.registry.visits, v.ticket ≠ call.task)
    (found : desk.console? id = some console) (path : console.path = call.path)
    (only : ∀ entry ∈ desk.registry.cached, entry.1 = call.path → entry.2 = id)
    (done : Host.Done verbs single console desk.store call.errand step) {served : Host.Served}
    (answer : step.performed = .answered served) (name : Option String) :
    Turned first verbs single start ((desk.performed id step).finish call.task (replyOf name served))
      calls := by
  obtain ⟨_, _, there, -⟩ := h.exists_task
  obtain ⟨known, -⟩ := List.getElem?_eq_some_iff.mp there
  have answered := done.performed
  rw [answer] at answered
  have stations := performed_stations found done.evolves
  have ended := settles_finish (r := Panel.Still) (desk.performed id step) call.task (replyOf name served)
  have follows : Frame (Panel.Follows (desk.performed id step).store) call.task (desk.performed id step)
      ((desk.performed id step).finish call.task (replyOf name served)) :=
    ended.toFrame.mono fun _ _ ↦ .still
  have stage {current : Task}
      (there : ((desk.performed id step).finish call.task (replyOf name served)).tasks[call.task]? =
        some current) : current.stage = .ended (replyOf name served) :=
    stage_finish _ there
  have others := h.attended.change h.listed ended.others (.of_eq (by rw [ended.registry]; rfl))
    fun other mem ne going _ serves ↦ (serves.performed h.world plain found answered
      (path ▸ h.listed.apart h.mem mem ne h.going going)).frame follows
  have listed : Listed ((desk.performed id step).finish call.task (replyOf name served)) calls := by
    have same : Listed (desk.performed id step) calls := h.listed.of_tasks rfl
    refine same.frame ended.toFrame fun current there visit ↦ ?_
    rw [stage there] at visit
    cases visit
  refine ⟨⟨?_, others.complete listed h.mem fun current there ↦ ?_, listed, ?_⟩, ?_⟩
  · exact (h.world.performed plain found done answer (h.listed.formed call h.mem) (path ▸ only)).frame follows
  · have gone' : ∀ v ∈ ((desk.performed id step).finish call.task (replyOf name served)).registry.visits,
        v.ticket ≠ call.task := by
      rw [ended.registry]
      exact gone
    rw [stage there]
    exact gone'
  · refine h.stored.answered plain h.listed h.mem h.going (call.errand.put? served) ?_ ?_ ?_
    · rw [ended.store, ← path]
      exact answered
    · intro other mem ne
      obtain ⟨current, _, there, -⟩ := h.listed.goals other mem
      exact put?_congr (by rw [there, ended.others _ current ne there])
    · exact (put?_finish (desk.performed id step) known _).trans (call.put?_replyOf name served)
  · exact h.plain.renders_of_kept (forall₂_trans stations
      (ended.stations.imp fun _ _ ↦ .mono fun _ _ ↦ Panel.Still.toKept))

/-- A call that has got to the console of its path. -/
theorem Hand.visited_ok (h : Hand first verbs single start desk calls call)
    (plain : Console.PlainVerbs verbs single) (gone : ∀ v ∈ desk.registry.visits, v.ticket ≠ call.task)
    (serves : desk.Serves id call.path)
    (only : ∀ entry ∈ desk.registry.cached, entry.1 = call.path → entry.2 = id) :
    Turned first verbs single start (desk.visited call.task (.ok id)) calls := by
  obtain ⟨name, goal⟩ := h.goalOf
  obtain ⟨console, found, path, current⟩ := serves
  have done := Host.Current.perform
    ⟨h.world.shaped id console found, h.world.available, h.world.storable, current⟩ plain
    (h.listed.formed call h.mem)
  unfold visited
  rw [goal]
  dsimp only
  rw [found]
  dsimp only
  split
  · next served answer => exact h.answered plain gone found path only done answer name
  · next index answer =>
    have submitted := done.performed
    rw [answer] at submitted
    obtain ⟨⟨verb, submits⟩, sameConsole, sameStore⟩ := submitted
    have same : Frame (Panel.Follows desk.store) call.task desk
        (desk.performed id (Host.perform console desk.store call.errand)) := by
      refine .of_eq sameStore rfl rfl rfl ?_ rfl
      refine forall₂_modify desk.stations id fun station there ↦ ?_
      rw [console?, there] at found
      rw [sameConsole, ← Option.some.inj found]
      exact refl_of (Station.Evolves (Panel.Follows desk.store)) station
    have sent := settles_submit (desk.performed id (Host.perform console desk.store call.errand)) call.task id
      index
    rw [same.store] at sent
    refine h.settles gone (same.settles sent) ?_ fun _ _ ↦ .inr ⟨verb, submits⟩
    rw [put?]
    cases ending? _ call.task with
    | none => rfl
    | some ending => exact call.put?_submit submits ending

end VerbForms.Desk
