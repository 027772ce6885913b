import VerbForms.Proofs.Desk.Turn

/-!
# Visits

The way of a call to its console: it finds one in the cache, or it builds one, which may take many turns.
Each part of the way leaves the desk in order, whether it ends the turn or not.
-/

namespace VerbForms.Desk

variable {first : Store} {verbs : List String} {single : Bool} {start desk after : Desk}
  {calls : List Call} {call : Call} {id : ConsoleId} {v : Registry.Visit}

/-- A turn after which the call is still on its way. -/
theorem Hand.waits (h : Hand first verbs single start desk calls call)
    (frame : Frame Panel.Still call.task desk after) (going : after.onItsWay call = true)
    (placed : ∀ current, after.tasks[call.task]? = some current → after.Placed call current.stage) :
    Turned first verbs single start after calls := by
  have follows : Frame (Panel.Follows desk.store) call.task desk after := frame.mono fun _ _ ↦ .still
  have listed : Listed after calls := by
    refine h.listed.frame frame fun _ _ _ ↦ ?_
    obtain ⟨old, _, there, -, visit⟩ := h.exists_task
    exact ⟨old, there, visit⟩
  have others := h.attended.change h.listed frame.others (.of_eq (by rw [frame.registry]))
    fun _ _ _ _ _ serves ↦ serves.frame follows
  have puts : after.puts calls = desk.puts calls := by
    refine frame.puts h.listed fun other mem own ↦ ?_
    obtain rfl := List.inj_on_of_nodup_map h.listed.distinct mem h.mem own
    rw [put?_of_going going, put?_of_going h.going]
  exact ⟨⟨h.world.frame follows, others.complete listed h.mem placed, listed,
    h.stored.of_eq frame.store puts⟩, h.plain.renders follows.stations⟩

/-- A turn that only changes the stage of the task on its way. -/
theorem Hand.setStage (h : Hand first verbs single start desk calls call) {stage : Stage}
    (visit : stage.isVisit = true) (placed : desk.Placed call stage)
    (frame : Frame Panel.Still call.task desk after)
    (tasks : after.tasks = (desk.setStage call.task stage).tasks) :
    Turned first verbs single start after calls := by
  have found {current : Task} (there : after.tasks[call.task]? = some current) : current.stage = stage := by
    rw [tasks, Desk.setStage, tasks_modifyTask_self] at there
    obtain ⟨old, -, rfl⟩ := Option.map_eq_some_iff.mp there
    rfl
  refine h.waits frame ?_ fun current there ↦ ?_
  · obtain ⟨old, _, there, -⟩ := h.exists_task
    rw [onItsWay, tasks, Desk.setStage, tasks_modifyTask_self, there]
    exact visit
  · rw [found there]
    refine placed.change (fun v _ ↦ by rw [frame.registry]) fun _ _ serves ↦ ?_
    exact serves.frame (frame.mono fun _ _ ↦ .still)

/-! ### Failures -/

theorem closeConsole_frame (desk : Desk) (task : TaskId) (id : ConsoleId) :
    Frame Panel.Still task desk (desk.closeConsole id) :=
  desk.frame_modifyConsole task id fun console _ ↦ console.still_close

/-- A build that fails. -/
theorem Hand.failBuild (h : Hand first verbs single start desk calls call) (hv : v ∈ desk.registry.visits)
    (own : v.ticket = call.task) (fault : Fault) :
    Turned first verbs single start (desk.failBuild call.task fault) calls := by
  obtain ⟨calm, cached, others, u, hu, same⟩ := h.world.calm.fail hv
  rw [own] at calm cached others hu same
  have failed := h.with_registry calm (cached ▸ h.world.cached) others
  unfold Desk.failBuild
  generalize desk.registry.fail call.task = result at *
  obtain ⟨registry, made⟩ := result
  dsimp only at *
  -- What was made is closed, if anything was.
  have closed : ∀ after : Desk, Hand first verbs single start after calls call → after.registry = registry →
      Turned first verbs single start
        (({ after with registry := (after.registry.giveUp call.task).1 }.pushWoken
          (after.registry.giveUp call.task).2).visited call.task (.error fault)) calls := by
    rintro after hand rfl
    obtain ⟨s, gaveUp, calm', cached', left⟩ := hand.world.calm.giveUp hu
    rw [same] at gaveUp left
    rw [gaveUp]
    exact (hand.with_registry calm' (cached' ▸ hand.world.cached) left.others).visited_error left.gone fault
  cases made with
  | none => exact closed _ failed rfl
  | some id => exact closed _ (failed.evolve (closeConsole_frame _ _ id) rfl) rfl

/-! ### Builds -/

/-- An operation has closed the consoles that it had to close. -/
theorem closeStale_with (desk : Desk) {ticket : Ticket} {stale : List ConsoleId}
    (closes : desk.registry.Closes ticket stale) :
    ∃ registry stations, desk.closeStale ticket stale = { desk with registry, stations } ∧ registry.Calm ∧
      registry.cached = desk.registry.cached ∧ registry.visits = desk.registry.visits ∧
      List.Forall₂ (Station.Evolves Panel.Still) desk.stations stations := by
  induction stale generalizing desk with
  | nil =>
    exact ⟨desk.registry, desk.stations, rfl, closes.calm, rfl, rfl, List.forall₂_refl desk.stations⟩
  | cons id stale ih =>
    have closed := (closeConsole_frame desk 0 id).stations
    obtain ⟨registry, stations, same, calm, cached, visits, evolve⟩ :=
      ih { desk.closeConsole id with registry := desk.registry.closed ticket } closes.closed
    exact ⟨registry, stations, same, calm, cached, visits, forall₂_trans closed evolve⟩

/-- A build that succeeds. -/
theorem Hand.keepBuilt (h : Hand first verbs single start desk calls call)
    (plain : Console.PlainVerbs verbs single) (hv : v ∈ desk.registry.visits) (own : v.ticket = call.task)
    (path : v.path = call.path) (serves : desk.Serves id call.path) :
    Turned first verbs single start (desk.keepBuilt call.task id) calls := by
  obtain ⟨s, stale, kept, closes, cached, left⟩ := h.world.calm.keep hv id
  rw [own] at kept closes left
  rw [path] at cached
  obtain ⟨registry, stations, closed, calm, cached', visits, evolve⟩ :=
    closeStale_with { desk with registry := s } closes
  have evolved : Frame Panel.Still call.task desk { desk with stations } := .of_eq rfl rfl rfl rfl evolve rfl
  have follows := evolved.mono (s := Panel.Follows desk.store) fun _ _ ↦ .still
  have hand := (h.evolve evolved rfl).with_registry calm (fun entry mem ↦ ?_)
    (left.others.trans (.of_eq visits))
  · unfold Desk.keepBuilt
    rw [kept]
    dsimp only [pushWoken]
    rw [closed]
    refine hand.visited_ok plain ?_ (serves.evolves rfl follows.stations) fun entry mem there ↦ ?_
    · exact visits.symm ▸ left.gone
    · rcases cached entry (cached' ▸ mem) with rfl | ⟨-, elsewhere⟩
      · rfl
      · exact absurd there elsewhere
  · rcases cached entry (cached' ▸ mem) with rfl | ⟨old, -⟩
    · exact serves.frame follows
    · exact (h.world.cached entry old).frame follows

/-- The start of a console that is built has ended. -/
theorem Hand.started (h : Hand first verbs single start desk calls call)
    (plain : Console.PlainVerbs verbs single) (hv : v ∈ desk.registry.visits) (own : v.ticket = call.task)
    (path : v.path = call.path) (serves : desk.Serves id call.path) (result : Except Fault Unit) :
    Turned first verbs single start (desk.started call.task id true result) calls := by
  cases result with
  | ok _ =>
    have selected : Frame Panel.Still call.task desk (desk.modifyConsole id Console.selectFirst) :=
      desk.frame_modifyConsole call.task id fun console _ ↦ console.still_selectFirst
    exact (h.evolve selected rfl).keepBuilt plain hv own path
      (serves.frame (selected.mono fun _ _ ↦ .still))
  | error fault => exact h.failBuild hv own fault

/-! ### New consoles -/

theorem build_eq_ok {baseUrl path : String} {console : Console}
    (built : Console.build baseUrl path verbs single = .ok console) :
    ∃ gateway, Console.make path verbs single gateway = .ok console := by
  rw [Console.build] at built
  split at built
  · next gateway _ => exact ⟨gateway, built⟩
  · cases built

theorem console?_addConsole_of_lt {console : Console} {own : Option Remote.Script}
    (known : id < desk.stations.length) : (desk.addConsole console own).1.console? id = desk.console? id := by
  rw [addConsole, console?, console?, List.getElem?_append_left known]

theorem console?_addConsole_self (desk : Desk) (console : Console) (own : Option Remote.Script) :
    (desk.addConsole console own).1.console? desk.stations.length = some console := by
  simp [addConsole, console?]

/-- What there is after a console has been added was there before, or it is the new console. -/
theorem console?_addConsole {console found : Console} {own : Option Remote.Script}
    (there : (desk.addConsole console own).1.console? id = some found) :
    desk.console? id = some found ∨ id = desk.stations.length ∧ found = console := by
  by_cases known : id < desk.stations.length
  · exact .inl (console?_addConsole_of_lt known ▸ there)
  · right
    obtain ⟨station, here, rfl⟩ := console?_eq_some_iff.mp there
    have bound : id < desk.stations.length + 1 := by
      obtain ⟨bound, -⟩ := List.getElem?_eq_some_iff.mp here
      simpa [addConsole] using bound
    obtain rfl : id = desk.stations.length :=
      Nat.le_antisymm (Nat.lt_succ_iff.mp bound) (Nat.not_lt.mp known)
    have same := (console?_addConsole_self desk console own).symm.trans there
    exact ⟨rfl, (Option.some.inj same).symm⟩

theorem Serves.addConsole {path : String} (h : desk.Serves id path) (console : Console)
    (own : Option Remote.Script) : (desk.addConsole console own).1.Serves id path := by
  obtain ⟨there, found, rest⟩ := h
  obtain ⟨station, here, -⟩ := console?_eq_some_iff.mp found
  obtain ⟨known, -⟩ := List.getElem?_eq_some_iff.mp here
  exact ⟨there, (console?_addConsole_of_lt known).trans found, rest⟩

/-- A fresh console comes to the desk. -/
theorem Hand.addConsole (h : Hand first verbs single start desk calls call) {console : Console}
    (shaped : console.Shaped verbs single) (fresh : ∀ panel ∈ console.panels, panel.isRendered = false)
    (own : Option Remote.Script) :
    Hand first verbs single start (desk.addConsole console own).1 calls call where
  world := by
    refine ⟨h.world.factoryVerbs, h.world.factorySingle, h.world.available, h.world.storable, ?_,
      h.world.calm, fun entry mem ↦ (h.world.cached entry mem).addConsole console own⟩
    intro id found there
    rcases console?_addConsole there with old | ⟨-, rfl⟩
    · exact h.world.shaped id found old
    · exact shaped
  attended := h.attended.change h.listed (fun _ _ _ found ↦ found) (.of_eq rfl)
    fun _ _ _ _ _ serves ↦ serves.addConsole console own
  listed := h.listed.of_tasks rfl
  stored := h.stored
  plain := by
    refine ⟨h.plain.store, fun id index panel found shown ↦ ?_⟩
    obtain ⟨there, at_, here⟩ := Option.bind_eq_some_iff.mp found
    rcases console?_addConsole at_ with old | ⟨-, rfl⟩
    · exact h.plain.rendered id index panel (Option.bind_eq_some_iff.mpr ⟨there, old, here⟩) shown
    · rw [fresh panel (List.mem_of_getElem? here)] at shown
      cases shown
  mem := h.mem
  going := h.going

/-- The factory makes a console, which is then started, or it fails. -/
theorem Hand.produce (h : Hand first verbs single start desk calls call) {lock : Registry.LockId}
    (hv : ⟨call.task, call.path, lock, .building none⟩ ∈ desk.registry.visits) (plan : Plan) :
    Turned first verbs single start (desk.produce call.task call.path plan) calls := by
  unfold Desk.produce
  split
  · exact h.failBuild hv rfl _
  · split
    · exact h.failBuild hv rfl _
    · next console built =>
      rw [h.world.factoryVerbs, h.world.factorySingle] at built
      obtain ⟨gateway, made⟩ := build_eq_ok built
      obtain ⟨shaped, path, fresh⟩ := Console.shaped_make made
      have added := h.addConsole shaped (fun panel mem ↦ (fresh panel mem).2) plan.script
      have serves : (desk.addConsole console plan.script).1.Serves desk.stations.length call.path := by
        refine ⟨console, console?_addConsole_self desk console plan.script, path,
          fun panel mem form shown ↦ ?_⟩
        rw [(fresh panel mem).1] at shown
        cases shown
      have hand := added.with_registry (h.world.calm.setStage hv rfl)
        added.world.cached (Registry.othersStay_setStage desk.registry call.task
          (.building (some desk.stations.length)))
      have mine := Registry.mem_setStage hv (.building (some desk.stations.length))
      obtain ⟨current, _, there, -⟩ := hand.exists_task
      obtain ⟨known, -⟩ := List.getElem?_eq_some_iff.mp there
      obtain ⟨frame, left, stage⟩ := frame_startConsole (r := Panel.Still)
        { (desk.addConsole console plan.script).1 with
          registry := desk.registry.made call.task desk.stations.length } known desk.stations.length true
      obtain ⟨later, found, same⟩ := Option.map_eq_some_iff.mp stage
      change Turned first verbs single start (Desk.startConsole
        { (desk.addConsole console plan.script).1 with
          registry := desk.registry.made call.task desk.stations.length }
        call.task desk.stations.length true) calls
      refine hand.waits frame ?_ fun current there ↦ ?_
      · rw [onItsWay_of_found found, same]
        rfl
      · rw [found] at there
        obtain rfl := Option.some.inj there
        rw [same]
        refine ⟨serves.evolves frame.store (frame.mono fun _ _ ↦ .still).stations, lock, ?_⟩
        rw [frame.registry]
        exact mine

/-- A call that has to build the console of its path. -/
theorem Hand.build (h : Hand first verbs single start desk calls call) {lock : Registry.LockId}
    (hv : ⟨call.task, call.path, lock, .building none⟩ ∈ desk.registry.visits) :
    Turned first verbs single start (desk.build call.task call.path) calls := by
  have counted : Frame Panel.Still call.task desk
      { desk with factory := desk.factory.count call.path } :=
    .of_eq rfl rfl rfl rfl (List.forall₂_refl desk.stations) rfl
  have hand := h.evolve counted rfl
  unfold Desk.build
  dsimp only
  split
  · exact hand.produce hv (desk.factory.next call.path)
  · have placed : Placed { desk with factory := desk.factory.count call.path } call
        (.producing call.path (desk.factory.next call.path)) := ⟨rfl, lock, hv⟩
    refine hand.setStage rfl placed ?_ rfl
    exact (frame_setStage _ call.task _).trans (.of_eq rfl rfl rfl rfl (List.forall₂_refl _) rfl)

/-! ### Arrivals -/

/-- No visit is to the path of a call that has not begun to visit it. -/
theorem Hand.alone (h : Hand first verbs single start desk calls call)
    (gone : ∀ v ∈ desk.registry.visits, v.ticket ≠ call.task) :
    ∀ v ∈ desk.registry.visits, v.path ≠ call.path := by
  intro v mem
  have ne := gone v mem
  obtain ⟨other, memOther, own⟩ := h.attended.visits v mem fun same ↦ ne (Option.some.inj same)
  obtain ⟨current, _, found, -⟩ := h.listed.goals other memOther
  have placed := h.attended.placed other memOther (fun same ↦ ne (own ▸ Option.some.inj same)) current found
  have unique {u : Registry.Visit} (hu : u ∈ desk.registry.visits) (same : u.ticket = other.task) : v = u :=
    List.inj_on_of_nodup_map h.world.calm.sound.tickets mem hu (own.symm.trans same.symm)
  have apart (visit : current.stage.isVisit = true) : other.path ≠ call.path :=
    h.listed.apart h.mem memOther (own ▸ ne) h.going ((onItsWay_of_found found).trans visit)
  cases stage : current.stage with
  | fresh job =>
    rw [stage] at placed
    cases job with
    | visit path => exact absurd own.symm (placed.2 v mem)
    | _ => exact placed.elim
  | producing path plan =>
    rw [stage] at placed
    obtain ⟨-, lock, there⟩ := placed
    rw [unique there rfl]
    exact apart (by rw [stage]; rfl)
  | starting id building left result =>
    rw [stage] at placed
    cases building with
    | true =>
      obtain ⟨-, lock, there⟩ := placed
      rw [unique there rfl]
      exact apart (by rw [stage]; rfl)
    | false => exact placed.elim
  | asking purpose request outcome =>
    rw [stage] at placed
    exact absurd own.symm (placed.2 v mem)
  | queued => rw [stage] at placed; exact placed.elim
  | ended ending =>
    rw [stage] at placed
    exact absurd own.symm (placed v mem)

/-- A call arrives at its path. -/
theorem Hand.arrive (h : Hand first verbs single start desk calls call)
    (plain : Console.PlainVerbs verbs single) (gone : ∀ v ∈ desk.registry.visits, v.ticket ≠ call.task) :
    Turned first verbs single start (desk.arrive call.task call.path) calls := by
  unfold Desk.arrive
  cases found : desk.registry.find? call.path with
  | some id =>
    rw [Registry.arrive_of_found found]
    have entry : (call.path, id) ∈ desk.registry.cached := Assoc.mem_of_get?_eq_some found
    refine (h.with_registry (h.world.calm.touch call.path id) (fun entry mem ↦ ?_) (.of_eq rfl)).visited_ok
      plain gone (h.world.cached _ entry) fun other mem same ↦ ?_
    · exact h.world.cached entry (Registry.mem_cached_touch found mem)
    · have old := Registry.mem_cached_touch found mem
      have there := Assoc.get?_eq_some_of_mem h.world.calm.sound.cachedKeys
        (show (call.path, other.2) ∈ desk.registry.cached from same ▸ old)
      exact Option.some.inj (there.symm.trans found)
  | none =>
    obtain ⟨lock, s, arrived, calm, cached, visits⟩ :=
      h.world.calm.arrive_of_alone found (h.alone gone) gone
    rw [arrived]
    have mine : ⟨call.task, call.path, lock, .building none⟩ ∈ s.visits :=
      visits ▸ List.mem_append_right _ (List.mem_singleton.mpr rfl)
    refine (h.with_registry calm (cached ▸ h.world.cached) fun v other ↦ ?_).build mine
    rw [visits, List.mem_append, List.mem_singleton]
    exact or_iff_left fun same ↦ other (same ▸ rfl)

end VerbForms.Desk
