import VerbForms.Proofs.Desk.Calls
import VerbForms.Proofs.Registry.Calm
import Mathlib.Data.List.Pairwise

/-!
# A desk in order

What holds of a desk between the turns of its tasks: its consoles have their shape, those in the cache are
current (`World`), and each call has come as far as its task and the registry say (`Attended`). Each
function that is part of a turn is described by what it keeps of this.
-/

namespace VerbForms

/-- A panel that is current stays so when a form is attached with the value from the store. -/
theorem Panel.IsCurrent.follows {store : Store} {panel after : Panel} (h : panel.IsCurrent store)
    (follows : Panel.Follows store panel after) : after.IsCurrent store := by
  intro form shown
  cases follows with
  | still still =>
    rw [still.key]
    exact h form (still.form ▸ shown)
  | attached alike shows =>
    obtain ⟨schema, metadata, attached, -⟩ := shows
    rw [attached] at shown
    obtain rfl := Option.some.inj shown
    exact ⟨rfl, .inr (by rw [alike.key]; rfl)⟩

namespace Desk

variable {verbs : List String} {single : Bool} {r : Panel → Panel → Prop} {task : TaskId}
  {desk after : Desk} {id : ConsoleId} {path : String} {calls : List Call} {call : Call} {stage : Stage}

/-! ### Consoles -/

theorem console?_eq_some_iff {console : Console} :
    desk.console? id = some console ↔ ∃ station, desk.stations[id]? = some station ∧
      station.console = console := by
  rw [console?, Option.map_eq_some_iff]

theorem console?_modifyConsole_self {console : Console} (found : desk.console? id = some console)
    (f : Console → Console) :
    (desk.modifyConsole id f).console? id = some (f console) := by
  obtain ⟨station, there, rfl⟩ := console?_eq_some_iff.mp found
  simp [console?, modifyConsole, there]

/-- The consoles in order of making. -/
def consoles (desk : Desk) : List Console := desk.stations.map Station.console

theorem console?_eq (desk : Desk) (id : ConsoleId) : desk.console? id = desk.consoles[id]? :=
  List.getElem?_map.symm

theorem consoles_answerFor (desk : Desk) (id : ConsoleId) (request : Remote.Request) :
    (desk.answerFor id request).1.consoles = desk.consoles := by
  rw [answerFor]
  split
  · refine List.ext_getElem? fun other ↦ ?_
    rw [← console?_eq, ← console?_eq, console?, List.getElem?_modify, Option.map_eq_map, Option.map_map]
    refine congrArg (Option.map · _) (funext fun station ↦ ?_)
    rw [Function.comp_apply]
    split <;> rfl
  · rfl

theorem consoles_modifyConsole (desk : Desk) (id : ConsoleId) (f : Console → Console) :
    (desk.modifyConsole id f).consoles = desk.consoles.modify id f := by
  refine List.ext_getElem? fun other ↦ ?_
  rw [← console?_eq, console?, modifyConsole, consoles, List.getElem?_modify, List.getElem?_modify,
    List.getElem?_map, Option.map_eq_map, Option.map_eq_map, Option.map_map, Option.map_map]
  refine congrArg (Option.map · _) (funext fun station ↦ ?_)
  rw [Function.comp_apply, Function.comp_apply]
  split <;> rfl

/-- What a console has come from. -/
theorem exists_console_before (stations : List.Forall₂ (Station.Evolves r) desk.stations after.stations)
    {console : Console} (found : after.console? id = some console) :
    ∃ before, desk.console? id = some before ∧ before.Evolves r console := by
  obtain ⟨station, there, rfl⟩ := console?_eq_some_iff.mp found
  obtain ⟨old, here, evolves⟩ := forall₂_getElem? stations there
  exact ⟨old.console, console?_eq_some_iff.mpr ⟨old, here, rfl⟩, evolves⟩

/-- What a console has come to. -/
theorem exists_console_after (stations : List.Forall₂ (Station.Evolves r) desk.stations after.stations)
    {console : Console} (found : desk.console? id = some console) :
    ∃ later, after.console? id = some later ∧ console.Evolves r later := by
  obtain ⟨station, there, rfl⟩ := console?_eq_some_iff.mp found
  obtain ⟨new, here, evolves⟩ := forall₂_getElem?_left stations there
  exact ⟨new.console, console?_eq_some_iff.mpr ⟨new, here, rfl⟩, evolves⟩

/-- A console for a path whose forms are current. -/
def Serves (desk : Desk) (id : ConsoleId) (path : String) : Prop :=
  ∃ console, desk.console? id = some console ∧ console.path = path ∧
    ∀ panel ∈ console.panels, panel.IsCurrent desk.store

/-- A desk between the turns of its tasks. -/
structure World (verbs : List String) (single : Bool) (desk : Desk) : Prop where
  factoryVerbs : desk.factory.verbs = verbs
  factorySingle : desk.factory.single = single
  available : desk.store ≠ .database none
  storable : ∀ key, (desk.store.load key).Storable
  shaped : ∀ id console, desk.console? id = some console → console.Shaped verbs single
  calm : desk.registry.Calm
  cached : ∀ entry ∈ desk.registry.cached, desk.Serves entry.2 entry.1

/-- Consoles that evolve without a change of the store serve as before. -/
theorem Serves.evolves (h : desk.Serves id path) (store : after.store = desk.store)
    (stations : List.Forall₂ (Station.Evolves (Panel.Follows desk.store)) desk.stations after.stations) :
    after.Serves id path := by
  obtain ⟨console, found, rfl, current⟩ := h
  obtain ⟨later, there, evolves⟩ := exists_console_after stations found
  refine ⟨later, there, evolves.path, fun panel mem ↦ ?_⟩
  obtain ⟨index, here⟩ := List.getElem?_of_mem mem
  obtain ⟨old, before, follows⟩ := forall₂_getElem? evolves.panels here
  rw [store]
  exact (current old (List.mem_of_getElem? before)).follows follows

theorem Serves.frame (h : desk.Serves id path) (frame : Frame (Panel.Follows desk.store) task desk after) :
    after.Serves id path :=
  h.evolves frame.store frame.stations

theorem World.frame (h : World verbs single desk)
    (frame : Frame (Panel.Follows desk.store) task desk after) : World verbs single after where
  factoryVerbs := frame.verbs.trans h.factoryVerbs
  factorySingle := frame.single.trans h.factorySingle
  available := frame.store ▸ h.available
  storable := frame.store ▸ h.storable
  shaped id console found := by
    obtain ⟨before, there, evolves⟩ := exists_console_before frame.stations found
    exact (h.shaped id before there).evolves (evolves.mono fun _ _ follows ↦ follows.alike)
  calm := frame.registry ▸ h.calm
  cached entry mem := (h.cached entry (frame.registry ▸ mem)).frame frame

/-- Another registry that keeps no other consoles. -/
theorem World.with_registry (h : World verbs single desk) {registry : Registry} (calm : registry.Calm)
    (cached : ∀ entry ∈ registry.cached, desk.Serves entry.2 entry.1) :
    World verbs single { desk with registry } :=
  { h with calm, cached }

/-! ### Panels that get rendered -/

/-- No panel has been rendered, and the store is the same. -/
structure Plain (desk after : Desk) : Prop where
  store : after.store = desk.store
  rendered : ∀ id index panel, after.panel? id index = some panel → panel.isRendered = true →
    ∃ before, desk.panel? id index = some before ∧ before.isRendered = true

/-- Every panel that has been rendered has a fresh form with the value from the store. -/
def Renders (desk after : Desk) : Prop :=
  ∀ id index panel, after.panel? id index = some panel → panel.isRendered = true →
    (∃ before, desk.panel? id index = some before ∧ before.isRendered = true) ∨
      panel.Shows (desk.store.load panel.key)

theorem Plain.refl (desk : Desk) : Plain desk desk := ⟨rfl, fun _ _ panel found shown ↦ ⟨panel, found, shown⟩⟩

theorem exists_panel_before (stations : List.Forall₂ (Station.Evolves r) desk.stations after.stations)
    {index : Nat} {panel : Panel} (found : after.panel? id index = some panel) :
    ∃ before, desk.panel? id index = some before ∧ r before panel := by
  obtain ⟨console, there, here⟩ := Option.bind_eq_some_iff.mp found
  obtain ⟨before, old, evolves⟩ := exists_console_before stations there
  obtain ⟨panel', same, step⟩ := forall₂_getElem? evolves.panels here
  exact ⟨panel', Option.bind_eq_some_iff.mpr ⟨before, old, same⟩, step⟩

theorem Plain.kept {last : Desk} (h : Plain desk after) (store : last.store = after.store)
    (stations : List.Forall₂ (Station.Evolves Panel.Kept) after.stations last.stations) :
    Plain desk last := by
  refine ⟨store.trans h.store, fun id index panel found shown ↦ ?_⟩
  obtain ⟨before, there, kept⟩ := exists_panel_before stations found
  exact h.rendered id index before there (kept.isRendered shown)

theorem Plain.renders {last : Desk} (h : Plain desk after)
    (stations : List.Forall₂ (Station.Evolves (Panel.Follows after.store)) after.stations last.stations) :
    Renders desk last := by
  intro id index panel found shown
  obtain ⟨before, there, follows⟩ := exists_panel_before stations found
  cases follows with
  | still still => exact .inl (h.rendered id index before there (still.isRendered shown))
  | attached alike shows =>
    right
    rw [alike.key, ← h.store]
    exact shows

theorem Plain.renders_of_kept {last : Desk} (h : Plain desk after)
    (stations : List.Forall₂ (Station.Evolves Panel.Kept) after.stations last.stations) :
    Renders desk last := by
  intro id index panel found shown
  obtain ⟨before, there, kept⟩ := exists_panel_before stations found
  exact .inl (h.rendered id index before there (kept.isRendered shown))

/-! ### Calls -/

/-- How far a call has come, by the stage of its task. -/
def Placed (desk : Desk) (call : Call) : Stage → Prop
  | .fresh (.visit path) => path = call.path ∧ ∀ v ∈ desk.registry.visits, v.ticket ≠ call.task
  | .producing path _ =>
    path = call.path ∧ ∃ lock, ⟨call.task, call.path, lock, .building none⟩ ∈ desk.registry.visits
  | .starting id true _ _ =>
    desk.Serves id call.path ∧
      ∃ lock, ⟨call.task, call.path, lock, .building (some id)⟩ ∈ desk.registry.visits
  | .asking _ _ _ =>
    (∃ verb, call.errand = .submit verb) ∧ ∀ v ∈ desk.registry.visits, v.ticket ≠ call.task
  | .ended _ => ∀ v ∈ desk.registry.visits, v.ticket ≠ call.task
  | _ => False

/-- The calls and their tasks. -/
structure Listed (desk : Desk) (calls : List Call) : Prop where
  distinct : (calls.map Call.task).Nodup
  goals : ∀ call ∈ calls, ∃ task name, desk.tasks[call.task]? = some task ∧
    task.goal = .caller call.errand name
  inner : ∀ other current, desk.tasks[other]? = some current → (∀ call ∈ calls, call.task ≠ other) →
    current.isInner = true
  /-- No later call is on the resource of a call that is on its way. -/
  order : calls.Pairwise fun earlier later ↦ desk.onItsWay earlier = true → later.path ≠ earlier.path
  formed : ∀ call ∈ calls, call.errand.WellFormed

/-- Every call but the one in hand has come as far as its task says, and every visit but the one in hand is
that of a call. -/
structure Attended (desk : Desk) (calls : List Call) (hand : Option TaskId) : Prop where
  placed : ∀ call ∈ calls, some call.task ≠ hand → ∀ current, desk.tasks[call.task]? = some current →
    desk.Placed call current.stage
  visits : ∀ v ∈ desk.registry.visits, some v.ticket ≠ hand → ∃ call ∈ calls, call.task = v.ticket

theorem onItsWay_of_found {current : Task} (found : desk.tasks[call.task]? = some current) :
    desk.onItsWay call = current.stage.isVisit := by
  rw [onItsWay, found]
  rfl

/-- Two calls on their way are on different resources. -/
theorem Listed.apart (h : Listed desk calls) {other : Call} (mem : call ∈ calls) (memOther : other ∈ calls)
    (ne : other.task ≠ call.task) (going : desk.onItsWay call = true)
    (goingOther : desk.onItsWay other = true) : other.path ≠ call.path := by
  have symm : Std.Symm fun a b : Call ↦
      desk.onItsWay a = true → desk.onItsWay b = true → b.path ≠ a.path :=
    ⟨fun _ _ step first second ↦ (step second first).symm⟩
  have apart : calls.Pairwise fun a b ↦
      desk.onItsWay a = true → desk.onItsWay b = true → b.path ≠ a.path :=
    h.order.imp fun step going _ ↦ step going
  exact apart.forall mem memOther (fun same ↦ ne (same ▸ rfl)) going goingOther

/-- The calls and their tasks are the same where the tasks are. -/
theorem Listed.of_tasks (h : Listed desk calls) (same : after.tasks = desk.tasks) : Listed after calls where
  distinct := h.distinct
  goals := by
    rw [same]
    exact h.goals
  inner := by
    rw [same]
    exact h.inner
  order := by
    simp only [onItsWay, same]
    exact h.order
  formed := h.formed

/-- A turn that does not set the task on its way leaves the calls in order. -/
theorem Listed.frame (h : Listed desk calls) (frame : Frame r task desk after)
    (going : ∀ current, after.tasks[task]? = some current → current.stage.isVisit = true →
      ∃ old, desk.tasks[task]? = some old ∧ old.stage.isVisit = true) : Listed after calls where
  distinct := h.distinct
  goals call mem := by
    obtain ⟨current, name, found, goal⟩ := h.goals call mem
    by_cases own : call.task = task
    · have same := frame.own
      rw [← own, found, Option.map_some, goal] at same
      obtain ⟨later, there, goal'⟩ := Option.map_eq_some_iff.mp same
      exact ⟨later, name, there, goal'⟩
    · exact ⟨current, name, frame.others _ current own found, goal⟩
  inner other current found stranger := by
    by_cases own : other = task
    · subst own
      have same := frame.own
      rw [found, Option.map_some] at same
      obtain ⟨old, there, goal⟩ := Option.map_eq_some_iff.mp same.symm
      have inner := h.inner other old there stranger
      rw [Task.isInner, goal] at inner
      rw [Task.isInner]
      split
      · next caller =>
        rw [caller] at inner
        exact inner
      · next other' =>
        by_contra visit
        obtain ⟨old', there', visit'⟩ := going current found (by simpa using visit)
        rw [there] at there'
        obtain rfl := Option.some.inj there'
        rw [visit'] at inner
        split at inner <;> cases inner
    · cases before : desk.tasks[other]? with
      | none => exact frame.spawned other current own before found
      | some old =>
        have same := frame.others other old own before
        rw [found] at same
        exact Option.some.inj same ▸ h.inner other old before stranger
  order := by
    refine h.order.imp_of_mem fun {earlier later} mem _ step going' ↦ step ?_
    obtain ⟨current, name, found, -⟩ := h.goals earlier mem
    by_cases own : earlier.task = task
    · subst own
      rw [onItsWay, Option.map_eq_some_iff.mpr ⟨current, found, rfl⟩]
      cases there : after.tasks[earlier.task]? with
      | none =>
        rw [onItsWay, there] at going'
        cases going'
      | some later =>
        rw [onItsWay_of_found there] at going'
        obtain ⟨old, here, visit⟩ := going later there going'
        rw [found] at here
        exact Option.some.inj here ▸ visit
    · rw [onItsWay_of_found found]
      rwa [onItsWay_of_found (frame.others _ current own found)] at going'
  formed := h.formed

theorem Placed.change (h : desk.Placed call stage)
    (visits : ∀ v : Registry.Visit, v.ticket = call.task →
      (v ∈ after.registry.visits ↔ v ∈ desk.registry.visits))
    (serves : stage.isVisit = true → ∀ id, desk.Serves id call.path → after.Serves id call.path) :
    after.Placed call stage := by
  have gone (none : ∀ v ∈ desk.registry.visits, v.ticket ≠ call.task) :
      ∀ v ∈ after.registry.visits, v.ticket ≠ call.task :=
    fun v mem own ↦ none v ((visits v own).mp mem) own
  cases stage with
  | fresh job =>
    cases job with
    | visit path => exact ⟨h.1, gone h.2⟩
    | _ => exact h.elim
  | asking purpose request outcome => exact ⟨h.1, gone h.2⟩
  | producing path plan =>
    obtain ⟨same, lock, mem⟩ := h
    exact ⟨same, lock, (visits _ rfl).mpr mem⟩
  | queued => exact h.elim
  | starting id building left result =>
    cases building with
    | true =>
      obtain ⟨there, lock, mem⟩ := h
      exact ⟨serves rfl id there, lock, (visits _ rfl).mpr mem⟩
    | false => exact h.elim
  | ended ending => exact gone h

/-- A change by the task in hand leaves the other calls where they are. -/
theorem Attended.change (h : Attended desk calls (some task)) (listed : Listed desk calls)
    (tasks : ∀ other current, other ≠ task → desk.tasks[other]? = some current →
      after.tasks[other]? = some current)
    (visits : Registry.OthersStay task desk.registry after.registry)
    (serves : ∀ other ∈ calls, other.task ≠ task → desk.onItsWay other = true →
      ∀ id, desk.Serves id other.path → after.Serves id other.path) :
    Attended after calls (some task) where
  placed other mem apart current found := by
    have ne : other.task ≠ task := fun same ↦ apart (congrArg some same)
    obtain ⟨old, _, there, -⟩ := listed.goals other mem
    have same := tasks other.task old ne there
    rw [found] at same
    obtain rfl := Option.some.inj same
    refine (h.placed other mem apart current there).change (fun v own ↦ visits v (own ▸ ne)) ?_
    exact fun going ↦ serves other mem ne ((onItsWay_of_found there).trans going)
  visits v mem apart :=
    h.visits v ((visits v fun same ↦ apart (congrArg some same)).mp mem) apart

/-- The call in hand has come somewhere, too. -/
theorem Attended.complete (h : Attended desk calls (some call.task)) (listed : Listed desk calls)
    (mem : call ∈ calls)
    (placed : ∀ current, desk.tasks[call.task]? = some current → desk.Placed call current.stage) :
    Attended desk calls none where
  placed other memOther _ current found := by
    by_cases own : other.task = call.task
    · obtain rfl := List.inj_on_of_nodup_map listed.distinct memOther mem own
      exact placed current found
    · exact h.placed other memOther (fun same ↦ own (Option.some.inj same)) current found
  visits v memVisit _ := by
    by_cases own : v.ticket = call.task
    · exact ⟨call, mem, own.symm⟩
    · exact h.visits v memVisit fun same ↦ own (Option.some.inj same)

/-! ### Values -/

theorem put?_congr
    (same : (after.tasks[call.task]?).map Task.stage = (desk.tasks[call.task]?).map Task.stage) :
    after.put? call = desk.put? call := by
  rw [put?, put?, ending?, ending?, same]

/-- The values that the calls have put on panels are the same, but for those of the task in hand. -/
theorem Frame.puts (frame : Frame r task desk after) (listed : Listed desk calls)
    (own : ∀ call ∈ calls, call.task = task → after.put? call = desk.put? call) :
    after.puts calls = desk.puts calls := by
  refine List.filterMap_congr fun call mem ↦ ?_
  by_cases here : call.task = task
  · exact own call mem here
  · obtain ⟨current, _, found, -⟩ := listed.goals call mem
    exact put?_congr (by rw [found, frame.others _ current here found])

/-- The store has for every panel the last value with content that has been put on it, and what it had at
first if there was none. -/
def Stored (first : Store) (verbs : List String) (single : Bool) (desk : Desk) (calls : List Call) : Prop :=
  ∀ path, ∀ verb ∈ Console.verbsOf verbs single,
    desk.store.load (Console.keyOf single verb path) =
      (lastPut? (desk.puts calls) path verb).getD (first.load (Console.keyOf single verb path))

theorem Stored.of_eq {first : Store} (h : Stored first verbs single desk calls)
    (store : after.store = desk.store) {more : List Call} (puts : after.puts more = desk.puts calls) :
    Stored first verbs single after more := by
  rw [Stored, store, puts]
  exact h

/-- What holds of a desk between turns. -/
structure Faithful (first : Store) (verbs : List String) (single : Bool) (desk : Desk) (calls : List Call) :
    Prop where
  world : World verbs single desk
  attended : Attended desk calls none
  listed : Listed desk calls
  stored : Stored first verbs single desk calls

end Desk

end VerbForms
