import VerbForms.Proofs.Desk.Order

/-!
# Values survive resets and evictions

A run keeps a desk in order, and with it the store faithful: under the key of each panel stands the last
value with content that has been put on it. So a panel that gets rendered shows that value, whatever
became of the consoles on which it was put.
-/

namespace VerbForms

namespace Desk

variable {first : Store} {verbs : List String} {single : Bool} {desk after : Desk} {calls more : List Call}

/-- Nothing has happened yet. -/
theorem faithful_make {store : Store} (available : store ≠ .database none) (script : Remote.Script)
    {bound : Int} {registry : Registry} (made : Registry.make bound = .ok registry) (factory : Factory) :
    Faithful store factory.verbs factory.single (Desk.make store script registry factory) [] := by
  obtain ⟨calm, visits, cached⟩ := Registry.calm_make made
  have world : World factory.verbs factory.single (Desk.make store script registry factory) := by
    refine ⟨rfl, rfl, available, store.storable_load, fun id console found ↦ ?_, calm, fun entry mem ↦ ?_⟩
    · have noConsole : (Desk.make store script registry factory).console? id = none := rfl
      rw [noConsole] at found
      cases found
    · have there : entry ∈ registry.cached := mem
      rw [cached] at there
      cases there
  have attended : Attended (Desk.make store script registry factory) [] none := by
    refine ⟨List.forall_mem_nil _, fun v mem ↦ ?_⟩
    have there : v ∈ registry.visits := mem
    rw [visits] at there
    cases there
  have listed : Listed (Desk.make store script registry factory) [] := by
    refine ⟨List.nodup_nil, List.forall_mem_nil _, fun task current found ↦ ?_, List.Pairwise.nil,
      List.forall_mem_nil _⟩
    have noTask : (Desk.make store script registry factory).tasks[task]? = none := rfl
    rw [noTask] at found
    cases found
  exact ⟨world, attended, listed, fun _ _ _ ↦ rfl⟩

/-! ### Requests and resets -/

/-- The desk after a request for the console of a path. -/
def requested (desk : Desk) (errand : Host.Errand) (name : Option String) (path : String) : Desk :=
  (desk.spawn (.caller errand name) (.visit path)).1

section Requests

variable {call : Call} {task : TaskId} {errand : Host.Errand} {name : Option String} {path : String}

theorem tasks_requested_of_lt (known : task < desk.tasks.length) :
    (desk.requested errand name path).tasks[task]? = desk.tasks[task]? :=
  List.getElem?_append_left known

theorem tasks_requested_self : (desk.requested errand name path).tasks[desk.tasks.length]? =
    some ⟨.caller errand name, .fresh (.visit path), false⟩ :=
  List.getElem?_concat_length

theorem Listed.lt_length (h : Listed desk calls) (mem : call ∈ calls) : call.task < desk.tasks.length := by
  obtain ⟨_, _, found, -⟩ := h.goals call mem
  exact (List.getElem?_eq_some_iff.mp found).1

theorem Listed.onItsWay_requested (h : Listed desk calls) (mem : call ∈ calls) :
    (desk.requested errand name path).onItsWay call = desk.onItsWay call := by
  rw [onItsWay, onItsWay, tasks_requested_of_lt (h.lt_length mem)]

theorem Listed.requested (h : Listed desk calls) (formed : errand.WellFormed)
    (alone : ∀ call ∈ calls, call.path = path → desk.onItsWay call = false) :
    Listed (desk.requested errand name path) (calls ++ [⟨desk.tasks.length, path, errand⟩]) where
  distinct := by
    rw [List.map_append, List.nodup_append]
    refine ⟨h.distinct, List.nodup_singleton _, fun task there other here ↦ ?_⟩
    obtain ⟨call, mem, rfl⟩ := List.mem_map.mp there
    rw [List.mem_singleton.mp here]
    exact (h.lt_length mem).ne
  goals call mem := by
    rcases List.mem_append.mp mem with old | new
    · rw [tasks_requested_of_lt (h.lt_length old)]
      exact h.goals call old
    · obtain rfl := List.mem_singleton.mp new
      exact ⟨_, name, tasks_requested_self, rfl⟩
  inner other current found stranger := by
    have bound := (List.getElem?_eq_some_iff.mp found).1
    have ne := stranger _ (List.mem_append_right _ (List.mem_singleton.mpr rfl))
    have less : other < desk.tasks.length := by
      have total : other < desk.tasks.length + 1 := by simpa [Desk.requested, spawn, push] using bound
      exact Nat.lt_of_le_of_ne (Nat.lt_succ_iff.mp total) (Ne.symm ne)
    refine h.inner other current ?_ fun call mem ↦ stranger call (List.mem_append_left _ mem)
    exact (tasks_requested_of_lt less).symm.trans found
  order := by
    refine List.pairwise_append.mpr
      ⟨?_, List.pairwise_singleton _ _, fun call mem other here visit own ↦ ?_⟩
    · exact h.order.imp_of_mem fun mem _ step visit ↦ step (h.onItsWay_requested mem ▸ visit)
    · obtain rfl := List.mem_singleton.mp here
      have absent := alone call mem own.symm
      rw [← h.onItsWay_requested mem, visit] at absent
      cases absent
  formed call mem := by
    rcases List.mem_append.mp mem with old | new
    · exact h.formed call old
    · rw [List.mem_singleton.mp new]
      exact formed

theorem Attended.requested (h : Attended desk calls none) (listed : Listed desk calls) :
    Attended (desk.requested errand name path) (calls ++ [⟨desk.tasks.length, path, errand⟩]) none where
  placed call mem _ current found := by
    rcases List.mem_append.mp mem with old | new
    · rw [tasks_requested_of_lt (listed.lt_length old)] at found
      have placed := h.placed call old (Option.some_ne_none _) current found
      exact placed.change (fun _ _ ↦ .rfl) fun _ _ serves ↦ serves
    · obtain rfl := List.mem_singleton.mp new
      obtain rfl := Option.some.inj (tasks_requested_self.symm.trans found)
      -- All visits are those of earlier calls.
      refine ⟨rfl, fun v visit own ↦ ?_⟩
      obtain ⟨call, there, task⟩ := h.visits v visit (Option.some_ne_none _)
      exact absurd (task.trans own) (listed.lt_length there).ne
  visits v mem _ := by
    obtain ⟨call, there, task⟩ := h.visits v mem (Option.some_ne_none _)
    exact ⟨call, List.mem_append_left _ there, task⟩

/-- A call that has just come has put nothing on a panel. -/
theorem Listed.puts_requested (h : Listed desk calls) :
    (desk.requested errand name path).puts (calls ++ [⟨desk.tasks.length, path, errand⟩]) =
      desk.puts calls := by
  have going : (desk.requested errand name path).onItsWay ⟨desk.tasks.length, path, errand⟩ = true :=
    (onItsWay_of_found tasks_requested_self).trans rfl
  rw [puts, List.filterMap_append, List.filterMap_cons, put?_of_going going, List.filterMap_nil,
    List.append_nil]
  exact List.filterMap_congr fun call mem ↦ put?_congr (by rw [tasks_requested_of_lt (h.lt_length mem)])

/-- A request is on its way to the console of its resource. -/
theorem Faithful.request (h : Faithful first verbs single desk calls) (formed : errand.WellFormed)
    (alone : ∀ call ∈ calls, call.path = path → desk.onItsWay call = false) (name : Option String) :
    Turned first verbs single desk (desk.requested errand name path)
      (calls ++ [⟨desk.tasks.length, path, errand⟩]) := by
  have world : World verbs single (desk.requested errand name path) :=
    ⟨h.world.factoryVerbs, h.world.factorySingle, h.world.available, h.world.storable, h.world.shaped,
      h.world.calm, h.world.cached⟩
  have store : (desk.requested errand name path).store = desk.store := rfl
  exact ⟨⟨world, h.attended.requested h.listed, h.listed.requested formed alone,
    h.stored.of_eq store h.listed.puts_requested⟩, (Plain.refl desk).renders (List.forall₂_refl desk.stations)⟩

end Requests

/-- A reset closes the console of a path, and the calls are where they were. -/
theorem Faithful.reset (h : Faithful first verbs single desk calls) (path : String) :
    Turned first verbs single desk (desk.reset path) calls := by
  obtain ⟨closes, cached, visits⟩ := h.world.calm.reset desk.tasks.length path
  obtain ⟨registry, stations, closed, calm, cached', visits', evolve⟩ :=
    closeStale_with { desk with registry := (desk.registry.reset desk.tasks.length path).1 } closes
  have evolved : Frame Panel.Still desk.tasks.length desk { desk with stations } :=
    .of_eq rfl rfl rfl rfl evolve rfl
  obtain ⟨faithful, renders⟩ := h.still (evolved.mono fun _ _ ↦ .still) rfl
  have world : World verbs single { desk with registry, stations } :=
    faithful.world.with_registry calm fun entry mem ↦ faithful.world.cached entry (cached entry (cached' ▸ mem))
  have attended : Attended { desk with registry, stations } calls none := by
    have same : registry.visits = desk.registry.visits := visits'.trans visits
    refine ⟨fun call mem _ current found ↦ ?_, fun v mem _ ↦ ?_⟩
    · have placed := faithful.attended.placed call mem (Option.some_ne_none _) current found
      exact placed.change (fun v _ ↦ by rw [same]) fun _ _ serves ↦ serves
    · exact h.attended.visits v (same ▸ mem) (Option.some_ne_none _)
  have listed : Listed { desk with registry, stations } calls := h.listed.of_tasks rfl
  rw [Desk.reset]
  dsimp only
  rw [closed]
  exact ⟨⟨world, attended, listed, h.stored⟩, renders⟩

/-! ### Steps and runs -/

/-- **Whatever happens next leaves the desk in order.** -/
theorem Faithful.step (h : Faithful first verbs single desk calls) (plain : Console.PlainVerbs verbs single)
    (step : Step desk calls after more) : Turned first verbs single desk after more := by
  cases step with
  | request asked _ alone => exact h.request (Host.route_wellFormed asked) alone _
  | reset path => exact h.reset path
  | @turn turn rest _ =>
    have begun : Frame (Panel.Follows desk.store) 0 desk { desk with ready := rest } :=
      .of_eq rfl rfl rfl rfl (List.forall₂_refl desk.stations) rfl
    obtain ⟨faithful, -⟩ := h.still begun rfl
    obtain ⟨faithful, renders⟩ := faithful.take plain turn
    exact ⟨faithful, renders⟩
  | opened gate =>
    have opened : Frame (Panel.Follows desk.store) 0 desk (desk.openGate gate) :=
      .of_eq rfl rfl rfl rfl (List.forall₂_refl desk.stations) rfl
    exact h.still opened rfl

theorem Runs.faithful {store : Store} (available : store ≠ .database none) {script : Remote.Script}
    {bound : Int} {registry : Registry} (made : Registry.make bound = .ok registry) {factory : Factory}
    (plain : Console.PlainVerbs factory.verbs factory.single)
    (run : Runs (Desk.make store script registry factory) desk calls) :
    Faithful store factory.verbs factory.single desk calls :=
  run.preserves (faithful_make available script made factory)
    fun _ _ _ _ faithful step ↦ (faithful.step plain step).faithful

/-- **A panel that gets rendered shows the last value with content that has been put on it**, or what the
store had for it at first if none has been put: resets and evictions change nothing about it. -/
theorem shows_of_rendered {store : Store} (available : store ≠ .database none) {script : Remote.Script}
    {bound : Int} {registry : Registry} (made : Registry.make bound = .ok registry) {factory : Factory}
    (plain : Console.PlainVerbs factory.verbs factory.single)
    (run : Runs (Desk.make store script registry factory) desk calls) (step : Step desk calls after more)
    {id : ConsoleId} {index : Nat} {console : Console} (there : after.console? id = some console)
    {panel : Panel} (here : console.panels[index]? = some panel) (rendered : panel.isRendered = true)
    (fresh : ∀ before, desk.panel? id index = some before → before.isRendered = false) :
    panel.Shows ((lastPut? (desk.puts calls) console.path panel.verb).getD
      (store.load (Console.keyOf factory.single panel.verb console.path))) := by
  have faithful := run.faithful available made plain
  obtain ⟨faithful', renders⟩ := faithful.step plain step
  have shaped := faithful'.world.shaped id console there
  have mem : panel ∈ console.panels := List.mem_of_getElem? here
  have found : after.panel? id index = some panel := Option.bind_eq_some_iff.mpr ⟨console, there, here⟩
  have shows : panel.Shows (desk.store.load panel.key) := by
    rcases renders id index panel found rendered with ⟨before, old, shown⟩ | shows
    · rw [fresh before old] at shown
      cases shown
    · exact shows
  rw [shaped.key mem, faithful.stored console.path panel.verb (shaped.verb_mem mem)] at shows
  exact shows

/-! ### A value that survives -/

/-- A resource that answers everything with a schema. -/
def exampleScript : Remote.Script := .sequence ⟨[.ofText 200 "\x7b\"$defs\": \x7b\x7d\x7d"], 0⟩

/-- Room for one console. -/
def exampleRegistry : Registry := ⟨1, by decide, [], [], 0, [], []⟩

def exampleFactory : Factory := ⟨"http://h", ["PUT"], false, [], []⟩

def exampleStart : Desk := Desk.make (.memory []) exampleScript exampleRegistry exampleFactory

def exampleErrand : Host.Errand := .setValue "PUT" (.object [("n", .int 1)]) "change"

/-- A value has been put on the panel for `/a`. -/
def exampleSaved : Desk := (exampleStart.spawn (.caller exampleErrand none) (.visit "/a")).1.settle

/-- The console for `/a` has made room for one for `/b`. -/
def exampleEvicted : Desk := (exampleSaved.spawn (.caller .read none) (.visit "/b")).1.settle

/-- The other console has been closed, and a new one for `/a` has been built, but not loaded. -/
def exampleRebuilt : Desk :=
  settleWithin 2 ((exampleEvicted.reset "/b").spawn (.caller .read none) (.visit "/a")).1

def exampleCalls : List Call :=
  [⟨0, "/a", exampleErrand⟩, ⟨exampleSaved.tasks.length, "/b", .read⟩,
    ⟨(exampleEvicted.reset "/b").tasks.length, "/a", .read⟩]

def exampleRequest (method path resource body : String) : Host.Request :=
  ⟨method, path, [("path", resource)], [], body⟩

/-- A request is understood as one that puts a value on a panel. -/
def asksToPut (verb text trigger : String) : Except Host.Served Host.Route → Bool
  | .ok (.errand (.setValue asked value because)) =>
    asked == verb && value.compact == text && because == trigger
  | _ => false

theorem exists_of_asksToPut {verb text trigger : String} {routed : Except Host.Served Host.Route}
    (asks : asksToPut verb text trigger routed = true) :
    ∃ value : Json, value.compact = text ∧ routed = .ok (.errand (.setValue verb value trigger)) := by
  unfold asksToPut at asks
  split at asks
  · simp only [Bool.and_eq_true, beq_iff_eq] at asks
    obtain ⟨⟨rfl, same⟩, rfl⟩ := asks
    exact ⟨_, same, rfl⟩
  · cases asks

theorem route_exampleRequest :
    Host.route (exampleRequest "PUT" "/api/console/panels/PUT/value" "/a"
      "\x7b\"value\": \x7b\"n\": 1\x7d\x7d") = .ok (.errand exampleErrand) := by
  have asks : asksToPut "PUT" "\x7b\"n\": 1\x7d" "change"
      (Host.route (exampleRequest "PUT" "/api/console/panels/PUT/value" "/a"
        "\x7b\"value\": \x7b\"n\": 1\x7d\x7d")) = true := by decide +kernel
  obtain ⟨value, same, routed⟩ := exists_of_asksToPut asks
  have storable : (Json.object [("n", .int 1)]).Storable :=
    ⟨by decide, show (Json.naturalText 1).length ≤ _ by decide, trivial⟩
  have text : (Json.object [("n", .int 1)]).compact = "\x7b\"n\": 1\x7d" := by decide +kernel
  rw [routed, Json.print_inj .line (Host.route_wellFormed routed).2 storable (same.trans text.symm)]
  rfl

theorem runs_exampleRebuilt : Runs exampleStart exampleRebuilt exampleCalls := by
  have a : Host.normalizeResource "/a" = .ok "/a" := by with_unfolding_all rfl
  have b : Host.normalizeResource "/b" = .ok "/b" := by with_unfolding_all rfl
  have lookA : Host.route (exampleRequest "GET" "/api/console" "/a" "") = .ok (.errand .read) := by
    with_unfolding_all rfl
  have lookB : Host.route (exampleRequest "GET" "/api/console" "/b" "") = .ok (.errand .read) := by
    with_unfolding_all rfl
  have answered : (exampleEvicted.reset "/b").onItsWay ⟨0, "/a", exampleErrand⟩ = false := by decide +kernel
  have saved : Runs exampleStart exampleSaved [⟨0, "/a", exampleErrand⟩] :=
    (Runs.start.step (.request route_exampleRequest a nofun)).settle
  have evicted : Runs exampleStart exampleEvicted (exampleCalls.take 2) :=
    (saved.step (.request lookB b (by simp))).settle
  have closed : Runs exampleStart (exampleEvicted.reset "/b") (exampleCalls.take 2) :=
    evicted.step (.reset "/b")
  exact (closed.step (.request lookA a (by simpa [exampleCalls] using answered))).settleWithin 2

/-- The value that has been put on the panel for `/a` is on its next panel. -/
theorem shows_after_eviction : ∃ after console panel value,
    Runs exampleStart exampleRebuilt exampleCalls ∧ Step exampleRebuilt exampleCalls after exampleCalls ∧
      after.console? 2 = some console ∧ console.path = "/a" ∧ console.panels[0]? = some panel ∧
      panel.isRendered = true ∧ panel.Shows value ∧ value.compact = "\x7b\"n\": 1\x7d" := by
  have next : Step exampleRebuilt exampleCalls (settleWithin 1 exampleRebuilt) exampleCalls := by
    have goesOn : exampleRebuilt.ready.isEmpty = false := by decide +kernel
    cases ready : exampleRebuilt.ready with
    | nil =>
      rw [ready] at goesOn
      cases goesOn
    | cons turn rest =>
      rw [settleWithin, ready]
      exact .turn ready
  have loaded : ((settleWithin 1 exampleRebuilt).console? 2).map (fun console ↦
      (console.path, console.panels[0]?.map fun panel ↦ (panel.verb, panel.isRendered))) =
        some ("/a", some ("PUT", true)) := by decide +kernel
  have bare : (exampleRebuilt.panel? 2 0).map Panel.isRendered = some false := by decide +kernel
  have last : ((lastPut? (exampleRebuilt.puts exampleCalls) "/a" "PUT").getD
      ((Store.memory []).load (Console.keyOf false "PUT" "/a"))).compact = "\x7b\"n\": 1\x7d" := by
    decide +kernel
  obtain ⟨console, there, parts⟩ := Option.map_eq_some_iff.mp loaded
  obtain ⟨path, first⟩ := Prod.mk.inj parts
  obtain ⟨panel, here, parts⟩ := Option.map_eq_some_iff.mp first
  obtain ⟨verb, rendered⟩ := Prod.mk.inj parts
  have available : Store.memory [] ≠ .database none := by simp
  have made : Registry.make 1 = .ok exampleRegistry := rfl
  have plain : Console.PlainVerbs exampleFactory.verbs exampleFactory.single := by decide
  have shows := shows_of_rendered available made plain runs_exampleRebuilt next there here rendered
    fun before found ↦ by
      rw [found] at bare
      exact Option.some.inj bare
  rw [path, verb] at shows
  exact ⟨_, console, panel, _, runs_exampleRebuilt, next, there, path, here, rendered, shows, last⟩

end Desk

end VerbForms
