import VerbForms.Proofs.Console.Fresh
import VerbForms.Proofs.Panel.Loading
import VerbForms.Proofs.Schema.Document
import Mathlib.Algebra.Ring.Nat

/-!
# Consoles that start

A console that starts reads its resource and loads its panels, all at the same time. A move takes one of
these on by one step, and the moves may come in any order. What comes of the console in the end does not
change from move to move (`outcome_perform`), so that it is known from the beginning.
-/

namespace VerbForms

/-- What the other side answers to the requests of a console that starts. -/
structure Upstream where
  /-- What comes of the request for the schema of a verb. -/
  schema : String → Remote.Outcome
  /-- What comes of the reading of the resource. -/
  resource : Remote.Outcome

namespace Upstream

/-- The answer to the request for the schema of a panel. -/
def schemaAnswer (up : Upstream) (gateway : Remote.Gateway) (panel : Panel) :
    Except Remote.RequestError Json := do
  let request ← gateway.request "GET" Remote.schemaMime panel.schemaQuery .null
  Remote.interpret request (up.schema panel.verb)

/-- The answer to the reading of the resource. -/
def resourceAnswer (up : Upstream) (gateway : Remote.Gateway) : Except Remote.RequestError Json := do
  let request ← gateway.request "GET" Remote.jsonMime "" .null
  Remote.interpret request up.resource

/-- The reading of the resource is answered, if only by an error of the exchange. -/
def Reads (up : Upstream) (gateway : Remote.Gateway) : Prop :=
  ∀ error, up.resourceAnswer gateway = .error error → ∃ lost, error = .exchange lost

end Upstream

/-- A console that starts. -/
structure Startup (σ : Type) where
  console : Console
  store : σ
  /-- How far the load of each panel is; `none` where it has ended. -/
  loads : List (Option Panel.LoadStage)
  /-- Whether the answer to the reading of the resource is still to come. -/
  reading : Bool

namespace Startup

variable {σ : Type}

/-- What goes on next. -/
inductive Move where
  /-- The load of a panel. -/
  | load (index : Nat)
  /-- The reading of the resource. -/
  | read

/-- The console has sent its requests. -/
def begin (console : Console) (store : σ) : Startup σ where
  console := console
  store := store
  loads := console.panels.map fun _ ↦ some .asking
  reading := true

/-- All loads and the reading have ended. -/
def Finished (s : Startup σ) : Prop := (∀ load ∈ s.loads, load = none) ∧ s.reading = false

/-- A load has come to another stage, and its panel has changed. -/
def put (s : Startup σ) (index : Nat) (step : Panel × Option Panel.LoadStage) : Startup σ :=
  { s with console := s.console.setPanel index step.1, loads := s.loads.set index step.2 }

variable [EntryStore σ]

/-- The load of a panel goes on by one step. -/
def advance (up : Upstream) (s : Startup σ) (index : Nat) : Startup σ :=
  match s.console.panels[index]?, s.loads[index]? with
  | some panel, some (some stage) =>
    s.put index (stage.next s.store (up.schemaAnswer s.console.gateway panel) panel)
  | _, _ => s

/-- What goes on goes on by one step; what has ended stays. -/
def perform (up : Upstream) (s : Startup σ) : Move → Startup σ
  | .load index => s.advance up index
  | .read =>
    if s.reading then
      let answer := up.resourceAnswer s.console.gateway
      { s with console := (s.console.receiveResource answer).1, reading := false }
    else s

/-- The console that starts after some moves. -/
def run (up : Upstream) (s : Startup σ) (moves : List Move) : Startup σ := moves.foldl (perform up) s

variable {up : Upstream} {s : Startup σ} {index : Nat}

/-- A step of a load changes its panel and its stage, if there is anything to change. -/
theorem advance_cases (up : Upstream) (s : Startup σ) (index : Nat) :
    s.advance up index = s ∨
      ∃ panel stage, s.console.panels[index]? = some panel ∧ s.loads[index]? = some (some stage) ∧
        s.advance up index =
          s.put index (stage.next s.store (up.schemaAnswer s.console.gateway panel) panel) := by
  rw [advance]
  split
  · next panel stage found going => exact .inr ⟨panel, stage, found, going, rfl⟩
  · exact .inl rfl

/-! ### What comes of a console -/

/-- What comes of a panel whose load has come so far. -/
def panelOutcome (up : Upstream) (s : Startup σ) (panel : Panel) (load : Option Panel.LoadStage) :
    Panel := panel.outcome s.store (up.schemaAnswer s.console.gateway panel) load

/-- What comes of the panels. -/
def panelOutcomes (up : Upstream) (s : Startup σ) : List Panel :=
  List.zipWith (s.panelOutcome up) s.console.panels s.loads

/-- What comes of the console. -/
def outcome (up : Upstream) (s : Startup σ) : Console :=
  let console := { s.console with panels := s.panelOutcomes up }
  if s.reading then (console.receiveResource (up.resourceAnswer s.console.gateway)).1 else console

/-- A step of a load does not change what comes of its panel. -/
theorem panelOutcome_next (up : Upstream) (s : Startup σ) (panel : Panel) (stage : Panel.LoadStage) :
    let step := stage.next s.store (up.schemaAnswer s.console.gateway panel) panel
    s.panelOutcome up step.1 step.2 = s.panelOutcome up panel (some stage) := by
  intro step
  have remains := Panel.remains_next stage s.store (up.schemaAnswer s.console.gateway panel) panel
  rw [panelOutcome, Upstream.schemaAnswer, remains.schemaQuery, remains.verb, ← Upstream.schemaAnswer]
  exact Panel.outcome_next stage

/-- A change at one place of two lists that are combined. -/
theorem zipWith_set {α β γ : Type} (f : α → β → γ) (as : List α) (bs : List β) (index : Nat) (a : α)
    (b : β) : List.zipWith f (as.set index a) (bs.set index b) =
      (List.zipWith f as bs).set index (f a b) := by
  induction as generalizing bs index with
  | nil => simp
  | cons first as ih =>
    cases bs with
    | nil => cases index <;> rfl
    | cons second bs =>
      cases index with
      | zero => rfl
      | succ index => exact congrArg (f first second :: ·) (ih bs index)

/-- A step of a load does not change what comes of the panels. -/
theorem panelOutcomes_advance (up : Upstream) (s : Startup σ) (index : Nat) :
    (s.advance up index).panelOutcomes up = s.panelOutcomes up := by
  rcases s.advance_cases up index with same | ⟨panel, stage, found, going, same⟩
  · rw [same]
  · have here : (s.panelOutcomes up)[index]? = some (s.panelOutcome up panel (some stage)) := by
      rw [panelOutcomes, List.getElem?_zipWith, found, going]
    obtain ⟨bound, value⟩ := List.getElem?_eq_some_iff.mp here
    have kept := zipWith_set (s.panelOutcome up) s.console.panels s.loads index
    rw [same]
    exact (kept _ _).trans (by
      rw [s.panelOutcome_next up panel stage, ← value]
      exact List.set_getElem_self bound)

/-- **No move changes what comes of the console.** -/
theorem outcome_perform (up : Upstream) (s : Startup σ) (move : Move) :
    (s.perform up move).outcome up = s.outcome up := by
  cases move with
  | load index =>
    have panels := s.panelOutcomes_advance up index
    rw [perform, outcome, panels]
    rcases s.advance_cases up index with same | ⟨_, _, -, -, same⟩ <;> rw [same] <;> rfl
  | read =>
    rw [perform]
    split
    · next reading =>
      rw [outcome, outcome, if_pos reading]
      -- The answer does not touch the panels.
      cases up.resourceAnswer s.console.gateway with
      | ok value => rfl
      | error error => cases error <;> rfl
    · rfl

/-- A console that starts after some moves comes to what it comes to from the beginning. -/
theorem outcome_run (up : Upstream) (s : Startup σ) (moves : List Move) :
    (s.run up moves).outcome up = s.outcome up := by
  induction moves generalizing s with
  | nil => rfl
  | cons move moves ih => exact (ih (s.perform up move)).trans (s.outcome_perform up move)

/-! ### The end of a start -/

/-- A move keeps the store, and a load for each panel. -/
theorem perform_frame (up : Upstream) (s : Startup σ) (move : Move) :
    (s.perform up move).store = s.store ∧
      (s.loads.length = s.console.panels.length →
        (s.perform up move).loads.length = (s.perform up move).console.panels.length) := by
  cases move with
  | load index =>
    rw [perform]
    rcases s.advance_cases up index with same | ⟨_, _, -, -, same⟩
    · rw [same]
      exact ⟨rfl, id⟩
    · rw [same]
      exact ⟨rfl, by simp [put, Console.setPanel]⟩
  | read =>
    rw [perform]
    split
    · cases up.resourceAnswer s.console.gateway with
      | ok value => exact ⟨rfl, id⟩
      | error error => cases error <;> exact ⟨rfl, id⟩
    · exact ⟨rfl, id⟩

theorem run_frame (up : Upstream) (s : Startup σ) (moves : List Move) :
    (s.run up moves).store = s.store ∧
      (s.loads.length = s.console.panels.length →
        (s.run up moves).loads.length = (s.run up moves).console.panels.length) := by
  induction moves generalizing s with
  | nil => exact ⟨rfl, id⟩
  | cons move moves ih =>
    obtain ⟨store, lengths⟩ := s.perform_frame up move
    obtain ⟨stores, more⟩ := ih (s.perform up move)
    exact ⟨stores.trans store, more ∘ lengths⟩

/-- What comes of a console that has started is the console. -/
theorem Finished.outcome (finished : s.Finished) (lengths : s.loads.length = s.console.panels.length)
    (up : Upstream) :
    s.outcome up = s.console := by
  have panels : s.panelOutcomes up = s.console.panels := by
    refine List.ext_getElem (by simp [panelOutcomes, lengths]) fun index _ bound ↦ ?_
    have ended := finished.1 _ (List.getElem_mem (lengths ▸ bound))
    simp [panelOutcomes, panelOutcome, ended, Panel.outcome]
  rw [Startup.outcome, panels, finished.2]
  rfl

/-- The panels of a console, each of them loaded alone. -/
def loadedPanels (up : Upstream) (console : Console) (store : σ) : List Panel :=
  console.panels.map fun panel ↦ panel.loadedAlone store (up.schemaAnswer console.gateway panel)

/-- What comes of a console that begins to start. -/
theorem outcome_begin (up : Upstream) (console : Console) (store : σ) :
    (begin console store).outcome up =
      ({ console with panels := loadedPanels up console store }.receiveResource
        (up.resourceAnswer console.gateway)).1 := by
  have panels : (begin console store).panelOutcomes up = loadedPanels up console store := by
    rw [panelOutcomes, begin, List.zipWith_map_right, List.zipWith_self]
    rfl
  rw [outcome, panels]
  rfl

/-! ### Every start can come to its end -/

/-- Number of steps that are left of a load. -/
def stepsLeft : Option Panel.LoadStage → Nat
  | none => 0
  | some (.holding _ _ _) => 1
  | some (.reading _ _) => 2
  | some .asking => 3

/-- Number of moves that are left. -/
def movesLeft (s : Startup σ) : Nat := (s.loads.map stepsLeft).sum + s.reading.toNat

theorem stepsLeft_next (stage : Panel.LoadStage) (store : σ) (answer : Except Remote.RequestError Json)
    (panel : Panel) : stepsLeft (stage.next store answer panel).2 < stepsLeft (some stage) := by
  cases stage with
  | asking =>
    rw [Panel.LoadStage.next]
    cases panel.receive answer with
    | mk after receipt => cases receipt <;> simp [stepsLeft]
  | reading schema metadata => simp [Panel.LoadStage.next, stepsLeft]
  | holding schema metadata data => simp [Panel.LoadStage.next, stepsLeft]

/-- A smaller item makes a sum smaller. -/
theorem sum_set_lt {α : Type} (size : α → Nat) {items : List α} {index : Nat} {old new : α}
    (found : items[index]? = some old) (smaller : size new < size old) :
    ((items.set index new).map size).sum < (items.map size).sum := by
  induction items generalizing index with
  | nil => cases found
  | cons item items ih =>
    cases index with
    | zero =>
      obtain rfl : item = old := by simpa using found
      simpa using smaller
    | succ index =>
      have rest := ih (by simpa using found)
      simpa using rest

/-- A console that has not started yet can go on. -/
theorem exists_move (up : Upstream) (lengths : s.loads.length = s.console.panels.length)
    (unfinished : ¬ s.Finished) : ∃ move, (s.perform up move).movesLeft < s.movesLeft := by
  cases reading : s.reading with
  | true =>
    refine ⟨.read, ?_⟩
    rw [perform, if_pos reading]
    simp [movesLeft, reading]
  | false =>
    have going : ∃ stage : Panel.LoadStage, some stage ∈ s.loads := by
      refine Classical.byContradiction fun none ↦ unfinished ⟨fun load mem ↦ ?_, reading⟩
      cases load with
      | none => rfl
      | some stage => exact absurd ⟨stage, mem⟩ none
    obtain ⟨stage, mem⟩ := going
    obtain ⟨index, here⟩ := List.getElem?_of_mem mem
    obtain ⟨bound, -⟩ := List.getElem?_eq_some_iff.mp here
    have found := List.getElem?_eq_getElem (lengths ▸ bound)
    refine ⟨.load index, ?_⟩
    rw [perform, advance, found, here]
    exact Nat.add_lt_add_right (sum_set_lt stepsLeft here (stepsLeft_next stage _ _ _)) _

/-- **Every start can come to its end.** -/
theorem exists_finished (up : Upstream) (s : Startup σ)
    (lengths : s.loads.length = s.console.panels.length) :
    ∃ moves, (s.run up moves).Finished := by
  by_cases finished : s.Finished
  · exact ⟨[], finished⟩
  · obtain ⟨move, fewer⟩ := exists_move up lengths finished
    obtain ⟨moves, done⟩ := exists_finished up (s.perform up move) ((s.perform_frame up move).2 lengths)
    exact ⟨move :: moves, done⟩
termination_by s.movesLeft

/-- The panels of a fresh console, loaded alone: they are hidden, and no two have the same verb. -/
theorem loadedPanels_make {path : String} {verbs : List String} {single : Bool}
    {gateway : Remote.Gateway} {console : Console}
    (made : Console.make path verbs single gateway = .ok console) (up : Upstream) (store : σ) :
    (∀ panel ∈ loadedPanels up console store, panel.visible = false) ∧
      ((loadedPanels up console store).map Panel.verb).Nodup := by
  have remains (panel : Panel) :=
    panel.remains_loadedAlone store (up.schemaAnswer console.gateway panel)
  constructor
  · intro loaded mem
    obtain ⟨panel, fresh, rfl⟩ := List.mem_map.mp mem
    rw [Console.make_eq_ok made] at fresh
    obtain ⟨verb, -, rfl⟩ := List.mem_map.mp fresh
    exact (remains _).hidden rfl
  · have verbs : (loadedPanels up console store).map Panel.verb = console.panels.map Panel.verb := by
      rw [loadedPanels, List.map_map]
      exact List.map_congr_left fun panel _ ↦ (remains panel).verb
    rw [verbs, Console.verbs_make made]
    exact Console.nodup_verbsOf _ _

/-- **The order of the answers does not matter, and neither does what another panel gets.** A console
that starts can always come to the end of its start. Then each panel is, but for being visible, as if it
had been loaded alone with the answer for it; the resource is shown by the answer to its reading; and the
first panel with a form is the only visible one. The store is as it was. -/
theorem start_confluent {path : String} {verbs : List String} {single : Bool}
    {gateway : Remote.Gateway} {console : Console}
    (made : Console.make path verbs single gateway = .ok console) (store : σ) {up : Upstream}
    (reads : up.Reads gateway) (moves : List Move) :
    (∃ more, ((begin console store).run up (moves ++ more)).Finished) ∧
      (((begin console store).run up moves).Finished →
        let last := ((begin console store).run up moves).console.selectFirst
        last.panels.map Panel.concealed =
            (console.panels.map fun panel ↦
              panel.loadedAlone store (up.schemaAnswer gateway panel)) ∧
          last.panels.filter (·.visible) = (last.panels.find? Panel.isRendered).toList ∧
          ((∃ value, up.resourceAnswer gateway = .ok value ∧
              last.resource = .ofValue value ∧ last.resourceProblem = none) ∨
            ∃ lost, up.resourceAnswer gateway = .error (.exchange lost) ∧
              last.resource = .hidden ∧ last.resourceProblem = some lost) ∧
          ((begin console store).run up moves).store = store) := by
  have fresh := Console.make_eq_ok made
  have gateway_eq : console.gateway = gateway := by rw [fresh]; rfl
  have lengths : ((begin console store).run up moves).loads.length =
      ((begin console store).run up moves).console.panels.length :=
    ((begin console store).run_frame up moves).2 (by simp [begin])
  refine ⟨?_, fun finished ↦ ?_⟩
  · obtain ⟨more, done⟩ := exists_finished up _ lengths
    refine ⟨more, ?_⟩
    rw [run, List.foldl_append]
    exact done
  · have started := finished.outcome lengths up
    rw [outcome_run, outcome_begin] at started
    have panels : ((begin console store).run up moves).console.panels =
        loadedPanels up console store := by
      rw [← started]
      cases up.resourceAnswer console.gateway with
      | ok value => rfl
      | error error => cases error <;> rfl
    obtain ⟨hidden, distinct⟩ := loadedPanels_make made up store
    rw [← panels] at hidden distinct
    obtain ⟨frame, concealed, visible⟩ := Console.selectFirst_of_hidden hidden distinct
    refine ⟨?_, visible, ?_, ((begin console store).run_frame up moves).1⟩
    · rw [concealed, panels, loadedPanels, gateway_eq]
    · rw [frame]
      dsimp only
      rw [← started, gateway_eq]
      cases answer : up.resourceAnswer gateway with
      | ok value => exact .inl ⟨value, rfl, rfl, by rw [fresh]; rfl⟩
      | error error =>
        obtain ⟨lost, rfl⟩ := reads error answer
        exact .inr ⟨lost, rfl, by rw [fresh]; rfl, rfl⟩

/-- The way to a resource at a host. -/
def exampleGateway : Remote.Gateway where
  base := ⟨"http".toList, [], "h".toList, none, "/".toList, none, none⟩
  resourcePath := "/a"
  closed := false

/-- The schema for `GET` comes, as `{"a":1}`; the request for the other one meets an unexpected error, and
the resource does not answer in time. -/
def exampleUpstream : Upstream where
  schema verb :=
    if verb = "GET" then .reply ⟨200, [], [123, 34, 97, 34, 58, 49, 125]⟩
    else .crashed ⟨.runtime, "boom"⟩
  resource := .lost ⟨"ReadTimeout", ""⟩

/-- A console with two verbs of which one fails, while its resource cannot be read. -/
theorem start_confluent_failing :
    ∃ console more, Console.make "/a" ["post", " get "] false exampleGateway = .ok console ∧
      exampleUpstream.Reads exampleGateway ∧
      let s := (begin console (Store.memory [])).run exampleUpstream ([.load 1, .read, .load 0] ++ more)
      s.Finished ∧ s.console.selectFirst.panels.map (·.phase) = [.failed, .rendered] ∧
        s.console.selectFirst.resourceProblem =
          some (.network "GET" "http://h/a" "ReadTimeout") := by
  have made : Console.make "/a" ["post", " get "] false exampleGateway =
      .ok (.ofPanels "/a" false [.make "POST" "/a" false, .make "GET" "/a" false] exampleGateway) := by
    with_unfolding_all rfl
  have read : exampleUpstream.resourceAnswer exampleGateway =
      .error (.exchange (.network "GET" "http://h/a" "ReadTimeout")) := by
    with_unfolding_all rfl
  have post : exampleUpstream.schemaAnswer exampleGateway (.make "POST" "/a" false) =
      .error (.crashed ⟨.runtime, "boom"⟩) := by
    with_unfolding_all rfl
  have get : exampleUpstream.schemaAnswer exampleGateway (.make "GET" "/a" false) =
      .ok (.object [("a", .int 1)]) := by
    with_unfolding_all rfl
  have reads : exampleUpstream.Reads exampleGateway := fun error failed ↦
    ⟨_, Except.error.inj (failed.symm.trans read)⟩
  obtain ⟨more, done⟩ := (start_confluent made (Store.memory []) reads [.load 1, .read, .load 0]).1
  obtain ⟨panels, -, resource, -⟩ := (start_confluent made (Store.memory []) reads _).2 done
  refine ⟨_, more, made, reads, done, ?_, ?_⟩
  · have phases := congrArg (List.map (·.phase)) panels
    rw [List.map_map] at phases
    refine phases.trans ?_
    have plain : Schema.resolve (.object [("a", .int 1)]) = .ok (.object [("a", .int 1)]) :=
      Schema.resolve_single (by decide) (by simp) (by simp)
    simp only [Console.ofPanels, List.map_cons, List.map_nil, post, get]
    simp [Panel.loadedAlone, Panel.load, Panel.receive, Panel.isDocument, Panel.receiveSchema, plain,
      Panel.attach, Panel.make, Panel.endLoad, Panel.markFailed, Panel.withdraw]
  · rcases resource with ⟨_, answered, -⟩ | ⟨lost, answered, -, problem⟩
    · rw [read] at answered
      cases answered
    · rw [read] at answered
      cases answered
      exact problem

end Startup

end VerbForms
