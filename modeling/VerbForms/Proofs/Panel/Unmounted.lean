import VerbForms.Proofs.Panel.Step

/-!
# Unmounted panels

An unmounted panel stays as it is. Each operation of a panel leaves an unmounted one alone but for its
problem, writes nothing to the store and adds no message; so what happens after the unmounting is what
others do to the form, to the store and to the messages (`Event.outside`), whatever was under way.
-/

namespace VerbForms

namespace Panel

variable {σ : Type} {panel : Panel}

/-! ### Operations of an unmounted panel -/

section Operations

variable [EntryStore σ] (gone : panel.phase = .unmounted)
include gone

theorem withdraw_of_unmounted (phase : Phase) (problem : PanelProblem) :
    panel.withdraw phase problem = { panel with problem := some problem } := if_pos gone

theorem endLoad_of_unmounted (error : Remote.RequestError) :
    ∃ problem, panel.endLoad error = { panel with problem } := by
  cases error with
  | cancelled => exact ⟨panel.problem, rfl⟩
  | _ => exact ⟨_, panel.withdraw_of_unmounted gone _ _⟩

/-- No answer prepares an unmounted panel for a form. -/
theorem receive_of_unmounted (answer : Except Remote.RequestError Json) :
    (∃ problem, (panel.receive answer).1 = { panel with problem }) ∧
      ∀ schema metadata, (panel.receive answer).2 ≠ .prepared schema metadata := by
  cases answer with
  | ok schema =>
    rw [receive, if_pos gone]
    exact ⟨⟨panel.problem, rfl⟩, by simp⟩
  | error error =>
    cases error with
    | exchange error => exact ⟨⟨_, panel.withdraw_of_unmounted gone _ _⟩, by simp [receive]⟩
    | _ => exact ⟨⟨panel.problem, rfl⟩, by simp [receive]⟩

theorem attach_of_unmounted (schema : Json) (metadata : Form.Metadata) (data : Json) :
    panel.attach schema metadata data = panel := if_pos gone

/-- A load that goes on changes at most the problem. -/
theorem next_of_unmounted (stage : LoadStage) (store : σ) (answer : Except Remote.RequestError Json) :
    ∃ problem, (stage.next store answer panel).1 = { panel with problem } := by
  cases stage with
  | asking =>
    obtain ⟨⟨problem, same⟩, unprepared⟩ := panel.receive_of_unmounted gone answer
    rw [LoadStage.next]
    cases received : panel.receive answer with
    | mk after receipt =>
      rw [received] at same unprepared
      subst same
      cases receipt with
      | settled => exact ⟨problem, rfl⟩
      | crashed error => exact @endLoad_of_unmounted { panel with problem } gone error
      | prepared schema metadata => exact absurd rfl (unprepared schema metadata)
  | reading schema metadata => exact ⟨panel.problem, rfl⟩
  | holding schema metadata data =>
    exact ⟨panel.problem, panel.attach_of_unmounted gone schema metadata data⟩

theorem startSubmit_of_unmounted :
    panel.startSubmit = .refused (.inPhase panel.verb panel.path .unmounted) := by
  rw [startSubmit, gone]
  cases panel.form <;> rfl

/-- The end of a submission changes nothing and tells the user nothing. -/
theorem endSubmit_of_unmounted (answer : Except Remote.RequestError Json) :
    (panel.endSubmit answer).panel = panel ∧ (panel.endSubmit answer).alert = none := by
  have freed : panel.freed = panel := by simp [Panel.freed, gone]
  cases answer with
  | ok response => simp [endSubmit, gone]
  | error error => cases error <;> simp [endSubmit, freed, gone]

theorem save_of_unmounted (store : σ) (value : Json) : panel.save store value = (panel, store) :=
  if_pos gone

theorem saveForm_of_unmounted (store : σ) : panel.saveForm store = (panel, store) := by
  rw [saveForm]
  split
  · exact panel.save_of_unmounted gone store _
  · rfl

theorem saveAll_of_unmounted (store : σ) (events : List Form.Event) :
    panel.saveAll store events = (panel, store) := by
  induction events with
  | nil => rfl
  | cons event events ih =>
    cases event with
    | saveAsked trigger value =>
      rw [saveAll_cons_saveAsked, panel.save_of_unmounted gone]
      exact ih
    | _ => exact ih

/-- An emission changes the form alone. -/
theorem afterEmission_of_unmounted (store : σ) (emission : Form.Emission) :
    panel.afterEmission store emission = ({ panel with form := some emission.form }, store) :=
  @saveAll_of_unmounted σ { panel with form := some emission.form } _ gone store emission.events

end Operations

/-! ### What others do -/

/-- What others than the panel change as well. -/
structure Surroundings (σ : Type) where
  form : Option Form.Live
  store : σ
  alerts : List String

/-- The surroundings of a panel at work. -/
def Activity.surroundings (a : Activity σ) : Surroundings σ := ⟨a.panel.form, a.store, a.alerts⟩

/-- The part of an event that others do: the user changes the form, and other panels write to the store
and add messages. -/
def Event.outside (around : Surroundings σ) : Event σ → Surroundings σ
  | .setValue value trigger =>
    { around with form := around.form.map fun form ↦ (form.setValue value trigger).form }
  | .emit trigger => { around with form := around.form.map fun form ↦ (form.emit trigger).form }
  | .listen listener => { around with form := around.form.map (·.listen listener) }
  | .elsewhere change messages =>
    { around with store := change around.store, alerts := around.alerts ++ messages }
  | _ => around

namespace Activity

variable {a b : Activity σ} {event : Event σ}

/-- What cannot happen is nothing that others do. -/
theorem outside_of_disabled (disabled : ¬ a.Enabled event) (around : Surroundings σ) :
    event.outside around = around := by
  cases event <;> first | rfl | exact absurd trivial disabled

/-- The panel is unmounted and has otherwise stayed as it was, but for its problem and its form. -/
structure Retired (panel : Panel) (a : Activity σ) : Prop where
  phase : a.panel.phase = .unmounted
  visible : a.panel.visible = false
  response : a.panel.response = panel.response
  state : a.panel.state = panel.state

/-- What a change of the problem alone keeps, with the surroundings that are left. -/
theorem Retired.of_panel (h : Retired panel a) {around : Surroundings σ}
    {problem : Option PanelProblem} (same : b.panel = { a.panel with problem, form := around.form })
    (store : b.store = around.store) (alerts : b.alerts = around.alerts) :
    Retired panel b ∧ b.surroundings = around := by
  constructor
  · exact ⟨same ▸ h.phase, same ▸ h.visible, same ▸ h.response, same ▸ h.state⟩
  · rw [surroundings, same, store, alerts]

/-- The end or the next step of a load. -/
theorem Retired.setLoad (h : Retired panel a) (load : Nat) {after : Panel}
    {problem : Option PanelProblem} (same : after = { a.panel with problem })
    (next : Option LoadStage) :
    Retired panel (a.setLoad load after next) ∧
      (a.setLoad load after next).surroundings = a.surroundings := by
  cases next <;> exact h.of_panel same rfl rfl

variable [EntryStore σ]

/-- An emission of the form. -/
theorem Retired.keep (h : Retired panel a) (emission : Form.Live → Form.Emission) :
    let kept := a.keep (a.panel.form.map fun form ↦ a.panel.afterEmission a.store (emission form))
    Retired panel kept ∧ kept.surroundings =
      { a.surroundings with form := a.panel.form.map fun form ↦ (emission form).form } := by
  cases here : a.panel.form with
  | none =>
    have same : a.panel = { a.panel with form := none } := by rw [← here]
    exact h.of_panel same rfl rfl
  | some form =>
    rw [Option.map_some, afterEmission_of_unmounted h.phase]
    exact h.of_panel rfl rfl rfl

/-- After the unmounting an event does no more than others do. -/
theorem Retired.step (h : Retired panel a) (step : Step a event b) :
    Retired panel b ∧ b.surroundings = event.outside a.surroundings := by
  cases step with
  | idle disabled => exact ⟨h, (outside_of_disabled disabled _).symm⟩
  | load fresh => cases fresh.symm.trans h.phase
  | proceed found answer =>
    obtain ⟨problem, same⟩ := next_of_unmounted h.phase _ a.store answer
    exact h.setLoad _ same _
  | crash there error =>
    obtain ⟨problem, same⟩ := endLoad_of_unmounted h.phase error
    exact h.setLoad _ same none
  | abandon load => exact h.setLoad load rfl none
  | submit rendered => cases rendered.symm.trans h.phase
  | answer underWay answer =>
    obtain ⟨same, silent⟩ := endSubmit_of_unmounted h.phase answer
    exact h.of_panel same rfl (by simp [silent, Event.outside, surroundings])
  | setValue value trigger => exact h.keep (·.setValue value trigger)
  | emit trigger => exact h.keep (·.emit trigger)
  | listen listener => exact h.of_panel rfl rfl rfl
  | notify saves =>
    rw [saveForm_of_unmounted h.phase]
    exact ⟨h, rfl⟩
  | select displayed => simp [isRendered, h.phase] at displayed
  | deselect => exact ⟨⟨h.phase, rfl, h.response, h.state⟩, rfl⟩
  | report message => exact h.of_panel (withdraw_of_unmounted h.phase _ _) rfl rfl
  | unmount => exact ⟨⟨rfl, rfl, h.response, h.state⟩, rfl⟩
  | elsewhere change messages => exact ⟨⟨h.phase, h.visible, h.response, h.state⟩, rfl⟩

theorem retired_unmount (a : Activity σ) : Retired a.panel (a.perform .unmount) := ⟨rfl, rfl, rfl, rfl⟩

/-- What every event does after the unmounting, every run does. -/
theorem Retired.run (h : Retired panel a) (events : List (Event σ)) :
    Retired panel (a.run events) ∧
      (a.run events).surroundings = events.foldl Event.outside a.surroundings := by
  induction events generalizing a with
  | nil => exact ⟨h, rfl⟩
  | cons event events ih =>
    obtain ⟨retired, around⟩ := h.step (a.step event)
    rw [List.foldl_cons, ← around]
    exact ih retired

/-- **Unmounting is final.** Whatever was under way when a panel is unmounted and whatever happens later,
the panel stays unmounted and hidden and keeps its response and its state; its form, the store and the
messages change as others change them, and never by the panel. -/
theorem unmounted_for_good (a : Activity σ) (events : List (Event σ)) :
    ((a.perform .unmount).run events).panel.phase = .unmounted ∧
      ((a.perform .unmount).run events).panel.visible = false ∧
      ((a.perform .unmount).run events).panel.response = a.panel.response ∧
      ((a.perform .unmount).run events).panel.state = a.panel.state ∧
      ((a.perform .unmount).run events).surroundings =
        events.foldl Event.outside a.surroundings := by
  obtain ⟨⟨phase, visible, response, state⟩, around⟩ := a.retired_unmount.run events
  exact ⟨phase, visible, response, state, around⟩

end Activity

end Panel

end VerbForms
