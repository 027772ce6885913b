import VerbForms.Proofs.Panel.Display

/-!
# Panels without their submissions

A panel at rest is the panel without what its submissions do to it: that it is submitting and not
rendered, and its response. Every other operation does the same to the panel at rest, so a run in
which nothing is submitted differs from the run in nothing else (`Rests.run`).
-/

namespace VerbForms

/-- The phase with no submission under way. -/
def Phase.atRest (phase : Phase) : Phase := if phase = .submitting then .rendered else phase

@[simp] theorem Phase.atRest_eq_unmounted_iff {phase : Phase} :
    phase.atRest = .unmounted ↔ phase = .unmounted := by
  cases phase <;> decide

@[simp] theorem Phase.atRest_eq_uninitialized_iff {phase : Phase} :
    phase.atRest = .uninitialized ↔ phase = .uninitialized := by
  cases phase <;> decide

namespace Panel

variable {σ : Type}

/-- The panel with no submission under way and without a response. -/
def atRest (panel : Panel) : Panel :=
  { panel with phase := panel.phase.atRest, response := .hidden }

@[simp] theorem atRest_key (panel : Panel) : panel.atRest.key = panel.key := rfl

@[simp] theorem atRest_isRendered (panel : Panel) : panel.atRest.isRendered = panel.isRendered := by
  rw [isRendered, isRendered, atRest]
  cases panel.phase <;> rfl

theorem atRest_mounted {panel : Panel} (mounted : panel.phase ≠ .unmounted) :
    panel.atRest.phase ≠ .unmounted := by
  simpa [atRest] using mounted

/-! ### Submissions -/

theorem atRest_sending {panel : Panel} (rendered : panel.phase = .rendered) :
    Panel.atRest { panel with phase := .submitting } = panel.atRest := by
  simp [atRest, rendered, Phase.atRest]

theorem atRest_freed (panel : Panel) : panel.freed.atRest = panel.atRest := by
  rw [freed]
  split
  · next busy => simp [atRest, busy, Phase.atRest]
  · rfl

/-- The end of a submission leaves the panel at rest as it is. -/
theorem atRest_endSubmit (panel : Panel) (answer : Except Remote.RequestError Json) :
    (panel.endSubmit answer).panel.atRest = panel.atRest := by
  cases answer with
  | error error => cases error <;> exact panel.atRest_freed
  | ok response =>
    by_cases gone : panel.phase = .unmounted
    · simp [endSubmit, gone]
    · simp only [endSubmit, if_neg gone]
      exact panel.atRest_freed

/-! ### Loads -/

theorem atRest_withdraw (panel : Panel) {phase : Phase} (settled : phase.atRest = phase)
    (problem : PanelProblem) :
    (panel.withdraw phase problem).atRest = panel.atRest.withdraw phase problem := by
  by_cases gone : panel.phase = .unmounted
  · simp [withdraw, atRest, gone]
  · simp [withdraw, atRest, gone, settled]

theorem atRest_endLoad (panel : Panel) (error : Remote.RequestError) :
    (panel.endLoad error).atRest = panel.atRest.endLoad error := by
  cases error with
  | cancelled => rfl
  | _ => exact panel.atRest_withdraw rfl _

theorem atRest_attach (panel : Panel) (schema : Json) (metadata : Form.Metadata) (data : Json) :
    (panel.attach schema metadata data).atRest = panel.atRest.attach schema metadata data := by
  by_cases gone : panel.phase = .unmounted
  · simp [attach, atRest, gone]
  · rw [attach, attach, if_neg gone, if_neg (atRest_mounted gone)]
    rfl

theorem receive_atRest (panel : Panel) (answer : Except Remote.RequestError Json) :
    panel.atRest.receive answer = ((panel.receive answer).1.atRest, (panel.receive answer).2) := by
  cases answer with
  | error error =>
    cases error with
    | exchange error =>
      rw [receive, receive, atRest_withdraw panel rfl]
      rfl
    | _ => rfl
  | ok schema =>
    by_cases gone : panel.phase = .unmounted
    · simp [receive, atRest, gone]
    · rw [receive, receive, if_neg gone, if_neg (atRest_mounted gone)]
      split
      · rw [receiveSchema, receiveSchema]
        split <;> rfl
      · rw [atRest_withdraw panel rfl]
        rfl

theorem next_atRest [EntryStore σ] (stage : LoadStage) (store : σ)
    (answer : Except Remote.RequestError Json) (panel : Panel) :
    stage.next store answer panel.atRest =
      ((stage.next store answer panel).1.atRest, (stage.next store answer panel).2) := by
  cases stage with
  | asking =>
    rw [LoadStage.next, LoadStage.next, receive_atRest]
    cases panel.receive answer with
    | mk after receipt =>
      cases receipt with
      | crashed error => simp only [atRest_endLoad]
      | _ => rfl
  | reading schema metadata => rfl
  | holding schema metadata data =>
    rw [LoadStage.next, LoadStage.next, atRest_attach]

/-! ### Saves -/

section Saves

variable [EntryStore σ]

theorem save_atRest (panel : Panel) (store : σ) (value : Json) :
    panel.atRest.save store value =
      ((panel.save store value).1.atRest, (panel.save store value).2) := by
  by_cases gone : panel.phase = .unmounted
  · simp [save, atRest, gone]
  · rw [save, save, if_neg gone, if_neg (atRest_mounted gone), atRest_key]
    split
    · rfl
    · split <;> rfl

theorem saveForm_atRest (panel : Panel) (store : σ) :
    panel.atRest.saveForm store = ((panel.saveForm store).1.atRest, (panel.saveForm store).2) := by
  have form : panel.atRest.form = panel.form := rfl
  rw [saveForm, saveForm, form]
  cases panel.form with
  | none => rfl
  | some form => exact panel.save_atRest store form.value

theorem saveAll_atRest (panel : Panel) (store : σ) (events : List Form.Event) :
    panel.atRest.saveAll store events =
      ((panel.saveAll store events).1.atRest, (panel.saveAll store events).2) := by
  induction events generalizing panel store with
  | nil => rfl
  | cons event events ih =>
    cases event with
    | saveAsked trigger value =>
      rw [saveAll_cons_saveAsked, saveAll_cons_saveAsked, save_atRest]
      exact ih _ _
    | _ => exact ih panel store

theorem afterEmission_atRest (panel : Panel) (store : σ) (emission : Form.Emission) :
    panel.atRest.afterEmission store emission =
      ((panel.afterEmission store emission).1.atRest, (panel.afterEmission store emission).2) :=
  saveAll_atRest { panel with form := some emission.form } store emission.events

end Saves

/-! ### Runs -/

/-- Whether the event belongs to a submission. -/
def Event.isSubmission : Event σ → Bool
  | .submit | .answer _ => true
  | _ => false

namespace Activity

/-- The second activity is the first one without submissions and messages. -/
structure Rests (a b : Activity σ) : Prop where
  panel : b.panel = a.panel.atRest
  store : b.store = a.store
  loads : b.loads = a.loads

variable {a b after : Activity σ} {event : Event σ}

theorem Rests.form (h : Rests a b) : b.panel.form = a.panel.form := by
  rw [h.panel, atRest]

theorem Rests.state (h : Rests a b) : b.panel.state = a.panel.state := by
  rw [h.panel, atRest]

theorem Rests.setLoad (h : Rests a b) (load : Nat) (after : Panel) (next : Option LoadStage) :
    Rests (a.setLoad load after next) (b.setLoad load after.atRest next) := by
  cases next with
  | none => exact ⟨rfl, h.store, by simp [Activity.setLoad, h.loads]⟩
  | some stage => exact ⟨rfl, h.store, by simp [Activity.setLoad, h.loads]⟩

variable [EntryStore σ]

/-- Emissions of the form. -/
theorem Rests.keep (h : Rests a b) (emission : Form.Live → Form.Emission) :
    Rests (a.keep (a.panel.form.map fun form ↦ a.panel.afterEmission a.store (emission form)))
      (b.keep (b.panel.form.map fun form ↦ b.panel.afterEmission b.store (emission form))) := by
  rw [h.form, h.panel, h.store]
  cases a.panel.form with
  | none => exact h
  | some form =>
    rw [Option.map_some, Option.map_some, afterEmission_atRest]
    exact ⟨rfl, rfl, h.loads⟩

/-- A submission that starts or ends is not seen. -/
theorem Rests.submission (h : Rests a b) (step : Step a event after) (own : event.isSubmission = true) :
    Rests after b := by
  cases step with
  | idle => exact h
  | submit rendered => exact ⟨h.panel.trans (atRest_sending rendered).symm, h.store, h.loads⟩
  | answer underWay answer =>
    exact ⟨h.panel.trans (a.panel.atRest_endSubmit answer).symm, h.store, h.loads⟩
  | _ => cases own

theorem Rests.perform (h : Rests a b) (other : event.isSubmission = false) :
    Rests (a.perform event) (b.perform event) := by
  cases event with
  | load =>
    have phase : b.panel.phase = .uninitialized ↔ a.panel.phase = .uninitialized := by
      simp [h.panel, atRest]
    rw [Activity.perform, Activity.perform]
    by_cases fresh : a.panel.phase = .uninitialized
    · rw [if_pos fresh, if_pos (phase.mpr fresh)]
      exact ⟨h.panel, h.store, by simp [h.loads]⟩
    · rw [if_neg fresh, if_neg (mt phase.mp fresh)]
      exact h
  | proceed load answer =>
    rw [Activity.perform, Activity.perform, h.loads, h.store, h.panel]
    split
    · exact h
    · next stage _ =>
      simp only [next_atRest]
      exact h.setLoad load _ _
  | crash load error =>
    rw [Activity.perform, Activity.perform, h.loads, h.panel]
    split
    · rw [← atRest_endLoad]
      exact h.setLoad load _ none
    · exact h
  | abandon load =>
    rw [Activity.perform, Activity.perform, h.panel]
    exact h.setLoad load _ none
  | setValue value trigger => exact h.keep (·.setValue value trigger)
  | emit trigger => exact h.keep (·.emit trigger)
  | listen listener => exact ⟨by simp [Activity.perform, h.panel, atRest], h.store, h.loads⟩
  | notify trigger =>
    rw [Activity.perform, Activity.perform, Panel.notify, Panel.notify]
    split
    · rw [h.panel, h.store, saveForm_atRest]
      exact ⟨rfl, rfl, h.loads⟩
    · exact h
  | select =>
    rw [Activity.perform, Activity.perform, h.panel, atRest_isRendered]
    split
    · exact ⟨rfl, h.store, h.loads⟩
    · exact h
  | deselect => exact ⟨by simp [Activity.perform, h.panel, atRest], h.store, h.loads⟩
  | report message =>
    refine ⟨?_, h.store, h.loads⟩
    rw [Activity.perform, Activity.perform, h.panel]
    exact (a.panel.atRest_withdraw rfl _).symm
  | unmount => exact ⟨by simp [Activity.perform, h.panel, atRest, unmount, Phase.atRest], h.store, h.loads⟩
  | elsewhere change messages => exact ⟨h.panel, by simp [Activity.perform, h.store], h.loads⟩
  | submit => cases other
  | answer answer => cases other

/-- A run and the run without its submissions. -/
theorem Rests.run (h : Rests a b) (events : List (Event σ)) :
    Rests (a.run events) (b.run (events.filter (!·.isSubmission))) := by
  induction events generalizing a b with
  | nil => exact h
  | cons event events ih =>
    cases own : event.isSubmission with
    | true =>
      rw [List.filter_cons_of_neg (by simp [own])]
      exact ih (h.submission (a.step event) own)
    | false =>
      rw [List.filter_cons_of_pos (by simp [own])]
      exact ih (h.perform own)

end Activity

end Panel

end VerbForms
