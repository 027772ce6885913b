import VerbForms.Panel.Loading
import VerbForms.Panel.Saving
import VerbForms.Panel.Submission

/-!
# Runs of a panel

A panel with its form, the store and the messages it writes to, and the loads and submissions that are
under way for it. An event is what happens at one moment between two turns; a run is any finite sequence
of events, so that the runs are all interleavings of loads, submissions, changes of the form and what the
console and others do. An event that cannot happen where it stands changes nothing.
-/

namespace VerbForms

namespace Panel

variable {σ : Type} [EntryStore σ]

/-! ### What saving leaves alone -/

/-- A save changes what the panel knows to be stored, and nothing else of the panel. -/
theorem save_eq (panel : Panel) (store : σ) (value : Json) :
    ∃ state, (panel.save store value).1 = { panel with state } := by
  rw [save]
  split
  · exact ⟨panel.state, rfl⟩
  · split
    · exact ⟨panel.state, rfl⟩
    · split
      · exact ⟨panel.state, rfl⟩
      · exact ⟨_, rfl⟩

theorem saveForm_eq (panel : Panel) (store : σ) :
    ∃ state, (panel.saveForm store).1 = { panel with state } := by
  rw [saveForm]
  split
  · exact panel.save_eq store _
  · exact ⟨panel.state, rfl⟩

theorem saveAll_cons_saveAsked (panel : Panel) (store : σ) (trigger : String) (value : Json)
    (events : List Form.Event) :
    panel.saveAll store (.saveAsked trigger value :: events) =
      (panel.save store value).1.saveAll (panel.save store value).2 events := rfl

theorem saveAll_eq (panel : Panel) (store : σ) (events : List Form.Event) :
    ∃ state, (panel.saveAll store events).1 = { panel with state } := by
  induction events generalizing panel store with
  | nil => exact ⟨panel.state, rfl⟩
  | cons event events ih =>
    cases event with
    | saveAsked trigger value =>
      obtain ⟨_, saved⟩ := panel.save_eq store value
      obtain ⟨state, rest⟩ := ih (panel.save store value).1 (panel.save store value).2
      exact ⟨state, by rw [saveAll_cons_saveAsked, rest, saved]⟩
    | _ => exact ih panel store

/-- An emission changes the form, and the panel as its saves do. -/
theorem afterEmission_eq (panel : Panel) (store : σ) (emission : Form.Emission) :
    ∃ state, (panel.afterEmission store emission).1 =
      { panel with form := some emission.form, state } :=
  saveAll_eq { panel with form := some emission.form } store emission.events

/-! ### Steps of a panel at work -/

/-- How far a load is. -/
inductive LoadStage where
  /-- The request for the schema has been sent. -/
  | asking
  /-- The stored value is to be read for a form with this schema and metadata. -/
  | reading (schema : Json) (metadata : Form.Metadata)
  /-- The stored value has been read, and the form is to be attached. -/
  | holding (schema : Json) (metadata : Form.Metadata) (data : Json)

/-- The panel after an unexpected error of its load: the console marks it as failed, and a load that was
cancelled ends without a mark. -/
def endLoad (panel : Panel) : Remote.RequestError → Panel
  | .cancelled => panel
  | error => panel.markFailed (.setupFailed panel.verb error.text)

/-- A load goes on by one step, with this answer if it has asked: the panel and the stage after it. -/
def LoadStage.next (stage : LoadStage) (store : σ) (answer : Except Remote.RequestError Json)
    (panel : Panel) : Panel × Option LoadStage :=
  match stage with
  | .asking =>
    match panel.receive answer with
    | (panel, .settled) => (panel, none)
    | (panel, .crashed error) => (panel.endLoad error, none)
    | (panel, .prepared schema metadata) => (panel, some (.reading schema metadata))
  | .reading schema metadata =>
    (panel, some (.holding schema metadata (EntryStore.load store panel.key)))
  | .holding schema metadata data => (panel.attach schema metadata data, none)

/-- A panel at work. -/
structure Activity (σ : Type) where
  panel : Panel
  store : σ
  /-- The messages for the user. -/
  alerts : List String
  /-- The loads under way. -/
  loads : List LoadStage
  /-- Number of submissions under way. -/
  sending : Nat

/-- What happens at one moment. -/
inductive Event (σ : Type) where
  /-- A load is asked for. -/
  | load
  /-- A load goes on, with this answer if it has asked. -/
  | proceed (load : Nat) (answer : Except Remote.RequestError Json)
  /-- A load ends with an error that the console reports. -/
  | crash (load : Nat) (error : Remote.RequestError)
  /-- A load ends without a report: it was cancelled, or somebody else gets its error. -/
  | abandon (load : Nat)
  /-- A submission is asked for. -/
  | submit
  /-- The answer to a submission under way. -/
  | answer (answer : Except Remote.RequestError Json)
  | setValue (value : Json) (trigger : Option String)
  | emit (trigger : String)
  | listen (listener : Form.Listener)
  | notify (trigger : String)
  /-- The console selects the panel. -/
  | select
  /-- The console selects another panel. -/
  | deselect
  /-- The panel is marked as failed from outside. -/
  | report (message : String)
  | unmount
  /-- Others change the store and add messages. -/
  | elsewhere (change : σ → σ) (messages : List String)

/-- Whether a load is asked for. -/
def Event.isLoad : Event σ → Bool
  | .load => true
  | _ => false

/-- Whether the panel is marked as failed from outside. -/
def Event.isReport : Event σ → Bool
  | .report _ => true
  | _ => false

/-- What happens to a panel by itself, and not by its console. -/
def Event.isOwn : Event σ → Bool
  | .proceed _ _ | .crash _ _ | .abandon _ => true
  | .submit | .answer _ => true
  | .setValue _ _ | .emit _ | .listen _ | .notify _ => true
  | _ => false

namespace Activity

/-- A panel for which nothing is under way. -/
def start (panel : Panel) (store : σ) (alerts : List String) : Activity σ where
  panel := panel
  store := store
  alerts := alerts
  loads := []
  sending := 0

/-- The activity after a load has gone on or ended. -/
def setLoad (a : Activity σ) (load : Nat) (panel : Panel) : Option LoadStage → Activity σ
  | some stage => { a with panel, loads := a.loads.set load stage }
  | none => { a with panel, loads := a.loads.eraseIdx load }

/-- The activity with another panel and store, if there are any. -/
def keep (a : Activity σ) : Option (Panel × σ) → Activity σ
  | some saved => { a with panel := saved.1, store := saved.2 }
  | none => a

/-- The activity after an event. -/
def perform (a : Activity σ) : Event σ → Activity σ
  | .load => if a.panel.phase = .uninitialized then { a with loads := a.loads ++ [.asking] } else a
  | .proceed load answer =>
    match a.loads[load]? with
    | none => a
    | some stage =>
      let (panel, next) := stage.next a.store answer a.panel
      a.setLoad load panel next
  | .crash load error =>
    if load < a.loads.length then a.setLoad load (a.panel.endLoad error) none else a
  | .abandon load => a.setLoad load a.panel none
  | .submit =>
    match a.panel.startSubmit with
    | .sending panel _ => { a with panel, sending := a.sending + 1 }
    | _ => a
  | .answer answer =>
    if a.sending = 0 then a
    else
      let done := a.panel.endSubmit answer
      { a with
        panel := done.panel
        alerts := a.alerts ++ done.alert.toList
        sending := a.sending - 1 }
  | .setValue value trigger => a.keep (a.panel.setValue a.store value trigger)
  | .emit trigger => a.keep (a.panel.emit a.store trigger)
  | .listen listener =>
    { a with panel := { a.panel with form := a.panel.form.map (·.listen listener) } }
  | .notify trigger => a.keep (a.panel.notify a.store trigger).toOption
  | .select => if a.panel.isRendered then { a with panel := { a.panel with visible := true } } else a
  | .deselect => { a with panel := { a.panel with visible := false } }
  | .report message => { a with panel := a.panel.markFailed (.reported message) }
  | .unmount => { a with panel := a.panel.unmount }
  | .elsewhere change messages =>
    { a with store := change a.store, alerts := a.alerts ++ messages }

/-- The activity after some events. -/
def run (a : Activity σ) (events : List (Event σ)) : Activity σ := events.foldl perform a

end Activity

end Panel

end VerbForms
