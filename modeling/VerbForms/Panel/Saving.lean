import VerbForms.Panel.Basic

/-!
# Saving of forms

Interactions with some triggers save the value of a form. A value without content is not saved, and a
save that fails is passed over: the panel then keeps what it knows to be stored.
-/

namespace VerbForms

/-- An interaction whose trigger saves nothing. -/
structure BadTrigger where
  trigger : String
  deriving DecidableEq, Repr

/-- The wording of a refusal. -/
def BadTrigger.message (bad : BadTrigger) : String :=
  let trigger := bad.trigger
  s!"Unsupported interaction trigger `{trigger}`"

namespace Panel

variable {σ : Type} [EntryStore σ]

/-- Save a value of the form, unless the panel has been unmounted. -/
def save (panel : Panel) (store : σ) (value : Json) : Panel × σ :=
  if panel.phase = .unmounted then (panel, store)
  else
    match EntryStore.save store panel.key value with
    | .error _ => (panel, store)
    | .ok store =>
      if value.isEmpty then (panel, store)
      else ({ panel with state := panel.state.map fun state => { state with data := value } }, store)

/-- Save the form if there is one. -/
def saveForm (panel : Panel) (store : σ) : Panel × σ :=
  match panel.form with
  | some form => panel.save store form.value
  | none => (panel, store)

/-- An interaction with a trigger. -/
def notify (panel : Panel) (store : σ) (trigger : String) : Except BadTrigger (Panel × σ) :=
  if trigger ∈ Store.saveTriggers then .ok (panel.saveForm store) else .error ⟨trigger⟩

/-- The panel and the store after what the listeners of its form have asked for. -/
def saveAll (panel : Panel) (store : σ) (events : List Form.Event) : Panel × σ :=
  events.foldl (fun (panel, store) event =>
    match event with
    | .saveAsked _ value => panel.save store value
    | _ => (panel, store)) (panel, store)

/-- The panel after an emission of its form. -/
def afterEmission (panel : Panel) (store : σ) (run : Form.Emission) : Panel × σ :=
  saveAll { panel with form := some run.form } store run.events

/-- Set the value of the form, if there is one. -/
def setValue (panel : Panel) (store : σ) (value : Json) (trigger : Option String) : Option (Panel × σ) :=
  panel.form.map fun form => panel.afterEmission store (form.setValue value trigger)

/-- Emit a trigger on the form, if there is one. -/
def emit (panel : Panel) (store : σ) (trigger : String) : Option (Panel × σ) :=
  panel.form.map fun form => panel.afterEmission store (form.emit trigger)

end Panel

end VerbForms
