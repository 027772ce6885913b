import VerbForms.Form.Metadata

/-!
# Live forms

A rendered form holds a value and calls listeners. A listener may change the form while it is called: an
emission calls the listeners that were there when it began, in order, and those added meanwhile are
called by later emissions, nested ones included. The first listener that raises ends the emission.
-/

namespace VerbForms.Form

/-- What a listener does when it is called. -/
inductive Action where
  | record (name : String)
  /-- Record the value of the form. -/
  | observe
  /-- Add a listener with these actions. -/
  | listen (trigger : String) (actions : List Action)
  | emit (trigger : String)
  /-- Set the value without an emission. -/
  | set (value : Json)
  | raise (reason : String)
  /-- Ask for the value to be saved. -/
  | save (trigger : String)

/-- A listener for one trigger. -/
structure Listener where
  trigger : String
  actions : List Action
  deriving Inhabited

/-- What a listener has done that can be told from outside. -/
inductive Event where
  | recorded (name : String)
  | observed (value : Json)
  | saveAsked (trigger : String) (value : Json)

/-- Why an emission ended early. -/
inductive Interruption where
  | raised (reason : String)
  /-- The emission was nested too deeply in others. -/
  | tooDeep
  deriving DecidableEq, Repr

/-- Who answers when a form is submitted. -/
inductive Handler where
  /-- The panel that shows the form. -/
  | panel
  /-- A fixed answer. -/
  | answer (value : Json)

/-- A rendered form. -/
structure Live where
  schema : Json
  metadata : Metadata
  handler : Option Handler
  value : Json
  listeners : List Listener

/-- A form after an emission, and what its listeners have done. -/
structure Emission where
  form : Live
  events : List Event
  interruption : Option Interruption

namespace Emission

/-- Nothing has been called yet. -/
def idle (form : Live) : Emission := ⟨form, [], none⟩

/-- Go on unless the emission has ended early. -/
def andThen (run : Emission) (next : Live → Emission) : Emission :=
  match run.interruption with
  | some _ => run
  | none =>
    let more := next run.form
    { more with events := run.events ++ more.events }

end Emission

namespace Live

/-- Add a listener behind the others. -/
def listen (form : Live) (listener : Listener) : Live := { form with listeners := form.listeners ++ [listener] }

/-- The listeners for a trigger, in order. -/
def listenersFor (form : Live) (trigger : String) : List Listener := form.listeners.filter (·.trigger == trigger)

/-- Perform one action; `emit` performs an emission inside this one. -/
def perform (emit : String → Live → Emission) (action : Action) (form : Live) : Emission :=
  match action with
  | .record name => ⟨form, [.recorded name], none⟩
  | .observe => ⟨form, [.observed form.value], none⟩
  | .listen trigger actions => .idle (form.listen ⟨trigger, actions⟩)
  | .emit trigger => emit trigger form
  | .set value => .idle { form with value }
  | .raise reason => ⟨form, [], some (.raised reason)⟩
  | .save trigger => ⟨form, [.saveAsked trigger form.value], none⟩

/-- Call one listener. -/
def call (emit : String → Live → Emission) (listener : Listener) (form : Live) : Emission :=
  listener.actions.foldl (fun run action => run.andThen (perform emit action)) (.idle form)

/-- Call some listeners, one after the other. -/
def callAll (emit : String → Live → Emission) (listeners : List Listener) (form : Live) : Emission :=
  listeners.foldl (fun run listener => run.andThen (call emit listener)) (.idle form)

/-- An emission in which others may be nested to a depth. -/
def emitWithin : Nat → String → Live → Emission
  | 0, _, form => ⟨form, [], some .tooDeep⟩
  | depth + 1, trigger, form => callAll (emitWithin depth) (form.listenersFor trigger) form

/-- How deeply emissions may be nested. -/
def mostNested : Nat := 480

/-- Emit a trigger. -/
def emit (form : Live) (trigger : String) : Emission := emitWithin mostNested trigger form

/-- Set the value, then emit a trigger if there is one. -/
def setValue (form : Live) (value : Json) (trigger : Option String) : Emission :=
  let changed : Live := { form with value }
  match trigger with
  | some trigger => changed.emit trigger
  | none => .idle changed

/-- What a browser gets to draw the form. -/
def view (form : Live) : Json :=
  .object [("data", form.value), ("schema", form.schema), ("options", form.metadata.toJson)]

/-- The wording of a refusal to submit a form that nobody answers for. -/
def noHandlerMessage : String := "form was rendered without a submit handler"

end Live

end VerbForms.Form
