import VerbForms.Panel.Basic

/-!
# Loading of panels

A panel asks for its schema once. The answer is received, the entered value is read from the store, and
the form is attached: three steps between which other things may happen to the panel.
-/

namespace VerbForms.Panel

/-- What is left to do after the answer to a request for the schema. -/
inductive Receipt where
  /-- Nothing. -/
  | settled
  /-- The error goes to the caller. -/
  | crashed (error : Remote.RequestError)
  /-- A form with this schema and metadata is to be attached. -/
  | prepared (schema : Json) (metadata : Form.Metadata)

/-- The member of a schema that forbids partial values. -/
def requiredKey : String := "required"

/-- A schema without the demand for complete values. -/
def withoutRequired : Json → Json
  | .object members => .object (Assoc.erase members requiredKey)
  | value => value

/-- The panel with a schema that has come. -/
def receiveSchema (panel : Panel) (schema : Json) : Panel × Receipt :=
  match Schema.resolve schema with
  | .error error => ({ panel with phase := .failed, problem := some (.badSchema error) }, .settled)
  | .ok resolved =>
    ({ panel with phase := .schemaLoaded },
      .prepared (withoutRequired resolved) (Form.Metadata.ofSchema Form.standardHints resolved))

/-- Documents with members. -/
def isDocument : Json → Bool
  | .object members => !members.isEmpty
  | _ => false

/-- The panel after the answer to its request. -/
def receive (panel : Panel) : Except Remote.RequestError Json → Panel × Receipt
  | .error (.exchange error) => (panel.withdraw .hidden (.schemaUnavailable panel.verb error), .settled)
  | .error error => (panel, .crashed error)
  | .ok schema =>
    if panel.phase = .unmounted then (panel, .settled)
    else if isDocument schema then panel.receiveSchema schema
    else (panel.withdraw .hidden (.schemaEmpty panel.verb), .settled)

/-- The listeners that save a form. -/
def saveListeners : List Form.Listener := Store.saveTriggers.map fun trigger => ⟨trigger, [.save trigger]⟩

/-- The form with a value. -/
def formOf (schema : Json) (metadata : Form.Metadata) (data : Json) : Form.Live where
  schema := schema
  metadata := metadata
  handler := some .panel
  value := data
  listeners := saveListeners

/-- The panel with its form, unless it has been unmounted. -/
def attach (panel : Panel) (schema : Json) (metadata : Form.Metadata) (data : Json) : Panel :=
  if panel.phase = .unmounted then panel
  else
    { panel with
      phase := .rendered
      state := some ⟨schema, metadata, data⟩
      form := some (formOf schema metadata data) }

/-- The panel after the answer to its request, with the value from the store attached at once. -/
def load {σ : Type} [EntryStore σ] (panel : Panel) (store : σ) (answer : Except Remote.RequestError Json) :
    Panel × Option Remote.RequestError :=
  match panel.receive answer with
  | (panel, .settled) => (panel, none)
  | (panel, .crashed error) => (panel, some error)
  | (panel, .prepared schema metadata) => (panel.attach schema metadata (EntryStore.load store panel.key), none)

end VerbForms.Panel
