import VerbForms.Form.Copy
import VerbForms.Form.Live
import VerbForms.Schema.Expansion
import VerbForms.Store.Basic
import VerbForms.Remote.Gateway

/-!
# Panels

A panel drives the form of one verb of a resource. Its phase tells how far it is; a panel whose schema
cannot be had is hidden, one whose schema is broken has failed, and an unmounted panel stays unmounted.
-/

namespace VerbForms

/-- How far a panel is. -/
inductive Phase where
  | uninitialized
  | schemaLoaded
  | rendered
  | submitting
  | hidden
  | failed
  | unmounted
  deriving DecidableEq, Repr, Inhabited

/-- The word for a phase. -/
def Phase.word : Phase → String
  | .uninitialized => "uninitialized"
  | .schemaLoaded => "schema_loaded"
  | .rendered => "rendered"
  | .submitting => "submitting"
  | .hidden => "hidden"
  | .failed => "failed"
  | .unmounted => "unmounted"

/-- What is shown of a response. -/
structure ResponseView where
  visible : Bool
  body : String
  deriving DecidableEq, Repr, Inhabited

namespace ResponseView

/-- Nothing is shown. -/
def hidden : ResponseView := ⟨false, ""⟩

/-- A value is shown as indented JSON. -/
def showing (value : Json) : ResponseView := ⟨true, value.indented⟩

/-- A value is shown, and `null` clears the view. -/
def ofValue : Json → ResponseView
  | .null => hidden
  | value => showing value

end ResponseView

/-- Why a panel has no form. -/
inductive PanelProblem where
  | schemaUnavailable (verb : String) (error : Remote.ExchangeError)
  | schemaEmpty (verb : String)
  | badSchema (error : Schema.SchemaError)
  | setupFailed (verb reason : String)
  /-- Marked from outside. -/
  | reported (message : String)
  deriving DecidableEq, Repr

/-- The wording of a problem. -/
def PanelProblem.message : PanelProblem → String
  | .schemaUnavailable verb error =>
    let reason := error.message
    s!"{verb} schema unavailable: {reason}"
  | .schemaEmpty verb => s!"{verb} schema is empty"
  | .badSchema error => error.message
  | .setupFailed verb reason => s!"{verb} form setup failed: {reason}"
  | .reported message => message

/-- What a rendered form was made of, and the value that was saved last. -/
structure FormState where
  schema : Json
  metadata : Form.Metadata
  data : Json
  deriving Inhabited

/-- The panel of one verb. -/
structure Panel where
  verb : String
  path : String
  /-- Whether it is the only panel of its console. -/
  single : Bool
  phase : Phase
  state : Option FormState
  form : Option Form.Live
  response : ResponseView
  problem : Option PanelProblem
  visible : Bool

/-- A panel is not ready for what is asked of it. -/
inductive NotReady where
  | notRendered (verb path : String)
  | inPhase (verb path : String) (phase : Phase)
  deriving DecidableEq, Repr

/-- The wording of a refusal. -/
def NotReady.message : NotReady → String
  | .notRendered verb path => s!"{verb} form for {path} has not been rendered"
  | .inPhase verb path phase =>
    let word := phase.word
    s!"{verb} form for {path} is {word}"

namespace Panel

/-- A fresh panel. -/
def make (verb path : String) (single : Bool) : Panel where
  verb := Text.upper verb
  path := path
  single := single
  phase := .uninitialized
  state := none
  form := none
  response := .hidden
  problem := none
  visible := false

/-- The key of the panel's entry in the store. -/
def key (panel : Panel) : String := Store.entryKey (if panel.single then none else some panel.verb) panel.path

/-- What a request for the schema adds to the resource. -/
def schemaQuery (panel : Panel) : String :=
  let verb := panel.verb
  if panel.single then "" else s!"?method={verb}"

/-- Whether the panel has a form to show. -/
def isRendered (panel : Panel) : Bool := panel.phase == .rendered || panel.phase == .submitting

/-- The value of the form. -/
def currentValue (panel : Panel) : Except NotReady Json :=
  match panel.form with
  | some form => .ok form.value
  | none => .error (.notRendered panel.verb panel.path)

/-- The panel as far as copying goes. -/
def exhibit (panel : Panel) : Form.Exhibit where
  verb := panel.verb
  visible := panel.visible
  offer := match panel.currentValue with
    | .ok value => .value value
    | .error _ => .refused

/-- Leave an unmounted panel in its phase, and bring any other one into a phase without a form. -/
def withdraw (panel : Panel) (phase : Phase) (problem : PanelProblem) : Panel :=
  if panel.phase = .unmounted then { panel with problem := some problem }
  else { panel with phase, visible := false, problem := some problem }

/-- Mark the panel as failed. -/
def markFailed (panel : Panel) (problem : PanelProblem) : Panel := panel.withdraw .failed problem

/-- Unmount the panel. -/
def unmount (panel : Panel) : Panel := { panel with phase := .unmounted, visible := false }

/-- Show a value as the response. -/
def showResponse (panel : Panel) (value : Json) : Panel := { panel with response := .showing value }

end Panel

end VerbForms
