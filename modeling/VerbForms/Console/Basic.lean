import VerbForms.Panel.Loading
import VerbForms.Panel.Saving
import VerbForms.Panel.Submission

/-!
# Consoles

A console is the page of one resource: a panel per verb, a read-only view of the resource, and messages
for the user. Of the panels that have a form one is visible.
-/

namespace VerbForms

/-- The page of one resource. -/
structure Console where
  path : String
  single : Bool
  panels : List Panel
  resource : ResponseView
  resourceProblem : Option Remote.ExchangeError
  alerts : List String
  gateway : Remote.Gateway

/-- Why a console cannot be made. -/
inductive ConsoleError where
  | noVerbs
  | gateway (error : Remote.GatewayError)
  deriving DecidableEq, Repr

/-- The wording of an error. -/
def ConsoleError.message : ConsoleError → String
  | .noVerbs => "A form console needs at least one HTTP verb"
  | .gateway error => error.message

/-- Why a panel cannot be selected. -/
inductive SelectError where
  /-- The verb as it was asked for. -/
  | unknownVerb (verb : String)
  | notReady (reason : NotReady)
  deriving DecidableEq, Repr

namespace Console

/-- A console with these panels. -/
def ofPanels (path : String) (single : Bool) (panels : List Panel) (gateway : Remote.Gateway) : Console where
  path := path
  single := single
  panels := panels
  resource := .hidden
  resourceProblem := none
  alerts := []
  gateway := gateway

/-- The verbs of a console: blank ones do not count, and each stands once. -/
def verbsOf (verbs : List String) (single : Bool) : List String :=
  let named := ((verbs.map fun verb => Text.upper (Text.trim verb)).filter (!·.isEmpty)).eraseDups
  if single then named.take 1 else named

/-- A fresh console. -/
def make (path : String) (verbs : List String) (single : Bool) (gateway : Remote.Gateway) :
    Except ConsoleError Console :=
  match verbsOf verbs single with
  | [] => .error .noVerbs
  | verbs => .ok (ofPanels path single (verbs.map fun verb => Panel.make verb path single) gateway)

/-- A fresh console with a gateway of its own. -/
def build (baseUrl path : String) (verbs : List String) (single : Bool) : Except ConsoleError Console :=
  match Remote.Gateway.make baseUrl path with
  | .ok gateway => make path verbs single gateway
  | .error error => .error (.gateway error)

/-- The place of the panel for a verb in any case. -/
def panelIndex? (console : Console) (verb : String) : Option Nat :=
  console.panels.findIdx? (·.verb == Text.upper verb)

/-- The console with another panel at a place. -/
def setPanel (console : Console) (index : Nat) (panel : Panel) : Console :=
  { console with panels := console.panels.set index panel }

/-- The visible panel, the first one if there were several. -/
def visiblePanel? (console : Console) : Option Panel := console.panels.find? (·.visible)

/-- Make the panel of a verb the only visible one. -/
def showOnly (console : Console) (verb : String) : Console :=
  { console with panels := console.panels.map fun panel => { panel with visible := panel.verb == verb } }

/-- Select the panel for a verb; gives the verb as the panel has it. -/
def select (console : Console) (verb : String) : Except SelectError (Console × String) :=
  match console.panels.find? (·.verb == Text.upper verb) with
  | none => .error (.unknownVerb verb)
  | some panel =>
    if panel.isRendered then .ok (console.showOnly panel.verb, panel.verb)
    else .error (.notReady (.inPhase panel.verb console.path panel.phase))

/-- Select the first panel with a form, unless a panel is visible already. -/
def selectFirst (console : Console) : Console :=
  match console.visiblePanel? with
  | some _ => console
  | none =>
    match console.panels.find? Panel.isRendered with
    | some panel => console.showOnly panel.verb
    | none => console

/-- The console after the answer to its reading of the resource. -/
def receiveResource (console : Console) : Except Remote.RequestError Json → Console × Option Remote.RequestError
  | .ok value => ({ console with resource := .ofValue value }, none)
  | .error (.exchange error) => ({ console with resourceProblem := some error }, none)
  | .error error => (console, some error)

/-- Save the forms of some panels. -/
def savePanels {σ : Type} [EntryStore σ] (store : σ) : List Panel → List Panel × σ
  | [] => ([], store)
  | panel :: rest =>
    let (panel, store) := panel.saveForm store
    let (rest, store) := savePanels store rest
    (panel :: rest, store)

/-- An interaction with a trigger on the whole page. -/
def notifyAll {σ : Type} [EntryStore σ] (console : Console) (store : σ) (trigger : String) :
    Except BadTrigger (Console × σ) :=
  if trigger ∈ Store.saveTriggers then
    let (panels, store) := savePanels store console.panels
    .ok ({ console with panels }, store)
  else .error ⟨trigger⟩

/-- A copy of the page. -/
def copy (console : Console) : Except Form.CopyCrash Bool × Form.CopyEvent :=
  Form.copy Form.copyMime (console.panels.map Panel.exhibit) .fresh

/-- Add a message for the user, if there is one. -/
def alert (console : Console) (message : Option String) : Console :=
  { console with alerts := console.alerts ++ message.toList }

/-- Unmount all panels. -/
def unmount (console : Console) : Console := { console with panels := console.panels.map Panel.unmount }

/-- Unmount all panels and close the gateway. -/
def close (console : Console) : Console := { console.unmount with gateway := console.gateway.close }

end Console

end VerbForms
