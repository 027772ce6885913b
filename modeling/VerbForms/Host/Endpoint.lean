import VerbForms.Host.Page
import VerbForms.Host.Route

/-!
# Endpoints of consoles

What an endpoint does with the console of its resource. All of them answer at once but the one that
submits a form, which has to wait for the resource.
-/

namespace VerbForms.Host

/-- What an endpoint does. -/
inductive Performed where
  | answered (served : Served)
  /-- The form of a panel is to be submitted. -/
  | submits (index : Nat)

/-- A console and a store after an endpoint, and what is left to do. -/
structure Step where
  console : Console
  store : Store
  performed : Performed

/-- The answer to a submission that has ended. -/
def submitReply (panel : Panel) (result : SubmitResult) : Served :=
  match result.failure with
  | some failure => .refused (.submitFailed failure)
  | none => .ok (.object [("outcome", .text result.outcome.word), ("panel", panel.toJson)])

/-- The answer to a copy. -/
def copyReply (console : Console) : Served :=
  match console.copy with
  | (.error _, _) => .crash
  | (.ok handled, event) =>
    let shown (value : Option String) : Json := Json.ofText? (if handled then value else none)
    .ok (.object [
      ("handled", .bool handled),
      ("verb", shown (console.visiblePanel?.map (·.verb))),
      ("mime_type", shown (some Form.copyMime)),
      ("data", shown (Assoc.get? event.data Form.copyMime))])

/-- Set the value of a panel's form. -/
def setValue (console : Console) (store : Store) (index : Nat) (panel : Panel) (value : Json) (trigger : String) : Step :=
  let refusal : Step := ⟨console, store, .answered (.refused (.noForm panel.verb panel.phase))⟩
  if panel.isRendered then
    match panel.setValue store value (some trigger) with
    | some (panel, store) => ⟨console.setPanel index panel, store, .answered (.ok panel.toJson)⟩
    | none => refusal
  else refusal

/-- The answers that need no console. -/
def healthReply : Served := .ok (.object [("status", .text "ok")])

/-- The page as an answer. -/
def pageReply : Served := .answer 200 (.html page)

/-- The answer to the reset of a resource. -/
def resetReply (path : String) : Served := .ok (.object [("status", .text "reset"), ("path", .text path)])

/-- Perform an errand on the console of its resource. -/
def perform (console : Console) (store : Store) (errand : Errand) : Step :=
  let answer (served : Served) : Step := ⟨console, store, .answered served⟩
  let onPanel (verb : String) (f : Nat → Panel → Step) : Step :=
    match (console.panelIndex? verb).bind fun index => (console.panels[index]?).map fun panel => (index, panel) with
    | some (index, panel) => f index panel
    | none => answer (.refused (.unknownVerb (Text.upper verb) console.path))
  match errand with
  | .read => answer (.ok console.toJson)
  | .select verb =>
    match console.select verb with
    | .ok (console, _) => ⟨console, store, .answered (.ok console.toJson)⟩
    | .error (.unknownVerb verb) => answer (.refused (.unknownVerb (Text.upper verb) console.path))
    | .error (.notReady reason) => answer (.refused (.notReady reason))
  | .setValue verb value trigger =>
    onPanel verb fun index panel => setValue console store index panel value trigger
  | .submit verb => onPanel verb fun index _ => ⟨console, store, .submits index⟩
  | .interact trigger =>
    match console.notifyAll store trigger with
    | .ok (console, store) => ⟨console, store, .answered (.ok console.toJson)⟩
    | .error _ => answer .crash
  | .copy => answer (copyReply console)

end VerbForms.Host
