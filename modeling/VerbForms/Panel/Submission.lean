import VerbForms.Panel.Basic

/-!
# Submissions

A panel sends the value of its form and shows the response. While a submission is under way another one
is ignored; however it ends, the panel can submit again unless it has been unmounted meanwhile.
-/

namespace VerbForms

/-- How a submission went. -/
inductive SubmitOutcome where
  | displayed
  | cleared
  | failed
  | ignored
  deriving DecidableEq, Repr

/-- The word for an outcome. -/
def SubmitOutcome.word : SubmitOutcome → String
  | .displayed => "displayed"
  | .cleared => "cleared"
  | .failed => "failed"
  | .ignored => "ignored"

/-- A submission that did not succeed. -/
structure SubmitFailure where
  verb : String
  error : Remote.ExchangeError
  deriving DecidableEq, Repr

/-- The result of a submission. -/
structure SubmitResult where
  outcome : SubmitOutcome
  response : Json
  failure : Option SubmitFailure

/-- What comes of the start of a submission. -/
inductive SubmitStart where
  /-- Another submission is under way. -/
  | busy
  | refused (reason : NotReady)
  /-- The payload is to be sent. -/
  | sending (panel : Panel) (payload : Json)

/-- The end of a submission. -/
structure SubmitEnd where
  panel : Panel
  result : Except Remote.RequestError SubmitResult
  /-- A message for the user. -/
  alert : Option String

namespace Panel

/-- The result of a submission that sends nothing. -/
def ignored : SubmitResult := ⟨.ignored, .null, none⟩

/-- What a verb sends for a value: its JSON text, but nothing to read. -/
def payloadOf (verb : String) (value : Json) : Json := if verb = "GET" then .null else .text value.compact

/-- Start a submission. -/
def startSubmit (panel : Panel) : SubmitStart :=
  if panel.phase = .submitting then .busy
  else
    match panel.form with
    | some form =>
      if panel.phase = .rendered then
        .sending { panel with phase := .submitting } (payloadOf panel.verb form.value)
      else .refused (.inPhase panel.verb panel.path panel.phase)
    | none => .refused (.inPhase panel.verb panel.path panel.phase)

/-- The panel is ready for another submission. -/
def freed (panel : Panel) : Panel := if panel.phase = .submitting then { panel with phase := .rendered } else panel

/-- End a submission with what came of its request. -/
def endSubmit (panel : Panel) : Except Remote.RequestError Json → SubmitEnd
  | .error (.exchange error) =>
    { panel := panel.freed
      result := .ok ⟨.failed, .null, some ⟨panel.verb, error⟩⟩
      alert := if panel.phase = .unmounted then none else some error.message }
  | .error error => ⟨panel.freed, .error error, none⟩
  | .ok response =>
    if panel.phase = .unmounted then ⟨panel, .ok ⟨.ignored, response, none⟩, none⟩
    else
      let outcome : SubmitOutcome := match response with
        | .null => .cleared
        | _ => .displayed
      ⟨{ panel.freed with response := .ofValue response }, .ok ⟨outcome, response, none⟩, none⟩

end Panel

end VerbForms
