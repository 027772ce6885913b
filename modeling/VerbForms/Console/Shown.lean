import VerbForms.Console.Basic

/-!
# What is shown of a console

The JSON values in which a console and its panels are given to a browser. A form is shown only while its
panel has one to show; numbers in it that are not finite are shown as `null`.
-/

namespace VerbForms

mutual

/-- A value with `null` for each number that is not finite. -/
def Json.finiteOnly : Json → Json
  | .real (.finite negative m e) => .real (.finite negative m e)
  | .real _ => .null
  | .array items => .array (Json.itemsFinite items)
  | .object members => .object (Json.membersFinite members)
  | value => value

/-- Some values with `null` for each number that is not finite. -/
def Json.itemsFinite : List Json → List Json
  | [] => []
  | item :: rest => item.finiteOnly :: Json.itemsFinite rest

/-- Some members with `null` for each number that is not finite. -/
def Json.membersFinite : List (String × Json) → List (String × Json)
  | [] => []
  | (key, value) :: rest => (key, value.finiteOnly) :: Json.membersFinite rest

end

/-- A text, or `null`. -/
def Json.ofText? (s : Option String) : Json := (s.map Json.text).getD .null

/-- A view of a response as it is shown. -/
def ResponseView.toJson (view : ResponseView) : Json :=
  .object [("visible", .bool view.visible), ("body", .text view.body)]

namespace Panel

/-- The form as it is shown. -/
def formJson (panel : Panel) : Json :=
  if panel.isRendered then (panel.form.map fun form => form.view.finiteOnly).getD .null else .null

/-- A panel as it is shown. -/
def toJson (panel : Panel) : Json :=
  .object [
    ("verb", .text panel.verb),
    ("phase", .text panel.phase.word),
    ("visible", .bool panel.visible),
    ("persistence_key", .text panel.key),
    ("error", Json.ofText? (panel.problem.map (·.message))),
    ("form", panel.formJson),
    ("response", panel.response.toJson)]

end Panel

/-- A console as it is shown. -/
def Console.toJson (console : Console) : Json :=
  .object [
    ("path", .text console.path),
    ("single_verb", .bool console.single),
    ("resource", console.resource.toJson),
    ("resource_error", Json.ofText? (console.resourceProblem.map (·.message))),
    ("alerts", .array (console.alerts.map Json.text)),
    ("panels", .array (console.panels.map Panel.toJson))]

end VerbForms
