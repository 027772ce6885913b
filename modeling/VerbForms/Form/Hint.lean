import VerbForms.Assoc
import VerbForms.Text.Blank

/-!
# Input hints

Which kind of input suits a declared format. The table starts with the standard formats, and further
ones can be registered.
-/

namespace VerbForms.Form

/-- Kinds of input by declared format. -/
abbrev Hints := List (String × String)

/-- The hints for the standard formats. -/
def standardHints : Hints := [
  ("rgb.Hex", "color"), ("hex-color", "color"), ("color", "color"), ("date", "date"),
  ("date-time", "datetime-local"), ("time", "time"), ("email", "email"), ("uri", "url"), ("url", "url"),
  ("password", "password")]

/-- Why a hint cannot be registered. -/
inductive HintError where
  /-- The format is blank. -/
  | emptyFormat
  deriving DecidableEq, Repr

/-- The wording of an error. -/
def HintError.message : HintError → String
  | .emptyFormat => "schema format cannot be empty"

/-- Register the hint for a format, whose blanks at the ends do not count. -/
def registerHint (format hint : String) (hints : Hints) : Except HintError Hints :=
  let format := Text.trim format
  if format.isEmpty then .error .emptyFormat else .ok (Assoc.put hints format hint)

/-- The hint for exactly this format. -/
def hintFor? (hints : Hints) (format : String) : Option String := Assoc.get? hints format

end VerbForms.Form
