import VerbForms.Desk.Run
import VerbForms.Host.Route
import VerbForms.Settings.Basic

/-!
# The server

A server answers requests by the routes of the host. Once it has been started by safe settings it has a
desk, on which the errands on consoles are performed; before that it only answers what needs no console.
-/

namespace VerbForms.Host

/-- Why a server cannot be started. -/
inductive StartError where
  /-- The settings make no safe host. -/
  | dangerous
  | noRoom
  deriving DecidableEq, Repr

/-- The wording of an error. -/
def StartError.message : StartError → String
  | .dangerous => Settings.unsafeMessage
  | .noRoom => NoRoom.message {}

/-- The store that settings name. -/
def storeOf (settings : Settings) : Store :=
  match settings.chosenBackend with
  | .memory => .memory []
  | .database => Store.openDatabase settings.environment []

/-- How consoles are made by settings. -/
def factoryOf (settings : Settings) : Desk.Factory where
  baseUrl := settings.remoteBase
  verbs := settings.consoleVerbs
  single := settings.singleVerb
  plans := []
  calls := []

/-- Start a server; `script` answers for the remote resources. -/
def start (settings : Settings) (script : Remote.Script) : Except StartError Desk :=
  if settings.dangers.isEmpty then
    match Registry.make settings.mostConsoles with
    | .ok registry => .ok (Desk.make (storeOf settings) script registry (factoryOf settings))
    | .error _ => .error .noRoom
  else .error .dangerous

/-- What comes of a request to a server. -/
inductive Handled where
  | replied (reply : Reply)
  /-- A task will reply. -/
  | pending (task : TaskId)

/-- The end of a reset. -/
def handleReset (desk : Option Desk) (request : Request) : Option Desk × Served :=
  match normalizeResource request.resource with
  | .error refusal => (desk, .refused refusal)
  | .ok path =>
    match desk with
    | none => (none, .refused .notStarted)
    | some desk => (some (desk.reset path), resetReply path)

/-- Handle a request; a server without a desk has not been started. -/
def handle (desk : Option Desk) (request : Request) : Option Desk × Handled :=
  let replied (desk : Option Desk) (served : Served) : Option Desk × Handled :=
    (desk, .replied (served.reply request.givenId?))
  match route request with
  | .error served => replied desk served
  | .ok .health => replied desk healthReply
  | .ok .page => replied desk pageReply
  | .ok .reset =>
    let (desk, served) := handleReset desk request
    replied desk served
  | .ok (.errand errand) =>
    match desk with
    | none => replied none (.refused .notStarted)
    | some desk =>
      match normalizeResource request.resource with
      | .error refusal => replied (some desk) (.refused refusal)
      | .ok path =>
        let (desk, task) := desk.serve errand request.givenId? path
        (some desk, .pending task)

end VerbForms.Host
