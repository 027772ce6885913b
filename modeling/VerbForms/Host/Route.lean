import VerbForms.Host.Reply
import VerbForms.Host.Request

/-!
# Routes

What a request asks of the host: the endpoint that its path and method name, and the body that the
endpoint needs. A body is read and checked before anything else happens.
-/

namespace VerbForms.Host

/-- The endpoints by their paths. -/
inductive Endpoint where
  | health
  | page
  | console
  | select (verb : String)
  | value (verb : String)
  | submit (verb : String)
  | interactions
  | copy
  deriving DecidableEq, Repr

/-- What a request asks of the console of a resource. -/
inductive Errand where
  | read
  | select (verb : String)
  | setValue (verb : String) (value : Json) (trigger : String)
  | submit (verb : String)
  | interact (trigger : String)
  | copy

/-- What a request asks of the host. -/
inductive Route where
  | health
  | page
  | reset
  | errand (errand : Errand)

/-- The endpoint at a path. -/
def endpointAt? (path : String) : Option Endpoint :=
  match (Text.splitAt '/' path.toList).map String.ofList with
  | ["", "health"] => some .health
  | ["", ""] => some .page
  | ["", "api", "console"] => some .console
  | ["", "api", "console", "interactions"] => some .interactions
  | ["", "api", "console", "copy"] => some .copy
  | ["", "api", "console", "panels", verb, action] =>
    if verb.isEmpty then none
    else if action = "select" then some (.select verb)
    else if action = "value" then some (.value verb)
    else if action = "submit" then some (.submit verb)
    else none
  | _ => none

/-- The body of a request as a value; nothing where the body is empty or `null`. -/
def readBody (request : Request) : Except Refusal (Option Json) :=
  if request.body.isEmpty then .ok none
  else if !request.hasJsonBody then .ok (some (.text request.body))
  else
    let (encoding, bytes) := Text.detectJson (Text.utf8 request.body)
    match encoding.decodeStrict bytes with
    | none => .error .unreadableBody
    | some cs =>
      match Json.readChars cs with
      | .ok .null => .ok none
      | .ok value => .ok (some value)
      | .error e =>
        match e.position? with
        | some position => .error (.badBody (.malformed position))
        | none => .error .unreadableBody

/-- The trigger among the members of a body. -/
def triggerIn (members : Members) (default : String) : Except Refusal String :=
  match Assoc.get? members "trigger" with
  | none => .ok default
  | some (.text trigger) => if trigger ∈ Store.saveTriggers then .ok trigger else .error (.badBody .badTrigger)
  | some _ => .error (.badBody .badTrigger)

/-- The members of a body that must be an object. -/
def bodyMembers : Json → Except Refusal Members
  | .object members => .ok members
  | _ => .error (.badBody .notObject)

/-- The value that a request sets. -/
def valueErrand (verb : String) (request : Request) : Except Refusal Errand := do
  match ← readBody request with
  | none => .error (.badBody .missing)
  | some body =>
    let members ← bodyMembers body
    let trigger ← triggerIn members "change"
    return .setValue verb ((Assoc.get? members "value").getD .null) trigger

/-- The interaction that a request reports; without a body it is a click. -/
def interaction (request : Request) : Except Refusal Errand := do
  match ← readBody request with
  | none => return .interact "click"
  | some body => return .interact (← triggerIn (← bodyMembers body) "click")

/-- The methods of an endpoint with what each of them asks. -/
def Endpoint.methods (request : Request) : Endpoint → List (String × Except Refusal Route)
  | .health => [("GET", .ok .health)]
  | .page => [("GET", .ok .page)]
  | .console => [("GET", .ok (.errand .read)), ("DELETE", .ok .reset)]
  | .select verb => [("POST", .ok (.errand (.select verb)))]
  | .submit verb => [("POST", .ok (.errand (.submit verb)))]
  | .value verb => [("PUT", Route.errand <$> valueErrand verb request)]
  | .interactions => [("POST", Route.errand <$> interaction request)]
  | .copy => [("POST", .ok (.errand .copy))]

/-- What a request asks of an endpoint. -/
def Endpoint.route (request : Request) (endpoint : Endpoint) : Except Refusal Route :=
  ((endpoint.methods request).lookup request.method).getD (.error .methodNotAllowed)

/-- Whether the path differs from that of an endpoint only in the slashes at its end. -/
def isRedirected (path : String) : Bool :=
  path != "/" &&
    let cs := path.toList
    let other := if cs.getLast? = some '/' then (cs.reverse.dropWhile (· == '/')).reverse else cs ++ ['/']
    (endpointAt? (String.ofList other)).isSome

/-- The answer that sends a caller on to another path. -/
def redirection : Served := .answer 307 .empty

/-- What a request asks of the host, or the answer that it gets at once. -/
def route (request : Request) : Except Served Route :=
  match endpointAt? request.path with
  | some endpoint => (endpoint.route request).mapError Served.refused
  | none => .error (if isRedirected request.path then redirection else .refused .notFound)

/-- The path of a resource: without blanks at its ends and with one slash in front, the root if nothing is
given. A path that names a host is refused. -/
def normalizeResource (path : String) : Except Refusal String :=
  let trimmed := Text.trim path
  let path := if trimmed.isEmpty then "/" else trimmed
  if Text.holds "://" path || Text.beginsWith "//" path then .error .foreignResource
  else .ok (if Text.beginsWith "/" path then path else "/" ++ path)

end VerbForms.Host
