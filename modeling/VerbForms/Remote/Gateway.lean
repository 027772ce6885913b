import VerbForms.Remote.Exchange

/-!
# Gateways

A gateway sends requests for one resource. Targets are seen from its base address; an empty target and
one that is only a query mean the resource itself.
-/

namespace VerbForms.Remote

/-- The way to one resource. -/
structure Gateway where
  base : Address
  resourcePath : String
  closed : Bool
  deriving Inhabited

/-- Why a gateway cannot be made. -/
inductive GatewayError where
  | emptyBase
  | address (error : AddressError)
  deriving DecidableEq, Repr

/-- The wording of an error. -/
def GatewayError.message : GatewayError → String
  | .emptyBase => "HTTP bridge base URL cannot be empty"
  | .address error => error.message

namespace Gateway

/-- The resource path as it is kept: without blanks at its ends, the root if nothing is left. -/
def keptPath (path : String) : String :=
  let path := Text.trim path
  if path.isEmpty then "/" else path

/-- The gateway to a resource under a base address. -/
def make (baseUrl resourcePath : String) : Except GatewayError Gateway :=
  let baseUrl := Text.trim baseUrl
  if baseUrl.isEmpty then .error .emptyBase
  else
    let baseUrl := if baseUrl.toList.getLast? = some '/' then baseUrl else baseUrl ++ "/"
    match Address.parse baseUrl >>= Address.asBase with
    | .ok base => .ok ⟨base, keptPath resourcePath, false⟩
    | .error e => .error (.address e)

/-- The target that a path means. -/
def target (resourcePath path : String) : String :=
  let path := Text.trim path
  if path.isEmpty then resourcePath
  else if Text.beginsWith "?" path then resourcePath ++ path
  else path

/-- The text of a body: a text as it is, another value in JSON, nothing for `null`. -/
def bodyText : Json → Option String
  | .null => none
  | .text s => some s
  | value => some value.compact

/-- The address of a target. -/
def addressOf (gateway : Gateway) (path : String) : Except AddressError Address := do
  gateway.base.join (← Address.parse (target gateway.resourcePath path))

/-- The request for a path. -/
def request (gateway : Gateway) (method accept path : String) (payload : Json) : Except RequestError Request :=
  match gateway.addressOf path with
  | .error e => .error (.address e)
  | .ok address => if gateway.closed then .error .closed else .ok ⟨Text.upper method, address, accept, bodyText payload⟩

/-- The gateway after closing. -/
def close (gateway : Gateway) : Gateway := { gateway with closed := true }

end Gateway

/-- The address to report for a failed request: that of the request if it is known, else base and target
with one slash between them. -/
def failedAddress (requestUrl : Option String) (base target : String) : String :=
  match requestUrl with
  | some url => url
  | none =>
    let base := String.ofList (base.toList.reverse.dropWhile (· == '/')).reverse
    let target := Text.dropLeading (· == '/') target
    s!"{base}/{target}"

end VerbForms.Remote
