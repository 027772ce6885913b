import VerbForms.Remote.Message

/-!
# Exchanges with the resource

One request and the one interpretation of what came of it: a value, or an error that carries the method
and the address of the request. Only a reply of success gives a value; status 204 and an empty body give
`null`.
-/

namespace VerbForms.Remote

/-- An exchange that did not give a value. -/
inductive ExchangeError where
  /-- The resource answered with a status outside 200 to 299. -/
  | status (method url : String) (code : Int) (body : String)
  /-- A reply of success carries no JSON text. -/
  | decode (method url : String) (code : Int) (body : String)
  /-- No usable reply came. -/
  | network (method url reason : String)
  deriving DecidableEq, Repr

/-- The wording of a status error. -/
private def statusMessage (method url : String) (code : Int) (body : String) : String :=
  let body := Text.trim body
  let shown := if body.isEmpty then "empty response body" else body
  s!"Request failed [{code}] {method} {url}: {shown}"

/-- The wording of an error. -/
def ExchangeError.message : ExchangeError → String
  | .status method url code body => statusMessage method url code body
  | .decode method url code body => statusMessage method url code body
  | .network method url reason => s!"Request failed {method} {url}: {reason}"

/-- The status that an error carries. -/
def ExchangeError.status? : ExchangeError → Option Int
  | .status _ _ code _ | .decode _ _ code _ => some code
  | .network .. => none

/-- The body that an error carries. -/
def ExchangeError.body? : ExchangeError → Option String
  | .status _ _ _ body | .decode _ _ _ body => some body
  | .network .. => none

/-- Why a request gives no value. -/
inductive RequestError where
  | exchange (error : ExchangeError)
  /-- The target is no address; nothing was sent. -/
  | address (error : AddressError)
  /-- The gateway is closed; nothing was sent. -/
  | closed
  | crashed (crash : Crash)
  /-- The call was cancelled while it waited. -/
  | cancelled
  deriving DecidableEq, Repr

/-- The text of an error. -/
def RequestError.text : RequestError → String
  | .exchange error => error.message
  | .address error => error.message
  | .closed => "Cannot send a request, as the client has been closed."
  | .crashed crash => crash.text
  | .cancelled => ""

/-- Statuses that redirect. -/
def redirectStatuses : List Int := [301, 302, 303, 307, 308]

/-- The fault in the address that a redirecting reply names. -/
def redirectFault? (reply : Reply) : Option NetworkFailure :=
  if redirectStatuses.contains reply.status then
    (reply.header? "location").bind fun location =>
      match Address.parse location with
      | .ok _ => none
      | .error e => some ⟨"RemoteProtocolError", s!"Invalid URL in location header: {e.message}."⟩
  else none

/-- The encodings of a body, in the order in which they were applied. -/
def contentCodings (reply : Reply) : List String :=
  ((reply.header? "content-encoding").map fun value => (value.splitOn ",").map fun s => (Text.trim s).toLower).getD []

/-- The body after the removal of its content encodings. A body that is called compressed must begin with
the mark of the compressed format; one byte alone is an unfinished body without content. -/
def decodedBody (reply : Reply) : Except NetworkFailure Text.Bytes :=
  if (contentCodings reply).contains "gzip" then
    match reply.body with
    | [] | [_] => .ok []
    | _ => .error ⟨"DecodingError", "Error -3 while decompressing data: incorrect header check"⟩
  else .ok reply.body

/-- The value that a reply gives to a request. -/
def interpretReply (method url : String) (reply : Reply) : Except ExchangeError Json :=
  match redirectFault? reply with
  | some failure => .error (.network method url failure.reason)
  | none =>
    match decodedBody reply with
    | .error failure => .error (.network method url failure.reason)
    | .ok body =>
      let decoded : Reply := { reply with body }
      if decoded.status = 204 then .ok .null
      else if !decoded.isSuccess then .error (.status method url decoded.status decoded.text)
      else if body.isEmpty then .ok .null
      else
        match decoded.json? with
        | some value => .ok value
        | none => .error (.decode method url decoded.status decoded.text)

/-- The value that an outcome gives to a request. -/
def interpret (request : Request) : Outcome → Except RequestError Json
  | .reply reply => (interpretReply request.method request.url reply).mapError .exchange
  | .lost failure => .error (.exchange (.network request.method request.url failure.reason))
  | .crashed crash => .error (.crashed crash)

end VerbForms.Remote
