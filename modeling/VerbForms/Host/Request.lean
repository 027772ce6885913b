import VerbForms.Json.Token
import VerbForms.Text.Encoding
import VerbForms.Text.UpperCase
import VerbForms.Remote.Address

/-!
# Requests to the host

A request names a route by its path, and the resource by the parameter `path` of its query. Paths and
queries are percent-decoded.
-/

namespace VerbForms.Host

/-- A request to the host. -/
structure Request where
  method : String
  path : String
  query : List (String × String)
  headers : List (String × String)
  /-- The text of the body, empty where there is none. -/
  body : String

/-- The bytes of percent-encoded characters; a plus sign may stand for a blank. -/
def percentBytes (plusIsBlank : Bool) : List Char → Text.Bytes
  | [] => []
  | '%' :: a :: b :: rest =>
    match Json.hexValue? a, Json.hexValue? b with
    | some high, some low => UInt8.ofNat (16 * high + low) :: percentBytes plusIsBlank rest
    | _, _ => Text.utf8 "%" ++ percentBytes plusIsBlank (a :: b :: rest)
  | c :: rest =>
    (if c = '+' ∧ plusIsBlank then Text.utf8 " " else String.utf8EncodeChar c) ++ percentBytes plusIsBlank rest
termination_by cs => cs.length

/-- The text of percent-encoded characters. -/
def percentDecode (plusIsBlank : Bool) (cs : List Char) : String :=
  Text.Encoding.utf8.decodeReplacing (percentBytes plusIsBlank cs)

/-- The parameters of a query. -/
def queryParameters (query : List Char) : List (String × String) :=
  ((Text.splitAt '&' query).filter (!·.isEmpty)).map fun part =>
    let name := part.takeWhile (· != '=')
    (percentDecode true name, percentDecode true (part.drop (name.length + 1)))

/-- The path of an address on the host, without dot segments. -/
def pathOf (address : String) : List Char :=
  let parsed := do
    let base ← Remote.Address.parse "http://host/"
    base.join (← Remote.Address.parse address)
  match parsed with
  | .ok joined => joined.path
  | .error _ => address.toList

/-- The query of an address on the host. -/
def queryOf (address : String) : List Char :=
  (((address.toList.dropWhile (· != '?')).drop 1)).takeWhile (· != '#')

namespace Request

/-- The request for an address; given parameters stand for the query of the address. -/
def make (method address : String) (parameters : List (String × String)) (headers : List (String × String))
    (body : String) : Request where
  method := Text.upper method
  path := percentDecode false (pathOf address)
  query := if parameters.isEmpty then queryParameters (queryOf address) else parameters
  headers := headers
  body := body

/-- The value of a header, whose name may be written in any case. -/
def header? (request : Request) (name : String) : Option String :=
  (request.headers.find? fun entry => entry.1.toLower == name).map Prod.snd

/-- The last value of a parameter. -/
def parameter? (request : Request) (name : String) : Option String :=
  (request.query.reverse.find? (·.1 == name)).map Prod.snd

/-- The resource that a request is about. -/
def resource (request : Request) : String := (request.parameter? "path").getD "/"

/-- The name that the caller has given to the request, if it is not blank. -/
def givenId? (request : Request) : Option String :=
  ((request.header? "x-request-id").map Text.trim).filter (!·.isEmpty)

/-- Whether the body is called a JSON text. -/
def hasJsonBody (request : Request) : Bool :=
  match request.header? "content-type" with
  | none => true
  | some value =>
    let kind := String.ofList ((Text.trimChars (value.toList.takeWhile (· != ';'))).map Char.toLower)
    kind == "application/json" ||
      (Text.beginsWith "application/" kind && kind.toList.reverse.take 5 == "nosj+".toList && (kind.splitOn "/").length == 2)

end Request

end VerbForms.Host
