import VerbForms.Json.Print
import VerbForms.Json.Read
import VerbForms.Text.Encoding
import VerbForms.Text.UpperCase
import VerbForms.Remote.Address

/-!
# Requests and replies

What is sent to the resource and what can come back: a reply, a failure of the network, or an error that
nobody expected. The text of a body is decoded by the charset that its content type names.
-/

namespace VerbForms.Remote

/-- The media type of values. -/
def jsonMime : String := "application/json"

/-- The media type of schemas. -/
def schemaMime : String := "application/schema+json"

/-- A request as it is sent. Without a body it has no content type. -/
structure Request where
  method : String
  address : Address
  accept : String
  body : Option String
  deriving Inhabited

/-- The address of a request as text. -/
def Request.url (request : Request) : String := request.address.text

/-- The content type of a request. -/
def Request.contentType (request : Request) : Option String := request.body.map fun _ => jsonMime

/-- A reply. -/
structure Reply where
  status : Int
  headers : List (String × String)
  body : Text.Bytes
  deriving Inhabited

/-- No usable reply came. -/
structure NetworkFailure where
  /-- The name of the failure, which is the reason where there is no description. -/
  kind : String
  description : String
  deriving DecidableEq, Repr

/-- The reason of a failure, which is never empty where its kind has a name. -/
def NetworkFailure.reason (failure : NetworkFailure) : String :=
  if failure.description.isEmpty then failure.kind else failure.description

/-- Families of unexpected errors. -/
inductive CrashKind where
  | runtime
  | value
  | lookup
  deriving DecidableEq, Repr

/-- An error that nobody expected. -/
structure Crash where
  kind : CrashKind
  description : String
  deriving DecidableEq, Repr

/-- The text of an unexpected error; a failed look-up shows its key in quotes. -/
def Crash.text (crash : Crash) : String :=
  match crash.kind with
  | .lookup => Text.quoted crash.description
  | _ => crash.description

/-- What came of a request that was sent. -/
inductive Outcome where
  | reply (reply : Reply)
  | lost (failure : NetworkFailure)
  | crashed (crash : Crash)

namespace Reply

/-- The value of a header, whose name may be written in any case. -/
def header? (reply : Reply) (name : String) : Option String :=
  (reply.headers.find? fun entry => entry.1.toLower == name).map Prod.snd

/-- Replies of success. -/
def isSuccess (reply : Reply) : Bool := 200 ≤ reply.status && reply.status ≤ 299

/-- The parts of a header value between semicolons outside quotes. -/
def headerParts : Bool → List Char → List (List Char)
  | _, [] => [[]]
  | inQuotes, c :: rest =>
    let parts := headerParts (if c = '"' then !inQuotes else inQuotes) rest
    if c = ';' ∧ !inQuotes then [] :: parts
    else
      match parts with
      | [] => [[c]]
      | part :: parts => (c :: part) :: parts

/-- A parameter value without its quotes. -/
def unquote (value : List Char) : List Char :=
  match value with
  | '"' :: inner => if inner.getLast? = some '"' then inner.dropLast else value
  | _ => value

/-- The charset that the content type names, in lower case. -/
def charset? (reply : Reply) : Option String := do
  let value ← reply.header? "content-type"
  (headerParts false value.toList).findSome? fun part =>
    let name := part.takeWhile (· != '=')
    match part.drop name.length with
    | '=' :: value =>
      if (Text.trimChars name).map Char.toLower = "charset".toList then
        some (String.ofList ((unquote (Text.trimChars value)).map Char.toLower))
      else none
    | _ => none

/-- The text of the body. -/
def text (reply : Reply) : String :=
  let encoding := ((reply.charset?.bind Text.Encoding.ofName?)).getD .utf8
  encoding.decodeReplacing reply.body

/-- The JSON value of the body; `none` where the bytes are no text or the text is no JSON. -/
def json? (reply : Reply) : Option Json :=
  let (encoding, bytes) := Text.detectJson reply.body
  (encoding.decodeStrict bytes).bind fun cs => (Json.readChars cs).toOption

end Reply

end VerbForms.Remote
