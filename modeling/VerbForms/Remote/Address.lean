import VerbForms.Text.Blank
import VerbForms.Remote.Host

/-!
# Addresses

Parsing, normalising and joining of addresses. Parts are written in ASCII: what a part cannot hold is
percent-encoded as UTF-8, and a percent sign is never encoded, so that encoding twice changes nothing.
Segments `.` and `..` are removed from the path of an address that has a scheme or an authority.
-/

namespace VerbForms.Remote

/-- Why a text is no address. -/
inductive AddressError where
  | tooLong
  | controlCharacter (c : Char) (position : Nat)
  | badPort (digits : String)
  | badIPv4 (host : String)
  | badIPv6 (host : String)
  | pathWithoutSlash
  | pathWithTwoSlashes
  | pathWithColon
  deriving DecidableEq, Repr

/-- The wording of an error. -/
def AddressError.message : AddressError → String
  | .tooLong => "URL too long"
  | .controlCharacter c position =>
    let shown := Text.quoted (String.singleton c)
    s!"Invalid non-printable ASCII character in URL, {shown} at position {position}."
  | .badPort digits =>
    let shown := Text.quoted digits
    s!"Invalid port: {shown}"
  | .badIPv4 host =>
    let shown := Text.quoted host
    s!"Invalid IPv4 address: {shown}"
  | .badIPv6 host =>
    let shown := Text.quoted host
    s!"Invalid IPv6 address: {shown}"
  | .pathWithoutSlash => "For absolute URLs, path must be empty or begin with '/'"
  | .pathWithTwoSlashes => "Relative URLs cannot have a path starting with '//'"
  | .pathWithColon => "Relative URLs cannot have a path starting with ':'"

/-- An address in normal form. -/
structure Address where
  scheme : List Char
  userinfo : List Char
  host : List Char
  portNumber : Option Int
  path : List Char
  query : Option (List Char)
  fragment : Option (List Char)
  deriving DecidableEq, Repr, Inhabited

/-- The parts of an address as they stand in a text. -/
structure Parts where
  scheme : List Char
  authority : List Char
  path : List Char
  query : Option (List Char)
  fragment : Option (List Char)
  deriving DecidableEq, Repr

/-- Printable ASCII characters except the given ones. -/
def isSafe (excluded : List Char) (c : Char) : Bool := 32 ≤ c.toNat && c.toNat < 127 && !excluded.contains c

/-- What a query cannot hold. -/
def outsideQuery : List Char := [' ', '"', '#', '<', '>']

/-- What a path cannot hold. -/
def outsidePath : List Char := outsideQuery ++ ['?', '\x60', '\x7b', '\x7d']

/-- What a fragment cannot hold. -/
def outsideFragment : List Char := [' ', '"', '<', '>', '\x60']

/-- What user information cannot hold. -/
def outsideUserinfo : List Char := outsidePath ++ ['/', ';', '=', '@', '[', '\\', ']', '^', '|']

/-- What a host cannot hold. -/
def outsideHost : List Char := [' ', '#', '/', ':', '<', '>', '?', '@', '[', ']', '^']

/-- A byte as a percent sign and two hexadecimal digits. -/
def percentByte (byte : UInt8) : List Char :=
  let digit (n : Nat) : Char := if n < 10 then Char.ofNat (48 + n) else Char.ofNat (55 + n)
  ['%', digit (byte.toNat / 16), digit (byte.toNat % 16)]

/-- A text with the characters that a part cannot hold percent-encoded. -/
def percentEncode (excluded : List Char) (cs : List Char) : List Char :=
  cs.flatMap fun c => if isSafe excluded c then [c] else (String.utf8EncodeChar c).flatMap percentByte

/-- The path segments that remain: a dot goes, two dots take the segment before them away as long as it
is not the empty one at the root. -/
def dropDots : List (List Char) → List (List Char) → List (List Char)
  | done, [] => done
  | done, segment :: rest =>
    if segment = ['.'] then dropDots done rest
    else if segment = ['.', '.'] then dropDots (if done = [[]] then done else done.dropLast) rest
    else dropDots (done ++ [segment]) rest

/-- A path without dot segments. -/
def normalizePath (path : List Char) : List Char :=
  let segments := Text.splitAt '/' path
  if segments.contains ['.'] || segments.contains ['.', '.'] then
    ['/'].intercalate (dropDots [] segments)
  else path

/-- Characters of a scheme behind the first one. -/
def isSchemeChar (c : Char) : Bool := c.isAlphanum || c == '+' || c == '.' || c == '-'

/-- Characters of an authority. -/
def isAuthorityChar (c : Char) : Bool := c != '/' && c != '?' && c != '#'

/-- The scheme of a text, if it has one, and the text behind its colon. -/
def splitScheme (cs : List Char) : List Char × List Char :=
  let scheme := match cs with
    | c :: _ => if c.isAlpha then cs.takeWhile isSchemeChar else []
    | [] => []
  match cs.drop scheme.length with
  | ':' :: rest => (scheme, rest)
  | _ => ([], cs)

/-- The parts of a text. -/
def Parts.ofChars (cs : List Char) : Parts :=
  let (scheme, rest) := splitScheme cs
  let (authority, rest) := match rest with
    | '/' :: '/' :: rest => (rest.takeWhile isAuthorityChar, rest.dropWhile isAuthorityChar)
    | rest => ([], rest)
  let path := rest.takeWhile fun c => c != '?' && c != '#'
  let rest := rest.drop path.length
  let (query, rest) := match rest with
    | '?' :: rest => (some (rest.takeWhile (· != '#')), rest.dropWhile (· != '#'))
    | rest => (none, rest)
  let fragment := match rest with
    | '#' :: rest => some rest
    | _ => none
  ⟨scheme, authority, path, query, fragment⟩

/-- The user information, the host and the digits behind it in an authority. The host ends at a colon
unless it stands in square brackets. -/
def splitAuthority (authority : List Char) : List Char × List Char × List Char :=
  let behind := (authority.reverse.takeWhile (· != '@')).reverse
  let userinfo := if authority.contains '@' then authority.take (authority.length - behind.length - 1) else []
  let plain := behind.takeWhile (· != ':')
  let host := match behind with
    | '[' :: _ =>
      if behind.contains ']' then (behind.reverse.dropWhile (· != ']')).reverse else plain
    | _ => plain
  let rest := behind.drop host.length
  (userinfo, host, match rest with
    | ':' :: digits => digits
    | digits => digits)

/-- The number that digits stand for, which may have blanks around them and a sign. -/
def portNumber? (digits : List Char) : Option Int := Text.signedNumber? (Text.trimChars digits)

/-- The numbers behind the host that need not be written. -/
def defaultPorts : List (List Char × Int) :=
  [("ftp".toList, 21), ("http".toList, 80), ("https".toList, 443), ("ws".toList, 80), ("wss".toList, 443)]

/-- The number that digits behind the host give for a scheme, if it has to be written; a scheme in capitals
has no default yet. -/
def normalizePort (scheme digits : List Char) : Except AddressError (Option Int) :=
  if digits.isEmpty then .ok none
  else
    match portNumber? digits with
    | none => .error (.badPort (String.ofList digits))
    | some n => .ok (if defaultPorts.lookup scheme = some n then none else some n)

/-- A host in normal form. -/
def normalizeHost (host : List Char) : Except AddressError (List Char) :=
  if host.isEmpty then .ok []
  else if isDotted 4 false host then
    if isIPv4 host then .ok host else .error (.badIPv4 (String.ofList host))
  else if host.head? = some '[' ∧ host.getLast? = some ']' then
    let inner := (host.drop 1).dropLast
    if isIPv6 inner then .ok inner else .error (.badIPv6 (String.ofList host))
  else if host.all fun c => c.toNat < 128 then .ok (percentEncode outsideHost (host.map Char.toLower))
  else .ok (host.map Char.toLower)

/-- Whether a path fits the parts before it. -/
def checkPath (hasScheme hasAuthority : Bool) (path : List Char) : Except AddressError Unit :=
  if hasAuthority && !path.isEmpty && path.head? != some '/' then .error .pathWithoutSlash
  else if hasScheme || hasAuthority then .ok ()
  else if ['/', '/'].isPrefixOf path then .error .pathWithTwoSlashes
  else if [':'].isPrefixOf path then .error .pathWithColon
  else .ok ()

/-- The address that parts stand for. -/
def Parts.normalize (parts : Parts) : Except AddressError Address := do
  let (userinfo, host, digits) := splitAuthority parts.authority
  let userinfo := percentEncode outsideUserinfo userinfo
  let host ← normalizeHost host
  let portNumber ← normalizePort parts.scheme digits
  let hasScheme := !parts.scheme.isEmpty
  let hasAuthority := !userinfo.isEmpty || !host.isEmpty || portNumber.isSome
  checkPath hasScheme hasAuthority parts.path
  let path := if hasScheme || hasAuthority then normalizePath parts.path else parts.path
  return {
    scheme := parts.scheme.map Char.toLower, userinfo, host, portNumber
    path := percentEncode outsidePath path
    query := parts.query.map (percentEncode outsideQuery)
    fragment := parts.fragment.map (percentEncode outsideFragment) }

/-- Most characters of an address. -/
def mostChars : Nat := 65536

/-- ASCII characters that do not print. -/
def isControl (c : Char) : Bool := c.toNat < 32 || c.toNat == 127

/-- The address that a text stands for. -/
def Address.parse (text : String) : Except AddressError Address :=
  let cs := text.toList
  if mostChars < cs.length then .error .tooLong
  else
    match cs.find? isControl with
    | some c => .error (.controlCharacter c (cs.findIdx isControl))
    | none => (Parts.ofChars cs).normalize

namespace Address

/-- The authority of an address. -/
def authority (a : Address) : List Char :=
  (if a.userinfo.isEmpty then [] else a.userinfo ++ ['@'])
    ++ (if a.host.contains ':' then '[' :: (a.host ++ [']']) else a.host)
    ++ (a.portNumber.map fun n => ':' :: (toString n).toList).getD []

/-- The text of an address. -/
def text (a : Address) : String :=
  String.ofList ((if a.scheme.isEmpty then [] else a.scheme ++ [':'])
    ++ (if a.authority.isEmpty then [] else '/' :: '/' :: a.authority)
    ++ a.path ++ (a.query.map ('?' :: ·)).getD [] ++ (a.fragment.map ('#' :: ·)).getD [])

/-- Whether an address tells the server by itself. -/
def isAbsolute (a : Address) : Bool := !a.scheme.isEmpty && !a.host.isEmpty

/-- Path and query; an empty path counts as the root. -/
def pathAndQuery (a : Address) : List Char :=
  (if a.path.isEmpty then ['/'] else a.path) ++ (a.query.map ('?' :: ·)).getD []

/-- The address with another path and query. -/
def withPathAndQuery (a : Address) (cs : List Char) : Except AddressError Address :=
  let path := cs.takeWhile (· != '?')
  let query := match cs.drop path.length with
    | '?' :: query => some query
    | _ => none
  Parts.normalize ⟨a.scheme, a.authority, path, query, a.fragment⟩

/-- The address as a base: its path and query end in a slash. -/
def asBase (a : Address) : Except AddressError Address :=
  if a.pathAndQuery.getLast? = some '/' then .ok a else a.withPathAndQuery (a.pathAndQuery ++ ['/'])

/-- A target seen from a base. An absolute target stands for itself; of any other one the path and query
are put behind the base, without the slashes at their start. -/
def join (base target : Address) : Except AddressError Address :=
  if target.isAbsolute then .ok target
  else base.withPathAndQuery (base.pathAndQuery ++ target.pathAndQuery.dropWhile (· == '/'))

/-- The first parameter of a name in the query of an address, without the fragment. The query is all that
stands behind the first question mark, its parameters are separated by ampersands. -/
def parameter? (a : Address) (name : String) : Option String :=
  a.query.bind fun query =>
    ((Text.splitAt '&' query).findSome? fun part =>
      if (name.toList ++ ['=']).isPrefixOf part then some (String.ofList (part.drop (name.length + 1))) else none)

end Address

end VerbForms.Remote
