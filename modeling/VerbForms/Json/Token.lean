import VerbForms.Json.Value
import VerbForms.Text.Digits
import VerbForms.Text.Units

/-!
# Tokens of JSON texts

`Json.tokens` cuts a text into tokens, each with its position, counted in characters. Blanks are only
the space, the tab and the two line-end characters. A malformed piece becomes a token too, so that the
first error in the order of the text is the one that is reported.
-/

namespace VerbForms.Json

/-- Why a text is no JSON text, and at which character. -/
inductive ReadError where
  | expectedValue (position : Nat)
  | expectedKey (position : Nat)
  | expectedColon (position : Nat)
  | expectedComma (position : Nat)
  | extraText (position : Nat)
  | unterminatedText (position : Nat)
  | controlCharacter (position : Nat)
  | badEscape (position : Nat)
  | badUnitEscape (position : Nat)
  | tooManyDigits
  deriving DecidableEq, Repr

/-- Where the error is; a number with too many digits is refused as a whole. -/
def ReadError.position? : ReadError → Option Nat
  | .expectedValue p | .expectedKey p | .expectedColon p | .expectedComma p | .extraText p
  | .unterminatedText p | .controlCharacter p | .badEscape p | .badUnitEscape p => some p
  | .tooManyDigits => none

/-- The smallest pieces of a JSON text. -/
inductive Token where
  | openArray
  | closeArray
  | openObject
  | closeObject
  | comma
  | colon
  | text (s : String)
  /-- A literal or a number. -/
  | atom (value : Json)
  /-- A text or a number that is broken in itself. -/
  | broken (error : ReadError)
  /-- A character with which no piece begins. -/
  | stray
  /-- The end of the text. -/
  | finish

/-- A token and the position of its first character. -/
structure Located where
  position : Nat
  token : Token

/-- Blanks between tokens. -/
def isSeparator (c : Char) : Bool := c == ' ' || c == '\t' || c == '\n' || c == '\r'

/-- A piece of a quoted text: a character, or a 16-bit unit written as an escape. -/
inductive Piece where
  | char (c : Char)
  | unit (n : Nat)
  deriving DecidableEq, Repr

/-- The characters of the pieces; two units that form a surrogate pair are one character. -/
def joinPieces : List Piece → List Char
  | [] => []
  | .char c :: rest => c :: joinPieces rest
  | .unit a :: .unit b :: rest =>
    if Text.isLeadingUnit a && Text.isTrailingUnit b then Text.pairChar a b :: joinPieces rest
    else Text.unitChar a :: joinPieces (.unit b :: rest)
  | .unit a :: rest => Text.unitChar a :: joinPieces rest

/-- The value of a hexadecimal digit. -/
def hexValue? (c : Char) : Option Nat :=
  if '0' ≤ c ∧ c ≤ '9' then some (c.toNat - '0'.toNat)
  else if 'a' ≤ c ∧ c ≤ 'f' then some (c.toNat - 'a'.toNat + 10)
  else if 'A' ≤ c ∧ c ≤ 'F' then some (c.toNat - 'A'.toNat + 10)
  else none

/-- The unit that four hexadecimal digits stand for. -/
def hexUnit? (a b c d : Char) : Option Nat := do
  return (((← hexValue? a) * 16 + (← hexValue? b)) * 16 + (← hexValue? c)) * 16 + (← hexValue? d)

/-- The character of a short escape. -/
def shortEscape? (c : Char) : Option Char :=
  if c = '"' ∨ c = '\\' ∨ c = '/' then some c
  else if c = 'n' then some '\n'
  else if c = 'r' then some '\r'
  else if c = 't' then some '\t'
  else if c = 'b' then some '\x08'
  else if c = 'f' then some '\x0c'
  else none

/-- The rest of a quoted text after its opening quote, which stands at `opening`; gives the pieces and
the position behind the closing quote. -/
def scanText (opening position : Nat) (done : List Piece) : List Char → Except ReadError (List Piece × Nat)
  | [] => .error (.unterminatedText opening)
  | c :: rest =>
    if c = '"' then .ok (done.reverse, position + 1)
    else if c = '\\' then
      match rest with
      | [] => .error (.unterminatedText opening)
      | e :: rest =>
        if e = 'u' then
          match rest with
          | h₁ :: h₂ :: h₃ :: h₄ :: rest =>
            match hexUnit? h₁ h₂ h₃ h₄ with
            | some n =>
              if rest.isEmpty then .error (.badUnitEscape (position + 1))
              else scanText opening (position + 6) (.unit n :: done) rest
            | none => .error (.badUnitEscape (position + 1))
          | _ => .error (.badUnitEscape (position + 1))
        else
          match shortEscape? e with
          | some c => scanText opening (position + 2) (.char c :: done) rest
          | none => .error (.badEscape position)
    else if c.toNat < 32 then .error (.controlCharacter position)
    else scanText opening (position + 1) (.char c :: done) rest

/-- Most digits that an integer may have. -/
def mostIntegerDigits : Nat := 4300

/-- Digits after a point, if the text goes on with a point and a digit; gives the text behind them. -/
def scanFraction : List Char → List Char × List Char
  | '.' :: rest =>
    let digits := rest.takeWhile Char.isDigit
    if digits.isEmpty then ([], '.' :: rest) else (digits, rest.dropWhile Char.isDigit)
  | rest => ([], rest)

/-- A written exponent: its value and the number of its characters. -/
structure Exponent where
  value : Int
  length : Nat

/-- An exponent, if the text goes on with a complete one. -/
def scanExponent : List Char → Option Exponent
  | [] => none
  | c :: rest =>
    if c = 'e' ∨ c = 'E' then
      let (negative, signs) := match rest with
        | '-' :: _ => (true, 1)
        | '+' :: _ => (false, 1)
        | _ => (false, 0)
      let digits := (rest.drop signs).takeWhile Char.isDigit
      if digits.isEmpty then none
      else
        let n : Int := Text.naturalOf digits
        some ⟨if negative then -n else n, 1 + signs + digits.length⟩
    else none

/-- The digits before the point: a zero alone, or digits of which the first is not zero. -/
def scanWhole : List Char → List Char
  | [] => []
  | c :: rest => if c = '0' then ['0'] else (c :: rest).takeWhile Char.isDigit

/-- A number after its sign, with the number of its characters; `none` where no number stands. Without
fraction and exponent it is an integer. -/
def scanNumber (negative : Bool) (cs : List Char) : Option (Token × Nat) :=
  let whole := scanWhole cs
  if whole.isEmpty then none
  else
    let (fraction, behind) := scanFraction (cs.drop whole.length)
    match fraction, scanExponent behind with
    | [], none =>
      if mostIntegerDigits < whole.length then some (.broken .tooManyDigits, whole.length)
      else
        let n : Int := Text.naturalOf whole
        some (.atom (.int (if negative then -n else n)), whole.length)
    | fraction, exponent =>
      let scale : Int := (exponent.map (·.value)).getD 0 - fraction.length
      let points := if fraction.isEmpty then 0 else 1
      some (.atom (.real (Double.ofDecimal negative (Text.naturalOf (whole ++ fraction)) scale)),
        whole.length + points + fraction.length + (exponent.map (·.length)).getD 0)

/-- The words that stand for values. -/
def words : List (List Char × Json) :=
  [("null".toList, .null), ("true".toList, .bool true), ("false".toList, .bool false), ("NaN".toList, .real .nan),
    ("Infinity".toList, .real (.infinity false)), ("-Infinity".toList, .real (.infinity true))]

/-- The word with which the text begins, with the number of its characters. -/
def scanWord (cs : List Char) : Option (Token × Nat) :=
  words.findSome? fun (word, value) => if word.isPrefixOf cs then some (.atom value, word.length) else none

/-- A number or a word. -/
def scanAtom (c : Char) (rest : List Char) : Option (Token × Nat) :=
  (scanWord (c :: rest)).or <|
    if c = '-' then (scanNumber true rest).map fun (token, length) => (token, length + 1)
    else scanNumber false (c :: rest)

/-- The token that begins with a character, and the number of characters behind that one which belong
to it. -/
def scanToken (position : Nat) (c : Char) (rest : List Char) : Token × Nat :=
  if c = '[' then (.openArray, 0)
  else if c = ']' then (.closeArray, 0)
  else if c = '{' then (.openObject, 0)
  else if c = '}' then (.closeObject, 0)
  else if c = ',' then (.comma, 0)
  else if c = ':' then (.colon, 0)
  else if c = '"' then
    match scanText position (position + 1) [] rest with
    | .ok (pieces, behind) => (.text (String.ofList (joinPieces pieces)), behind - (position + 1))
    | .error e => (.broken e, rest.length)
  else
    match scanAtom c rest with
    | some (token, length) => (token, length - 1)
    | none => (.stray, 0)

/-- The tokens of a text that begins at a position, after some characters that belong to the token
before it. -/
def tokensFrom : Nat → Nat → List Char → List Located
  | _, position, [] => [⟨position, .finish⟩]
  | skip + 1, position, _ :: rest => tokensFrom skip (position + 1) rest
  | 0, position, c :: rest =>
    if isSeparator c then tokensFrom 0 (position + 1) rest
    else
      let (token, length) := scanToken position c rest
      ⟨position, token⟩ :: tokensFrom length (position + 1) rest

/-- The tokens of a text. -/
def tokens (cs : List Char) : List Located := tokensFrom 0 0 cs

end VerbForms.Json
