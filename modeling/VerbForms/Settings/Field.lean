import VerbForms.Json.Token
import VerbForms.Text.UpperCase

/-!
# Fields of settings

A field is given as a value or as a text that is read for it: a number may have blanks around it, and a
truth value has several spellings. What does not fit is a fault, of which there is one kind for each
wrong type, each unreadable text and each bound.
-/

namespace VerbForms

/-- Why a value does not fit a field. -/
inductive FieldFault where
  | notText
  | notInteger
  | unreadableInteger
  | fractional
  | notFinite
  | notNumber
  | unreadableNumber
  | notTruth
  | unreadableTruth
  | belowBound
  | aboveBound
  deriving DecidableEq, Repr

/-- The word for a fault. -/
def FieldFault.word : FieldFault → String
  | .notText => "string_type"
  | .notInteger => "int_type"
  | .unreadableInteger => "int_parsing"
  | .fractional => "int_from_float"
  | .notFinite => "finite_number"
  | .notNumber => "float_type"
  | .unreadableNumber => "float_parsing"
  | .notTruth => "bool_type"
  | .unreadableTruth => "bool_parsing"
  | .belowBound => "greater_than_equal"
  | .aboveBound => "less_than_equal"

namespace Field

/-- Blanks around numbers: all but the four separators of ASCII. -/
def isSpace (c : Char) : Bool := Text.isBlank c && !(0x1C ≤ c.toNat && c.toNat ≤ 0x1F)

/-- Characters without the spaces at both ends. -/
def withoutSpaces (cs : List Char) : List Char := ((cs.dropWhile isSpace).reverse.dropWhile isSpace).reverse

/-- The integer of a text, which may have a point and zeros behind its digits. -/
def integerOf? (s : String) : Option Int :=
  let cs := withoutSpaces s.toList
  let whole := cs.takeWhile (· != '.')
  if ((cs.drop whole.length).drop 1).all (· == '0') then Text.signedNumber? whole else none

/-- The double of digits with a point and an exponent; on one side of the point digits may be missing. -/
def decimalOf? (negative : Bool) (cs : List Char) : Option Double :=
  let whole := cs.takeWhile Char.isDigit
  let (fraction, rest) := match cs.drop whole.length with
    | '.' :: rest => (rest.takeWhile Char.isDigit, rest.dropWhile Char.isDigit)
    | rest => ([], rest)
  if whole.isEmpty && fraction.isEmpty then none
  else
    let digits := Text.naturalOf (whole ++ fraction)
    if rest.isEmpty then some (Double.ofDecimal negative digits (-fraction.length))
    else
      (Json.scanExponent rest).bind fun exponent =>
        if exponent.length = rest.length then
          some (Double.ofDecimal negative digits (exponent.value - fraction.length))
        else none

/-- The double of a text without spaces around it. -/
def doubleOf? (cs : List Char) : Option Double :=
  let (negative, rest) := match cs with
    | '-' :: rest => (true, rest)
    | '+' :: rest => (false, rest)
    | rest => (false, rest)
  let word := String.ofList (rest.map Char.toLower)
  if word = "nan" then some .nan
  else if word = "inf" || word = "infinity" then some (.infinity negative)
  else decimalOf? negative rest

/-- The number of a text; single underscores may stand between characters where no spaces are around. -/
def numberOf? (s : String) : Option Double :=
  (doubleOf? (withoutSpaces s.toList)).or <|
    if (Text.splitAt '_' s.toList).all (!·.isEmpty) then doubleOf? (s.toList.filter (· != '_')) else none

/-- The truth value of a word. -/
def truthOf? (s : String) : Option Bool :=
  let word := Text.lower s
  if ["1", "true", "t", "yes", "y", "on"].contains word then some true
  else if ["0", "false", "f", "no", "n", "off"].contains word then some false
  else none

/-- A text. -/
def text : Json → Except FieldFault String
  | .text s => .ok s
  | _ => .error .notText

/-- An integer. -/
def integer : Json → Except FieldFault Int
  | .int n => .ok n
  | .bool b => .ok b.toNat
  | .real (.finite negative m e) =>
    match (Double.finite negative m e).whole? with
    | some n => .ok n
    | none => .error .fractional
  | .real _ => .error .notFinite
  | .text s =>
    match integerOf? s with
    | some n => .ok n
    | none => .error .unreadableInteger
  | _ => .error .notInteger

/-- A number. -/
def number : Json → Except FieldFault Double
  | .real x => .ok x
  | .int n => .ok (Double.ofInt n)
  | .bool b => .ok (Double.ofInt b.toNat)
  | .text s =>
    match numberOf? s with
    | some x => .ok x
    | none => .error .unreadableNumber
  | _ => .error .notNumber

/-- The truth value of a number that is zero or one. -/
def truthOfInteger (n : Int) : Except FieldFault Bool :=
  if n = 0 then .ok false else if n = 1 then .ok true else .error .unreadableTruth

/-- A truth value. -/
def truth : Json → Except FieldFault Bool
  | .bool b => .ok b
  | .int n => truthOfInteger n
  | .real x =>
    match x.whole? with
    | some n => truthOfInteger n
    | none => .error .notTruth
  | .text s =>
    match truthOf? s with
    | some b => .ok b
    | none => .error .unreadableTruth
  | _ => .error .notTruth

/-- A value within bounds. -/
def within {α : Type} (less : α → α → Bool) (low high : α) (value : α) : Except FieldFault α :=
  if less high value then .error .aboveBound else if less value low then .error .belowBound else .ok value

end Field

end VerbForms
