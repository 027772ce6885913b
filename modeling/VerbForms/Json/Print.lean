import VerbForms.Json.Value
import VerbForms.Json.Number
import VerbForms.Text.Units

/-!
# Printing of JSON values

`Json.print` writes a value as a list of ASCII characters in one of two layouts. A text is written
between quotes, with short escapes where there are any and otherwise with one escape per 16-bit unit
for each character outside printable ASCII.
-/

namespace VerbForms.Json

/-- Where the pieces of arrays and objects go. -/
inductive Layout where
  /-- All on one line, a blank after each comma and colon. -/
  | line
  /-- One piece per line, indented by a number of blanks per level. -/
  | block (width : Nat)
  deriving DecidableEq, Repr

/-- What stands before the first piece and before the closing bracket at a depth. -/
def Layout.lineBreak : Layout → Nat → List Char
  | .line, _ => []
  | .block width, depth => '\n' :: List.replicate (width * depth) ' '

/-- What stands between two pieces at a depth. -/
def Layout.between : Layout → Nat → List Char
  | .line, _ => [',', ' ']
  | .block width, depth => ',' :: Layout.lineBreak (.block width) depth

/-- A digit of an escape, in lower case. -/
def hexDigit (n : Nat) : Char := if n < 10 then Char.ofNat (48 + n) else Char.ofNat (87 + n)

/-- The escape of a 16-bit unit. -/
def unitEscape (unit : Nat) : List Char :=
  ['\\', 'u', hexDigit (unit / 4096 % 16), hexDigit (unit / 256 % 16), hexDigit (unit / 16 % 16), hexDigit (unit % 16)]

/-- A character as it stands between quotes. -/
def charText (c : Char) : List Char :=
  if c = '"' then ['\\', '"']
  else if c = '\\' then ['\\', '\\']
  else if c = '\n' then ['\\', 'n']
  else if c = '\r' then ['\\', 'r']
  else if c = '\t' then ['\\', 't']
  else if c = '\x08' then ['\\', 'b']
  else if c = '\x0c' then ['\\', 'f']
  else if 32 ≤ c.toNat ∧ c.toNat < 127 then [c]
  else (Text.units16 c).flatMap unitEscape

/-- A text between quotes. -/
def quotedText (s : List Char) : List Char := '"' :: (s.flatMap charText ++ ['"'])

mutual

/-- The text of a value at a depth of nesting. -/
def printAt (layout : Layout) (depth : Nat) : Json → List Char
  | .null => "null".toList
  | .bool true => "true".toList
  | .bool false => "false".toList
  | .int n => integerText n
  | .real x => doubleText numberForm x
  | .text s => quotedText s.toList
  | .array [] => ['[', ']']
  | .array (item :: rest) =>
    '[' :: (layout.lineBreak (depth + 1) ++ printAt layout (depth + 1) item
      ++ printItems layout (depth + 1) rest ++ layout.lineBreak depth ++ [']'])
  | .object [] => ['{', '}']
  | .object ((key, value) :: rest) =>
    '{' :: (layout.lineBreak (depth + 1) ++ quotedText key.toList ++ ':' :: ' ' :: printAt layout (depth + 1) value
      ++ printMembers layout (depth + 1) rest ++ layout.lineBreak depth ++ ['}'])

/-- The items after the first one, each with what separates it from the one before. -/
def printItems (layout : Layout) (depth : Nat) : List Json → List Char
  | [] => []
  | item :: rest => layout.between depth ++ printAt layout depth item ++ printItems layout depth rest

/-- The members after the first one, each with what separates it from the one before. -/
def printMembers (layout : Layout) (depth : Nat) : List (String × Json) → List Char
  | [] => []
  | (key, value) :: rest =>
    layout.between depth ++ quotedText key.toList ++ ':' :: ' ' :: printAt layout depth value
      ++ printMembers layout depth rest

end

/-- The text of a value in a layout. -/
def print (layout : Layout) (value : Json) : String := String.ofList (printAt layout 0 value)

/-- The text of a value on one line. -/
def compact (value : Json) : String := print .line value

/-- The text of a value over several lines, two blanks per level. -/
def indented (value : Json) : String := print (.block 2) value

end VerbForms.Json
