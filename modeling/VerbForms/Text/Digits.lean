import VerbForms.Text.Blank

/-!
# Parts and digits

Cutting characters at a separator, and the numbers that decimal digits stand for.
-/

namespace VerbForms.Text

/-- The parts of a list of characters between separators. -/
def splitAt (separator : Char) : List Char → List (List Char)
  | [] => [[]]
  | c :: rest =>
    match splitAt separator rest with
    | [] => [[c]]
    | part :: parts => if c = separator then [] :: part :: parts else (c :: part) :: parts

/-- The number of decimal digits. -/
def naturalOf (digits : List Char) : Nat := digits.foldl (fun n c => 10 * n + (c.toNat - '0'.toNat)) 0

/-- The number that digits with single underscores between them stand for. -/
def groupedNumber? (cs : List Char) : Option Nat :=
  let groups := splitAt '_' cs
  if groups.all fun group => !group.isEmpty && group.all Char.isDigit then some (naturalOf (cs.filter (· != '_')))
  else none

/-- The number that such digits behind an optional sign stand for. -/
def signedNumber? (cs : List Char) : Option Int :=
  match cs with
  | '-' :: digits => (groupedNumber? digits).map fun n => -(n : Int)
  | '+' :: digits => (groupedNumber? digits).map Int.ofNat
  | digits => (groupedNumber? digits).map Int.ofNat

end VerbForms.Text
