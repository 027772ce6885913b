/-!
# Blanks

The blank characters of Unicode, the removal of blanks from both ends of a text, and tests for parts of a
text.
-/

namespace VerbForms.Text

/-- Blank characters: the white space of Unicode and the four separators of ASCII. -/
def isBlank (c : Char) : Bool :=
  let n := c.toNat
  (0x09 ≤ n && n ≤ 0x0D) || (0x1C ≤ n && n ≤ 0x20) || n == 0x85 || n == 0xA0 || n == 0x1680
    || (0x2000 ≤ n && n ≤ 0x200A) || n == 0x2028 || n == 0x2029 || n == 0x202F || n == 0x205F || n == 0x3000

/-- Characters without the blanks at both ends. -/
def trimChars (cs : List Char) : List Char := ((cs.dropWhile isBlank).reverse.dropWhile isBlank).reverse

/-- A text without the blanks at both ends. -/
def trim (s : String) : String := String.ofList (trimChars s.toList)

/-- A text without the given characters at its left end. -/
def dropLeading (drop : Char → Bool) (s : String) : String := String.ofList (s.toList.dropWhile drop)

/-- Whether a text begins with another one. -/
def beginsWith (start s : String) : Bool := start.toList.isPrefixOf s.toList

/-- Whether characters occur one after the other in a list. -/
def occursIn (part : List Char) : List Char → Bool
  | [] => part.isEmpty
  | c :: rest => part.isPrefixOf (c :: rest) || occursIn part rest

/-- Whether a text holds another one. -/
def holds (part s : String) : Bool := occursIn part.toList s.toList

end VerbForms.Text
