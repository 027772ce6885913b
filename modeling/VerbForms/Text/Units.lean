/-!
# Sixteen-bit units

A character as one or two 16-bit units: itself below `2 ^ 16`, else a leading and a trailing surrogate,
and the way back from units to characters.
-/

namespace VerbForms.Text

/-- The 16-bit units of a character. -/
def units16 (c : Char) : List Nat :=
  if c.toNat < 0x10000 then [c.toNat]
  else
    let offset := c.toNat - 0x10000
    [0xD800 + offset / 0x400, 0xDC00 + offset % 0x400]

/-- Leading surrogates. -/
def isLeadingUnit (unit : Nat) : Bool := 0xD800 ≤ unit && unit < 0xDC00

/-- Trailing surrogates. -/
def isTrailingUnit (unit : Nat) : Bool := 0xDC00 ≤ unit && unit < 0xE000

/-- The character of a surrogate pair. -/
def pairChar (leading trailing : Nat) : Char :=
  Char.ofNat (0x10000 + (leading - 0xD800) * 0x400 + (trailing - 0xDC00))

/-- Stands for what is no character. -/
def replacement : Char := '\uFFFD'

/-- The character of a single unit; a surrogate alone is no character. -/
def unitChar (unit : Nat) : Char :=
  if isLeadingUnit unit || isTrailingUnit unit then replacement else Char.ofNat unit

end VerbForms.Text
