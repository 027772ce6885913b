/-!
# Double-precision numbers

A double is a sign, a significand below `2 ^ 53` and a binary exponent, or one of the special values.
All rounding is done in exact integer arithmetic: `Double.ofDecimal` gives the double nearest to a
decimal number, a tie going to the even significand.
-/

namespace VerbForms

/-- A double-precision number. `finite negative m e` stands for `m * 2 ^ e`, with the sign kept for zero. -/
inductive Double where
  | nan
  | infinity (negative : Bool)
  | finite (negative : Bool) (significand : Nat) (exponent : Int)
  deriving DecidableEq, Inhabited, Repr

namespace Double

/-- A power of two. -/
def twoTo (n : Nat) : Nat := Nat.pow 2 n

/-- A power of ten. -/
def tenTo (n : Nat) : Nat := Nat.pow 10 n

/-- The least exponent of a double. -/
def leastExponent : Int := -1074

/-- The greatest exponent of a finite double. -/
def greatestExponent : Int := 971

/-- Number of bits of a full significand. -/
def precision : Nat := 53

/-- The forms that doubles take: a full significand, or a shorter one at the least exponent. -/
def Canonical : Double → Prop
  | .nan => True
  | .infinity _ => True
  | .finite _ m e =>
    m < twoTo precision ∧ leastExponent ≤ e ∧ e ≤ greatestExponent ∧ (twoTo (precision - 1) ≤ m ∨ e = leastExponent)

/-- Zero with a sign. -/
def zero (negative : Bool) : Double := .finite negative 0 leastExponent

/-- Zero of either sign. -/
def isZero : Double → Bool
  | .finite _ 0 _ => true
  | _ => false

/-- The quotient rounded to the nearest integer, a half going to the even neighbour. -/
def divNearest (num den : Nat) : Nat :=
  let q := num / den
  let r := num % den
  if 2 * r < den then q
  else if den < 2 * r then q + 1
  else if q % 2 = 0 then q else q + 1

/-- `num / den` with the binary point moved `shift` places to the left, rounded to an integer. -/
def scaledNearest (num den : Nat) (shift : Int) : Nat :=
  if 0 ≤ shift then divNearest num (den * twoTo shift.toNat) else divNearest (num * twoTo (-shift).toNat) den

/-- The exponent at which the integer part of `num / den` has 53 or 54 bits, but at least the least one. -/
def guessExponent (num den : Nat) : Int :=
  max leastExponent ((num.log2 : Int) - (den.log2 : Int) - (precision : Int))

/-- The double nearest to the positive number `num / den`. -/
def ofRatio (negative : Bool) (num den : Nat) : Double :=
  let guess := guessExponent num den
  let whole := scaledNearest num den guess
  let e := if whole < twoTo precision then guess else guess + 1
  let m := scaledNearest num den e
  let (m, e) := if m < twoTo precision then (m, e) else (twoTo (precision - 1), e + 1)
  if greatestExponent < e then .infinity negative else .finite negative m e

/-- The double nearest to `digits * 10 ^ scale`. Numbers far outside the range are recognised by the
number of their bits, so that no power of ten is built for them. -/
def ofDecimal (negative : Bool) (digits : Nat) (scale : Int) : Double :=
  if digits = 0 then zero negative
  else if 0 ≤ scale then
    if 400 < scale then .infinity negative else ofRatio negative (digits * tenTo scale.toNat) 1
  else
    let places := (-scale).toNat
    if digits.log2 + 1200 < 3 * places then zero negative else ofRatio negative digits (tenTo places)

/-- The double nearest to an integer. -/
def ofInt (n : Int) : Double := ofDecimal (n < 0) n.natAbs 0

/-- The value of a finite double in units of `2 ^ e`, for an exponent not above its own. -/
def inUnits (negative : Bool) (m : Nat) (exponent e : Int) : Int :=
  let n := m * twoTo (exponent - e).toNat
  if negative then -(n : Int) else n

/-- Whether one double is less than another one; nothing is less or greater than what is no number. -/
def less : Double → Double → Bool
  | .nan, _ => false
  | _, .nan => false
  | .infinity a, .infinity b => a && !b
  | .infinity a, .finite .. => a
  | .finite .., .infinity b => !b
  | .finite a m d, .finite b n e => inUnits a m d (min d e) < inUnits b n e (min d e)

/-- The integer that a double is, if it is one. -/
def whole? : Double → Option Int
  | .finite negative m e =>
    let n := if 0 ≤ e then m * twoTo e.toNat else m / twoTo (-e).toNat
    if 0 ≤ e || m % twoTo (-e).toNat == 0 then some (if negative then -(n : Int) else n) else none
  | _ => none

end Double

end VerbForms
