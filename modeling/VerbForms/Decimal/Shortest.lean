import VerbForms.Decimal.Double

/-!
# Shortest decimal digits of a double

The shortest decimal number that reads back as a given positive double, and of several such numbers
of that length the nearest. For one digit, two digits and so on the two neighbours of the value on
that decimal grid are tested against the interval of numbers that round to the double; if the grid
has a point in the interval, one of the two neighbours is in it.
-/

namespace VerbForms.Decimal

/-- A positive decimal number `digits * 10 ^ scale`. -/
structure Scaled where
  digits : Nat
  scale : Int
  deriving DecidableEq, Repr, Inhabited

/-- Number of decimal digits of a natural number; none for zero. -/
def digitCount (n : Nat) : Nat := if n = 0 then 0 else (Nat.toDigits 10 n).length

/-- A positive double as a fraction, with its rounding interval in quarters of the last binary place:
`value` lies between `low` and `high`, all over `den`. -/
structure Interval where
  low : Nat
  value : Nat
  high : Nat
  den : Nat
  /-- Whether the ends round to the double too. -/
  closed : Bool
  deriving DecidableEq, Repr

/-- The numbers that round to `m * 2 ^ e`. Below a power of two the grid is finer, so the lower end
is nearer there; the ends belong to the even significand. -/
def Interval.ofDouble (m : Nat) (e : Int) : Interval :=
  let below := if m = Double.twoTo (Double.precision - 1) ∧ Double.leastExponent < e then 1 else 2
  let q := e - 2
  let up := Double.twoTo q.toNat
  ⟨(4 * m - below) * up, 4 * m * up, (4 * m + 2) * up, Double.twoTo (-q).toNat, m % 2 == 0⟩

/-- The exponent of the leading digit of the value. -/
def Interval.leadingExponent (i : Interval) : Int :=
  if i.den ≤ i.value then (digitCount (i.value / i.den) : Int) - 1
  else -(digitCount ((i.den + i.value - 1) / i.value - 1) : Int)

/-- `digits * 10 ^ scale` as a numerator over `den`, with the factor by which both sides are raised. -/
private def onGrid (scale : Int) (den : Nat) : Nat × Nat :=
  (Double.tenTo scale.toNat * den, Double.tenTo (-scale).toNat)

/-- Whether `digits * 10 ^ scale` rounds to the double. -/
def Interval.holds (i : Interval) (digits : Nat) (scale : Int) : Bool :=
  let (unit, factor) := onGrid scale i.den
  let point := digits * unit
  if i.closed then i.low * factor ≤ point && point ≤ i.high * factor
  else i.low * factor < point && point < i.high * factor

/-- The nearest grid point at `scale` that rounds to the double, if there is one; of two equally near
ones the one with the even last digit. -/
def Interval.nearest? (i : Interval) (scale : Int) : Option Nat :=
  let (unit, factor) := onGrid scale i.den
  let floor := i.value * factor / unit
  let below := i.value * factor - floor * unit
  let above := unit - below
  match i.holds floor scale && floor != 0, i.holds (floor + 1) scale with
  | false, false => none
  | true, false => some floor
  | false, true => some (floor + 1)
  | true, true =>
    if below < above then some floor
    else if above < below then some (floor + 1)
    else if floor % 2 = 0 then some floor else some (floor + 1)

/-- Try grids with more and more digits; `tries` of them, the finest one deciding if none before it did. -/
def Interval.search (i : Interval) (leading : Int) : Nat → Nat → Scaled
  | 0, count =>
    let scale := leading - count
    let (unit, factor) := onGrid scale i.den
    ⟨i.value * factor / unit, scale⟩
  | tries + 1, count =>
    let scale := leading - count
    match i.nearest? scale with
    | some digits => ⟨digits, scale⟩
    | none => i.search leading tries (count + 1)

/-- Most decimal digits that a double can need. -/
def mostDigits : Nat := 17

/-- The shortest decimal number that reads back as the positive double `m * 2 ^ e`. -/
def shortest (m : Nat) (e : Int) : Scaled :=
  let interval := Interval.ofDouble m e
  interval.search interval.leadingExponent mostDigits 0

end VerbForms.Decimal
