import VerbForms.Decimal.Shortest

/-!
# Number texts

How numbers are written in JSON texts: integers digit by digit, doubles with the shortest digits that
read back and always with a point or an exponent, the exponent form standing outside a fixed range of
magnitudes. `NumberForm` records the choices.
-/

namespace VerbForms.Json

/-- Choices in the writing of doubles. -/
structure NumberForm where
  /-- Least leading exponent written with places instead of an exponent. -/
  leastPlain : Int
  /-- Greatest leading exponent written with places instead of an exponent. -/
  greatestPlain : Int
  /-- Least number of digits of a written exponent. -/
  exponentWidth : Nat
  /-- The texts of the special values. -/
  nan : List Char
  infinity : List Char

/-- Doubles are written plainly from `0.0001` up to `10 ^ 16`, and exponents have two digits at least. -/
def numberForm : NumberForm := ⟨-4, 15, 2, "NaN".toList, "Infinity".toList⟩

/-- The decimal digits of a natural number. -/
def naturalText (n : Nat) : List Char := Nat.toDigits 10 n

/-- An integer in decimal digits. -/
def integerText : Int → List Char
  | .ofNat n => naturalText n
  | .negSucc n => '-' :: naturalText (n + 1)

/-- A written exponent: sign, then digits padded with zeros on the left. -/
def exponentText (form : NumberForm) (e : Int) : List Char :=
  let digits := naturalText e.natAbs
  'e' :: (if e < 0 then '-' else '+') :: (List.replicate (form.exponentWidth - digits.length) '0' ++ digits)

/-- Digits without the zeros at their end, of which at least one digit stays. -/
def dropTrailingZeros (digits : List Char) : List Char :=
  match (digits.reverse.dropWhile (· == '0')).reverse with
  | [] => ['0']
  | kept => kept

/-- Digits `d₁d₂…` that stand for `d₁.d₂… * 10 ^ leading`, written in the given form. -/
def digitsText (form : NumberForm) (digits : List Char) (leading : Int) : List Char :=
  if form.leastPlain ≤ leading ∧ leading ≤ form.greatestPlain then
    if leading < 0 then
      '0' :: '.' :: (List.replicate (-leading - 1).toNat '0' ++ digits)
    else
      let whole := leading.toNat + 1
      let padded := digits ++ List.replicate (whole - digits.length) '0'
      let places := padded.drop whole
      padded.take whole ++ '.' :: (if places.isEmpty then ['0'] else places)
  else
    let mantissa := match digits with
      | [] => []
      | [d] => [d]
      | d :: rest => d :: '.' :: rest
    mantissa ++ exponentText form leading

/-- The text of a double. -/
def doubleText (form : NumberForm) : Double → List Char
  | .nan => form.nan
  | .infinity negative => (if negative then ['-'] else []) ++ form.infinity
  | .finite negative m e =>
    let sign := if negative then ['-'] else []
    if m = 0 then sign ++ ['0', '.', '0']
    else
      let short := Decimal.shortest m e
      let digits := naturalText short.digits
      sign ++ digitsText form (dropTrailingZeros digits) (short.scale + digits.length - 1)

end VerbForms.Json
