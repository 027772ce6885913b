import VerbForms.Proofs.Decimal.Shortest
import VerbForms.Proofs.Json.RoundTrip
import Mathlib.Data.List.DropRight

/-!
# Printed doubles are read back

The text of a double is scanned as digits and a scale that stand for the same number as the shortest digits
of the double (`scansAs_scaled`), so reading it gives the double back (`keepsDouble_of_canonical`).
-/

namespace VerbForms.Json

variable {digits whole fraction tail : List Char} {negative : Bool} {form : NumberForm}

/-! ### Digits -/

theorem naturalOf_eq (cs : List Char) : Text.naturalOf cs = Nat.ofDigitChars 10 cs 0 := by
  rw [Text.naturalOf, ← Nat.ofDigitChars_eq_foldl]

theorem naturalOf_append_zeros (cs : List Char) (n : Nat) :
    Text.naturalOf (cs ++ List.replicate n '0') = Text.naturalOf cs * 10 ^ n := by
  rw [naturalOf_eq, naturalOf_eq, Nat.ofDigitChars_append, Nat.ofDigitChars_replicate_zero, mul_comm]

theorem naturalOf_zeros_append (n : Nat) (cs : List Char) :
    Text.naturalOf (List.replicate n '0' ++ cs) = Text.naturalOf cs := by
  rw [naturalOf_eq, naturalOf_eq, Nat.ofDigitChars_append, Nat.ofDigitChars_replicate_zero, mul_zero]

/-- Zeros behind digits and a place make up one place. -/
theorem cast_mul_zpow (n zeros : Nat) (place : Int) :
    ((n * 10 ^ zeros : Nat) * 10 ^ place : ℚ) = n * 10 ^ (zeros + place) := by
  rw [zpow_add₀ (by norm_num), zpow_natCast]
  push_cast
  ring

/-- The text ends or goes on with something else than a digit. -/
def NoDigit (rest : List Char) : Prop := ∀ c ∈ rest.head?, c.isDigit = false

theorem noDigit_nil : NoDigit [] := fun _ same ↦ by cases same

theorem takeWhile_digits (h : ∀ c ∈ digits, c.isDigit = true) (rest : NoDigit tail) :
    (digits ++ tail).takeWhile Char.isDigit = digits := by
  rw [List.takeWhile_append_of_pos h]
  cases tail with
  | nil => simp
  | cons c tail => simp [rest c rfl]

theorem dropWhile_digits (h : ∀ c ∈ digits, c.isDigit = true) (rest : NoDigit tail) :
    (digits ++ tail).dropWhile Char.isDigit = tail := by
  rw [List.dropWhile_append_of_pos h]
  cases tail with
  | nil => rfl
  | cons c tail => simp [rest c rfl]

/-- Digits before a point: a zero alone, or digits of which the first is not zero. -/
def IsWhole (whole : List Char) : Prop :=
  whole = ['0'] ∨ ∃ d ds, whole = d :: ds ∧ d ≠ '0' ∧ ∀ c ∈ whole, c.isDigit = true

theorem scanWhole_of_isWhole (h : IsWhole whole) (rest : NoDigit tail) :
    scanWhole (whole ++ tail) = whole := by
  rcases h with rfl | ⟨d, ds, rfl, nonzero, digits⟩
  · rfl
  · rw [List.cons_append, scanWhole, if_neg nonzero, ← List.cons_append, takeWhile_digits digits rest]

/-! ### Exponents -/

theorem noDigit_exponentText (form : NumberForm) (e : Int) : NoDigit (exponentText form e) := by
  intro c same
  rw [exponentText] at same
  rw [← Option.some.inj same]
  rfl

theorem scanExponent_exponentText (form : NumberForm) (e : Int) :
    scanExponent (exponentText form e) = some ⟨e, (exponentText form e).length⟩ := by
  have all : ∀ c ∈ List.replicate (form.exponentWidth - (naturalText e.natAbs).length) '0' ++
      naturalText e.natAbs, c.isDigit = true := by
    intro c mem
    rcases List.mem_append.mp mem with zero | digit
    · rw [List.eq_of_mem_replicate zero]
      rfl
    · exact isDigit_of_mem_naturalText digit
  have value :=
    naturalOf_zeros_append (form.exponentWidth - (naturalText e.natAbs).length) (naturalText e.natAbs)
  have nonempty : (List.replicate (form.exponentWidth - (naturalText e.natAbs).length) '0' ++
      naturalText e.natAbs).isEmpty = false := by
    rw [List.isEmpty_eq_false_iff, ne_eq, List.append_eq_nil_iff]
    exact fun none ↦ naturalText_ne_nil _ none.2
  rw [naturalOf_naturalText] at value
  rw [exponentText, scanExponent_cons, if_pos (.inl rfl)]
  dsimp only
  generalize List.replicate (form.exponentWidth - (naturalText e.natAbs).length) '0' ++
    naturalText e.natAbs = written at *
  have scanned := takeWhile_digits all noDigit_nil
  rw [List.append_nil] at scanned
  split
  · next less =>
    have sign : exponentSign ('-' :: written) = (true, 1) := rfl
    rw [sign]
    dsimp only
    rw [List.drop_one, List.tail_cons, scanned, nonempty, value]
    simp only [Bool.false_eq_true, if_false, if_true, List.length_cons]
    congr 2
    · omega
    · omega
  · next notLess =>
    have sign : exponentSign ('+' :: written) = (false, 1) := rfl
    rw [sign]
    dsimp only
    rw [List.drop_one, List.tail_cons, scanned, nonempty, value]
    simp only [Bool.false_eq_true, if_false, List.length_cons]
    congr 2
    · omega
    · omega

/-! ### Parts of a number -/

/-- The text as a whole is scanned as the double for a decimal number of this value. -/
def ScansAs (negative : Bool) (text : List Char) (value : ℚ) : Prop :=
  ∃ (digits : Nat) (scale : Int), (digits * 10 ^ scale : ℚ) = value ∧
    scanNumber negative text = some (.atom (.real (Double.ofDecimal negative digits scale)), text.length)

/-- A point and digits, or nothing where there are no digits. -/
def pointed (fraction : List Char) : List Char := if fraction.isEmpty then [] else '.' :: fraction

theorem noDigit_pointed_append (ends : NoDigit tail) : NoDigit (pointed fraction ++ tail) := by
  rw [pointed]
  split
  · exact ends
  · intro c same
    rw [← Option.some.inj same]
    rfl

theorem scanFraction_pointed (digits : ∀ c ∈ fraction, c.isDigit = true) (ends : NoDigit tail)
    (noPoint : ∀ rest, tail ≠ '.' :: rest) : scanFraction (pointed fraction ++ tail) = (fraction, tail) := by
  rw [pointed]
  split
  · next none =>
    rw [List.isEmpty_iff] at none
    rw [none]
    exact scanFraction_other noPoint
  · next some =>
    rw [List.cons_append, scanFraction_point, takeWhile_digits digits ends, dropWhile_digits digits ends,
      if_neg some]

/-- Digits before a point, digits behind it and an exponent. -/
theorem scansAs_parts (isWhole : IsWhole whole) (digits : ∀ c ∈ fraction, c.isDigit = true)
    (ends : NoDigit tail) (noPoint : ∀ rest, tail ≠ '.' :: rest) {exponent : Option Exponent}
    (scan : scanExponent tail = exponent) (length : (exponent.map (·.length)).getD 0 = tail.length)
    (real : fraction ≠ [] ∨ exponent ≠ none) :
    ScansAs negative (whole ++ (pointed fraction ++ tail))
      (Text.naturalOf (whole ++ fraction) * 10 ^ ((exponent.map (·.value)).getD 0 - fraction.length)) := by
  have nonempty : whole.isEmpty = false := by
    rcases isWhole with rfl | ⟨d, ds, rfl, -⟩ <;> rfl
  refine ⟨_, _, rfl, ?_⟩
  rw [scanNumber_eq, scanWhole_of_isWhole isWhole (noDigit_pointed_append ends), nonempty, List.drop_left,
    scanFraction_pointed digits ends noPoint]
  dsimp only
  rw [scan]
  have token : numberToken negative whole fraction exponent =
      (.atom (.real (Double.ofDecimal negative (Text.naturalOf (whole ++ fraction))
        ((exponent.map (·.value)).getD 0 - fraction.length))),
        whole.length + (if fraction.isEmpty then 0 else 1) + fraction.length +
          (exponent.map (·.length)).getD 0) := by
    unfold numberToken
    split
    · exact absurd real (by simp)
    · rfl
  have total : (whole ++ (pointed fraction ++ tail)).length =
      whole.length + (if fraction.isEmpty then 0 else 1) + fraction.length + tail.length := by
    rw [List.length_append, List.length_append, pointed]
    split
    · next none => simp [List.isEmpty_iff.mp none]
    · rw [List.length_cons]
      omega
  rw [total, ← length]
  exact congrArg some token

/-- Digits before a point and behind it. -/
theorem scansAs_fraction (isWhole : IsWhole whole) (digits : ∀ c ∈ fraction, c.isDigit = true)
    (some : fraction ≠ []) : ScansAs negative (whole ++ '.' :: fraction)
      (Text.naturalOf (whole ++ fraction) * 10 ^ (-fraction.length : Int)) := by
  have noExponent : scanExponent [] = none := rfl
  have parts : ScansAs negative _ _ := scansAs_parts isWhole digits noDigit_nil
    (fun _ same ↦ by cases same) noExponent rfl (.inl some)
  rw [pointed, if_neg (by simpa using some), List.append_nil] at parts
  simpa using parts

/-- Digits and an exponent. -/
theorem scansAs_exponent (isWhole : IsWhole whole) (digits : ∀ c ∈ fraction, c.isDigit = true)
    (form : NumberForm) (e : Int) : ScansAs negative (whole ++ (pointed fraction ++ exponentText form e))
      (Text.naturalOf (whole ++ fraction) * 10 ^ (e - fraction.length)) :=
  scansAs_parts isWhole digits (noDigit_exponentText form e) (fun rest same ↦ by cases same)
    (scanExponent_exponentText form e) rfl (.inr nofun)

/-! ### Digits with their place -/

/-- Digits with zeros in front and a point behind the first zero. -/
theorem scansAs_small (all : ∀ c ∈ digits, c.isDigit = true) (some : digits ≠ []) (zeros : Nat) :
    ScansAs negative ('0' :: '.' :: (List.replicate zeros '0' ++ digits))
      (Text.naturalOf digits * 10 ^ (-(zeros + digits.length : Nat) : Int)) := by
  have more : ∀ c ∈ List.replicate zeros '0' ++ digits, c.isDigit = true := by
    intro c mem
    rcases List.mem_append.mp mem with zero | digit
    · rw [List.eq_of_mem_replicate zero]
      rfl
    · exact all c digit
  have fraction : ScansAs negative _ _ := scansAs_fraction (.inl rfl) more (by simp [some])
  have value : Text.naturalOf (['0'] ++ (List.replicate zeros '0' ++ digits)) = Text.naturalOf digits := by
    have := naturalOf_zeros_append (zeros + 1) digits
    rwa [List.replicate_succ, List.cons_append] at this
  rwa [value, List.length_append, List.length_replicate] at fraction

/-- Digits with zeros behind and a point between two of them. -/
theorem scansAs_plain {d : Char} {ds : List Char} (nonzero : d ≠ '0')
    (digits : ∀ c ∈ d :: ds, c.isDigit = true) (whole : Nat) :
    let padded := d :: ds ++ List.replicate (whole + 1 - (d :: ds).length) '0'
    let places := padded.drop (whole + 1)
    ScansAs negative (padded.take (whole + 1) ++ '.' :: (if places.isEmpty then ['0'] else places))
      (Text.naturalOf (d :: ds) * 10 ^ ((whole : Int) - ds.length)) := by
  intro padded places
  have all : ∀ c ∈ padded, c.isDigit = true := by
    intro c mem
    rcases List.mem_append.mp mem with digit | zero
    · exact digits c digit
    · rw [List.eq_of_mem_replicate zero]
      rfl
  have value : Text.naturalOf padded = Text.naturalOf (d :: ds) * 10 ^ (whole + 1 - (d :: ds).length) :=
    naturalOf_append_zeros (d :: ds) _
  have isWhole : IsWhole (padded.take (whole + 1)) :=
    .inr ⟨d, _, rfl, nonzero, fun c mem ↦ all c (List.mem_of_mem_take mem)⟩
  have total : padded.length = (d :: ds).length + (whole + 1 - (d :: ds).length) := by
    rw [List.length_append, List.length_replicate]
  rw [List.length_cons] at value total
  split
  · next none =>
    have short : padded.length ≤ whole + 1 := List.drop_eq_nil_iff.mp (List.isEmpty_iff.mp none)
    have fraction : ScansAs negative _ _ := scansAs_fraction isWhole
      (List.forall_mem_singleton.mpr rfl) (List.cons_ne_nil '0' [])
    have zero := naturalOf_append_zeros padded 1
    rw [List.take_of_length_le short] at fraction ⊢
    rw [List.replicate_one] at zero
    rw [zero, value, mul_assoc, ← pow_add, cast_mul_zpow] at fraction
    have place : ((whole + 1 - (ds.length + 1) + 1 : Nat) + (-['0'].length : Int)) = whole - ds.length := by
      rw [List.length_singleton]
      omega
    rwa [place] at fraction
  · next some =>
    have long : whole + 1 < padded.length := by
      by_contra short
      exact some (List.isEmpty_iff.mpr (List.drop_eq_nil_iff.mpr (not_lt.mp short)))
    have fraction : ScansAs negative _ _ := scansAs_fraction isWhole
      (fun c mem ↦ all c (List.mem_of_mem_drop mem)) (fun none ↦ some (List.isEmpty_iff.mpr none))
    rw [List.take_append_drop, value, List.length_drop, cast_mul_zpow] at fraction
    have place : ((whole + 1 - (ds.length + 1) : Nat) + (-(padded.length - (whole + 1) : Nat) : Int)) =
        whole - ds.length := by
      omega
    rwa [place] at fraction

/-- Digits that are written with their place are scanned as the number that they stand for there. -/
theorem scansAs_digitsText (form : NumberForm) {d : Char} {ds : List Char} (nonzero : d ≠ '0')
    (digits : ∀ c ∈ d :: ds, c.isDigit = true) (leading : Int) :
    ScansAs negative (digitsText form (d :: ds) leading)
      (Text.naturalOf (d :: ds) * 10 ^ (leading - ds.length)) := by
  unfold digitsText
  split
  · split
    · next less =>
      have small : ScansAs negative _ _ := scansAs_small digits (List.cons_ne_nil d ds) (-leading - 1).toNat
      have place : (-((-leading - 1).toNat + (d :: ds).length : Nat) : Int) = leading - ds.length := by
        rw [List.length_cons]
        omega
      rwa [place] at small
    · next notLess =>
      obtain ⟨whole, rfl⟩ := Int.eq_ofNat_of_zero_le (not_lt.mp notLess)
      exact scansAs_plain nonzero digits whole
  · have isWhole : IsWhole [d] :=
      .inr ⟨d, [], rfl, nonzero, List.forall_mem_singleton.mpr (digits d List.mem_cons_self)⟩
    have exponent : ScansAs negative _ _ := scansAs_exponent isWhole
      (fun c mem ↦ digits c (List.mem_cons_of_mem d mem)) form leading
    cases ds with
    | nil => exact exponent
    | cons c cs => exact exponent

/-- Digits of which the first is not zero, and zeros behind the ones that are kept. -/
theorem exists_dropTrailingZeros_of_pos {n : Nat} (positive : 0 < n) :
    ∃ d ds zeros, dropTrailingZeros (naturalText n) = d :: ds ∧ d ≠ '0' ∧
      naturalText n = d :: ds ++ List.replicate zeros '0' := by
  have parts :
      (naturalText n).rdropWhile (· == '0') ++ (naturalText n).rtakeWhile (· == '0') = naturalText n :=
    List.rdropWhile_append_rtakeWhile
  have zeros : (naturalText n).rtakeWhile (· == '0') =
      List.replicate ((naturalText n).rtakeWhile (· == '0')).length '0' :=
    List.eq_replicate_iff.mpr ⟨rfl, fun _ mem ↦
      beq_iff_eq.mp (List.mem_rtakeWhile_imp (p := (· == '0')) mem)⟩
  obtain ⟨c, cs, text⟩ := List.exists_cons_of_ne_nil (naturalText_ne_nil n)
  have nonzero : c ≠ '0' := by
    rintro rfl
    exact naturalText_ne_zero_cons positive cs text
  cases kept : (naturalText n).rdropWhile (· == '0') with
  | nil =>
    have all := List.rdropWhile_eq_nil_iff.mp kept c (text.symm ▸ List.mem_cons_self)
    exact absurd (beq_iff_eq.mp all) nonzero
  | cons d ds =>
    rw [kept, zeros] at parts
    have same : d = c := (List.cons.inj (parts.trans text)).1
    have reversed : ((naturalText n).reverse.dropWhile (· == '0')).reverse = d :: ds := kept
    refine ⟨d, ds, _, ?_, same ▸ nonzero, parts.symm⟩
    rw [dropTrailingZeros, reversed]

/-- The text of a positive number that is written with digits and a scale is scanned as that number. -/
theorem scansAs_scaled (form : NumberForm) {n : Nat} (positive : 0 < n) (scale : Int) :
    ScansAs negative (digitsText form (dropTrailingZeros (naturalText n)) (scale + (naturalText n).length - 1))
      (n * 10 ^ scale) := by
  obtain ⟨d, ds, zeros, kept, nonzero, text⟩ := exists_dropTrailingZeros_of_pos positive
  have digits : ∀ c ∈ d :: ds, c.isDigit = true := fun c mem ↦
    isDigit_of_mem_naturalText (text.symm ▸ List.mem_append_left _ mem)
  have number : n = Text.naturalOf (d :: ds) * 10 ^ zeros := by
    rw [← naturalOf_append_zeros, ← text, naturalOf_naturalText]
  have scanned : ScansAs negative _ _ := scansAs_digitsText form nonzero digits
    (scale + (naturalText n).length - 1)
  have place : scale + (naturalText n).length - 1 - ds.length = zeros + scale := by
    rw [text, List.length_append, List.length_replicate, List.length_cons]
    omega
  rw [place, ← cast_mul_zpow, ← number] at scanned
  rwa [kept]

/-! ### Doubles -/

theorem leads_real {x : Double} {c : Char} {cs : List Char} (start : StartsAtom c)
    (scan : scanAtom c cs = some (.atom (.real x), cs.length + 1)) :
    readChars (c :: cs) = .ok (.real x) := by
  have blanks : ∀ b ∈ cs.drop (cs.length + 1 - 1), isSeparator b = true := by
    rw [Nat.add_sub_cancel, List.drop_length]
    exact nofun
  obtain ⟨position, same⟩ := leads_atom start scan blanks (.value []) bounded_nil 0
  rw [List.append_nil] at same
  exact same

/-- A number that is scanned as a whole is read, with a sign in front or without. -/
theorem read_of_scanNumber {x : Double} {c : Char} {cs : List Char} (digit : c.isDigit = true)
    (scan : scanNumber negative (c :: cs) = some (.atom (.real x), cs.length + 1)) :
    readChars ((if negative then ['-'] else []) ++ c :: cs) = .ok (.real x) := by
  cases negative with
  | true =>
    have signed : scanAtom '-' (c :: cs) = some (.atom (.real x), (c :: cs).length + 1) := by
      rw [scanAtom, scanWord_minus_of_isDigit digit, Option.none_or, if_pos rfl, scan]
      rfl
    exact leads_real (by decide) signed
  | false =>
    have noMinus : c ≠ '-' := by
      rintro rfl
      cases digit
    refine leads_real (startsAtom_of_isDigit digit) ?_
    rw [scanAtom, scanWord_of_isDigit digit, Option.none_or, if_neg noMinus, scan]

theorem keepsDouble_zero (negative : Bool) : KeepsDouble (.zero negative) := by
  cases negative <;> decide

/-- **The text of a finite double is read as that double.** -/
theorem keepsDouble_of_canonical {m : Nat} {e : Int} (canonical : (Double.finite negative m e).Canonical) :
    KeepsDouble (.finite negative m e) := by
  rcases Nat.eq_zero_or_pos m with rfl | positive
  · obtain ⟨-, -, -, full⟩ := Double.canonical_iff.mp canonical
    obtain rfl : e = Double.leastExponent := full.resolve_left (by decide)
    exact keepsDouble_zero negative
  · obtain ⟨some, rounds⟩ := Decimal.roundsTo_shortest positive canonical
    obtain ⟨digits, scale, value, scan⟩ : ScansAs negative _ _ :=
      scansAs_scaled numberForm some (Decimal.shortest m e).scale
    rw [Decimal.Scaled.value, ← value] at rounds
    rw [Double.ofDecimal_eq rounds positive canonical] at scan
    obtain ⟨d, ds, kept, digit⟩ := exists_dropTrailingZeros
      fun c (mem : c ∈ naturalText (Decimal.shortest m e).digits) ↦ isDigit_of_mem_naturalText mem
    obtain ⟨c, cs, text, digit⟩ := exists_digitsText numberForm digit ds
      ((Decimal.shortest m e).scale + (naturalText (Decimal.shortest m e).digits).length - 1)
    rw [kept, text] at scan
    rw [KeepsDouble, doubleText, if_neg positive.ne']
    dsimp only
    rw [kept, text]
    exact read_of_scanNumber digit scan

end VerbForms.Json
