import VerbForms.Decimal.Double
import Mathlib.Algebra.Order.Field.Power
import Mathlib.Data.Rat.Cast.Order
import Mathlib.Tactic.FieldSimp
import Mathlib.Tactic.Linarith
import Mathlib.Tactic.NormNum
import Mathlib.Tactic.Positivity
import Mathlib.Tactic.Ring

/-!
# Rounding to doubles

What it is for a number to round to a double (`Double.RoundsTo`), and that the conversion of decimal
numbers gives the double to which the number rounds (`Double.ofDecimal_eq`). What the conversion gives has
one of the forms of doubles (`Double.canonical_ofDecimal`).
-/

namespace VerbForms.Double

variable {x y : ℚ} {m n num den whole : Nat} {e : Int} {negative : Bool}

@[simp]
theorem cast_twoTo (n : Nat) : (twoTo n : ℚ) = 2 ^ n := by simp [twoTo]

@[simp]
theorem cast_tenTo (n : Nat) : (tenTo n : ℚ) = 10 ^ n := by simp [tenTo]

/-! ### Nearest integers -/

/-- The integer is nearest to the number, and it is even if there is another one as near. -/
structure Rounds (x : ℚ) (m : Nat) : Prop where
  low : m - 1 / 2 ≤ x
  high : x ≤ m + 1 / 2
  even : x = m - 1 / 2 ∨ x = m + 1 / 2 → m % 2 = 0

theorem Rounds.of_lt (low : m - 1 / 2 < x) (high : x < m + 1 / 2) : Rounds x m :=
  ⟨low.le, high.le, fun tie ↦ tie.elim (absurd · low.ne') (absurd · high.ne)⟩

theorem Rounds.mono (h : Rounds x m) (other : Rounds y n) (le : x ≤ y) : m ≤ n := by
  by_contra more
  have next : (n : ℚ) + 1 ≤ m := by exact_mod_cast Nat.lt_of_not_le more
  have low := h.low
  have high := other.high
  -- Both numbers are halfway between the two integers, and both integers are even.
  have even := h.even (.inl (by linarith))
  have even' := other.even (.inr (by linarith))
  have same : (m : ℚ) = n + 1 := by linarith
  have same : m = n + 1 := by exact_mod_cast same
  omega

theorem Rounds.unique (h : Rounds x m) (other : Rounds x n) : m = n :=
  Nat.le_antisymm (h.mono other le_rfl) (other.mono h le_rfl)

/-- An even integer is below every integer to which a number at least halfway to it rounds. -/
theorem Rounds.le_of_even (h : Rounds x n) (even : m % 2 = 0) (le : m - 1 / 2 ≤ x) : m ≤ n :=
  Rounds.mono ⟨le_rfl, by linarith, fun _ ↦ even⟩ h le

theorem rounds_natCast (m : Nat) : Rounds m m :=
  .of_lt (by linarith) (by linarith)

theorem rounds_divNearest (num : Nat) (pos : 0 < den) : Rounds (num / den) (divNearest num den) := by
  have pos' : (0 : ℚ) < den := by exact_mod_cast pos
  have parts : (num / den : ℚ) = (num / den : Nat) + (num % den : Nat) / den := by
    have total : (den : ℚ) * (num / den : Nat) + (num % den : Nat) = num := by
      exact_mod_cast Nat.div_add_mod num den
    rw [← total]
    field_simp
  have less : ((num % den : Nat) : ℚ) / den < 1 := by
    rw [div_lt_one pos']
    exact_mod_cast Nat.mod_lt num pos
  have nonneg : (0 : ℚ) ≤ (num % den : Nat) / den := by positivity
  have half : ((num % den : Nat) : ℚ) / den < 1 / 2 ↔ 2 * (num % den) < den := by
    rw [div_lt_div_iff₀ pos' two_pos, mul_comm, one_mul]
    exact_mod_cast Iff.rfl
  have half' : 1 / 2 < ((num % den : Nat) : ℚ) / den ↔ den < 2 * (num % den) := by
    rw [div_lt_div_iff₀ two_pos pos', mul_comm _ (2 : ℚ), one_mul]
    exact_mod_cast Iff.rfl
  rw [parts, divNearest]
  split
  · next below =>
    have below := half.mpr below
    exact .of_lt (by linarith) (by linarith)
  · next above =>
    rw [← half, not_lt] at above
    split
    · next more =>
      have more := half'.mpr more
      exact .of_lt (by push_cast; linarith) (by push_cast; linarith)
    · next notMore =>
      rw [← half', not_lt] at notMore
      split
      · next even => exact ⟨by linarith, by linarith, fun _ ↦ even⟩
      · next odd => exact ⟨by push_cast; linarith, by push_cast; linarith, fun _ ↦ by omega⟩

theorem rounds_scaledNearest (num : Nat) (pos : 0 < den) (shift : Int) :
    Rounds (num / den / 2 ^ shift) (scaledNearest num den shift) := by
  have two : (2 : ℚ) ≠ 0 := two_ne_zero
  rw [scaledNearest]
  split
  · next left =>
    have scaled := rounds_divNearest num (Nat.mul_pos pos (Nat.pow_pos (n := shift.toNat) two_pos))
    obtain ⟨places, rfl⟩ := Int.eq_ofNat_of_zero_le left
    simpa [div_div, twoTo] using scaled
  · next right =>
    obtain ⟨places, same⟩ := Int.eq_ofNat_of_zero_le (a := -shift) (by omega)
    obtain rfl : shift = -places := by omega
    have scaled := rounds_divNearest (num * twoTo places) pos
    have value : (num / den / 2 ^ (-(places : Int)) : ℚ) = (num * twoTo places : Nat) / den := by
      rw [zpow_neg, zpow_natCast, Nat.cast_mul, cast_twoTo]
      field_simp
    rw [value]
    simpa using scaled

/-! ### The guess of the exponent -/

/-- The exponent that is guessed is not too small. -/
theorem lt_two_pow_guessExponent (num : Nat) (pos : 0 < den) :
    (num / den : ℚ) < 2 ^ 54 * 2 ^ guessExponent num den := by
  have pos' : (0 : ℚ) < den := by exact_mod_cast pos
  have above : (num : ℚ) < 2 ^ (num.log2 + 1) := by exact_mod_cast Nat.lt_log2_self
  have below : (2 : ℚ) ^ den.log2 ≤ den := by exact_mod_cast Nat.log2_self_le pos.ne'
  calc (num / den : ℚ) < 2 ^ (num.log2 + 1) / 2 ^ den.log2 := by
        gcongr
    _ = 2 ^ ((num.log2 : Int) + 1 - den.log2) := by
        rw [zpow_sub₀ two_ne_zero, ← Nat.cast_succ, zpow_natCast, zpow_natCast]
    _ ≤ 2 ^ (54 + guessExponent num den) := by
        refine zpow_le_zpow_right₀ one_le_two ?_
        rw [guessExponent, precision]
        omega
    _ = 2 ^ 54 * 2 ^ guessExponent num den := by
        rw [zpow_add₀ two_ne_zero]
        rfl

/-- The exponent that is guessed is not too great, unless there is no smaller one. -/
theorem two_pow_guessExponent_lt (pos : 0 < den) (positive : 0 < num)
    (free : guessExponent num den ≠ leastExponent) :
    2 ^ 52 * 2 ^ guessExponent num den < (num / den : ℚ) := by
  have pos' : (0 : ℚ) < den := by exact_mod_cast pos
  have above : (den : ℚ) < 2 ^ (den.log2 + 1) := by exact_mod_cast Nat.lt_log2_self
  have below : (2 : ℚ) ^ num.log2 ≤ num := by exact_mod_cast Nat.log2_self_le positive.ne'
  have guess : guessExponent num den = (num.log2 : Int) - den.log2 - 53 := by
    rw [guessExponent, precision] at free ⊢
    omega
  calc (2 ^ 52 * 2 ^ guessExponent num den : ℚ) = 2 ^ (52 + guessExponent num den) := by
        rw [zpow_add₀ two_ne_zero]
        rfl
    _ = 2 ^ ((num.log2 : Int) - (den.log2 + 1 : Nat)) := by
        rw [guess]
        congr 1
        omega
    _ = 2 ^ num.log2 / 2 ^ (den.log2 + 1) := by
        rw [zpow_sub₀ two_ne_zero, zpow_natCast, zpow_natCast]
    _ ≤ num / 2 ^ (den.log2 + 1) := by
        gcongr
    _ < num / den := by
        have positive' : (0 : ℚ) < num := by exact_mod_cast positive
        gcongr

/-! ### Numbers that round to a double -/

/-- The number rounds to the double with this significand and exponent. Below the least significand of an
exponent the doubles are twice as dense. -/
structure RoundsTo (x : ℚ) (m : Nat) (e : Int) : Prop where
  rounds : Rounds (x / 2 ^ e) m
  dense : m = 2 ^ 52 → leastExponent < e → m - 1 / 4 ≤ x / 2 ^ e

theorem canonical_iff : Canonical (.finite negative m e) ↔
    m < 2 ^ 53 ∧ leastExponent ≤ e ∧ e ≤ greatestExponent ∧ (2 ^ 52 ≤ m ∨ e = leastExponent) := Iff.rfl

/-- The significand is rounded again where the first one is too long. -/
theorem ofRatio_eq_ite (negative : Bool) (num den : Nat) :
    ofRatio negative num den =
      let guess := guessExponent num den
      let rounded (e : Int) := if greatestExponent < e then .infinity negative
        else Double.finite negative (scaledNearest num den e) e
      if scaledNearest num den guess < 2 ^ 53 then rounded guess
      else if scaledNearest num den (guess + 1) < 2 ^ 53 then rounded (guess + 1)
      else if greatestExponent < guess + 2 then .infinity negative
      else .finite negative (2 ^ 52) (guess + 2) := by
  have full : twoTo precision = 2 ^ 53 := rfl
  have least : twoTo (precision - 1) = 2 ^ 52 := rfl
  rw [ofRatio]
  simp only [full, least]
  split
  · rfl
  · next long =>
    split
    · rfl
    · simp only [add_assoc]
      rfl

/-- Where there are smaller exponents the number is not far below the least full significand. -/
theorem RoundsTo.large (h : RoundsTo x m e) (canonical : Canonical (.finite negative m e))
    (above : leastExponent < e) : 2 ^ 52 - 1 / 4 ≤ x / 2 ^ e := by
  obtain ⟨-, -, -, full⟩ := canonical_iff.mp canonical
  rcases (full.resolve_right above.ne').eq_or_lt with one | further
  · have dense := h.dense one.symm above
    rw [← one] at dense
    exact_mod_cast dense
  · have further : (2 : ℚ) ^ 52 + 1 ≤ m := by exact_mod_cast further
    have low := h.rounds.low
    linarith

theorem RoundsTo.guessExponent_le (h : RoundsTo (num / den) m e)
    (canonical : Canonical (.finite negative m e)) (pos : 0 < den) (positive : 0 < num) :
    guessExponent num den ≤ e := by
  obtain ⟨short, least, -⟩ := canonical_iff.mp canonical
  have short : (m : ℚ) ≤ 2 ^ 53 - 1 := by
    have next : (m : ℚ) + 1 ≤ 2 ^ 53 := by exact_mod_cast Nat.succ_le_of_lt short
    linarith
  by_contra less
  have lower := two_pow_guessExponent_lt pos positive (by omega)
  have step : (2 : ℚ) ^ e ≤ 2 ^ guessExponent num den / 2 := by
    calc (2 : ℚ) ^ e ≤ 2 ^ (guessExponent num den - 1) := zpow_le_zpow_right₀ one_le_two (by omega)
      _ = 2 ^ guessExponent num den / 2 := by rw [zpow_sub₀ two_ne_zero, zpow_one]
  have high := h.rounds.high
  rw [div_le_iff₀ (by positivity)] at high
  have small : ((m : ℚ) + 1 / 2) * 2 ^ e ≤ 2 ^ 53 * (2 ^ guessExponent num den / 2) := by
    gcongr
    linarith
  linarith

theorem RoundsTo.le_guessExponent (h : RoundsTo (num / den) m e)
    (canonical : Canonical (.finite negative m e)) (pos : 0 < den) : e ≤ guessExponent num den + 2 := by
  by_contra more
  have least : leastExponent ≤ guessExponent num den := le_max_left _ _
  have large := h.large canonical (by omega)
  have upper := lt_two_pow_guessExponent num pos
  have step : (2 : ℚ) ^ guessExponent num den * 8 ≤ 2 ^ e := by
    calc (2 : ℚ) ^ guessExponent num den * 8 = 2 ^ (guessExponent num den + 3) := by
          rw [zpow_add₀ two_ne_zero]
          rfl
      _ ≤ 2 ^ e := zpow_le_zpow_right₀ one_le_two (by omega)
  rw [le_div_iff₀ (by positivity)] at large
  have : (2 ^ 52 - 1 / 4) * (2 ^ guessExponent num den * 8) ≤ (2 ^ 52 - 1 / 4 : ℚ) * 2 ^ e := by
    gcongr
  have unit : (0 : ℚ) < 2 ^ guessExponent num den := by positivity
  linarith

/-- **A number is converted to the double to which it rounds.** -/
theorem ofRatio_eq (pos : 0 < den) (positive : 0 < num) (h : RoundsTo (num / den) m e)
    (canonical : Canonical (.finite negative m e)) : ofRatio negative num den = .finite negative m e := by
  obtain ⟨short, -, greatest, full⟩ := canonical_iff.mp canonical
  have least : leastExponent ≤ guessExponent num den := le_max_left _ _
  have lower := h.guessExponent_le canonical pos positive
  have upper := h.le_guessExponent canonical pos
  have rounds := rounds_scaledNearest num pos
  have long {shift : Int} (above : 2 ^ 53 - 1 / 2 ≤ (num / den / 2 ^ shift : ℚ)) :
      ¬ scaledNearest num den shift < 2 ^ 53 :=
    not_lt.mpr ((rounds shift).le_of_even (by norm_num) (by exact_mod_cast above))
  have units (shift : Int) (k : Nat) (same : e = shift + k) :
      (num / den / 2 ^ shift : ℚ) = num / den / 2 ^ e * 2 ^ k := by
    rw [same, zpow_add₀ two_ne_zero, zpow_natCast]
    field_simp
  have bits := lt_two_pow_guessExponent num pos
  rw [ofRatio_eq_ite]
  dsimp only
  generalize guessExponent num den = guess at *
  -- The exponent of the double is the guess, or one or two more.
  obtain rfl | rfl | rfl : e = guess ∨ e = guess + 1 ∨ e = guess + 2 := by omega
  · rw [(rounds e).unique h.rounds, if_pos short, if_neg greatest.not_gt]
  · have large := h.large canonical (by omega)
    have first := units guess 1 rfl
    rw [if_neg (long (by rw [first]; linarith)), (rounds (guess + 1)).unique h.rounds, if_pos short,
      if_neg greatest.not_gt]
  · have large := h.large canonical (by omega)
    have first := units guess 2 rfl
    have second := units (guess + 1) 1 (by omega)
    have one : m = 2 ^ 52 := by
      rw [← div_lt_iff₀ (by positivity), first] at bits
      have low := h.rounds.low
      have most : (m : ℚ) < 2 ^ 52 + 1 := by linarith
      have most : m < 2 ^ 52 + 1 := by exact_mod_cast most
      omega
    rw [if_neg (long (by rw [first]; linarith)), if_neg (long (by rw [second]; linarith)), one,
      if_neg greatest.not_gt]

/-- What a number is converted to has the form of a double. -/
theorem canonical_ofRatio (negative : Bool) (pos : 0 < den) (positive : 0 < num) :
    Canonical (ofRatio negative num den) := by
  have lower := two_pow_guessExponent_lt pos positive
  have least : leastExponent ≤ guessExponent num den := le_max_left _ _
  have rounds := rounds_scaledNearest num pos
  rw [ofRatio_eq_ite]
  dsimp only
  generalize guessExponent num den = guess at *
  have unit : (0 : ℚ) < 2 ^ guess := by positivity
  split
  · next short =>
    split
    · trivial
    · next within =>
      refine ⟨short, least, not_lt.mp within, ?_⟩
      by_cases free : guess = leastExponent
      · exact .inr free
      · have above := lower free
        rw [← lt_div_iff₀ unit] at above
        exact .inl ((rounds_natCast (2 ^ 52)).mono (rounds guess) (by exact_mod_cast above.le))
  · next long =>
    split
    · next short =>
      split
      · trivial
      · next within =>
        refine ⟨short, by omega, not_lt.mp within, .inl ?_⟩
        have half : (num / den / 2 ^ (guess + 1) : ℚ) = num / den / 2 ^ guess / 2 := by
          rw [zpow_add₀ two_ne_zero, zpow_one, ← div_div]
        have above : (2 : ℚ) ^ 53 ≤ scaledNearest num den guess := by exact_mod_cast not_lt.mp long
        have low := (rounds guess).low
        have high := (rounds (guess + 1)).high
        have : (2 : ℚ) ^ 52 - 1 < scaledNearest num den (guess + 1) := by linarith
        have : 2 ^ 52 < scaledNearest num den (guess + 1) + 1 := by
          have : (2 : ℚ) ^ 52 < scaledNearest num den (guess + 1) + 1 := by linarith
          exact_mod_cast this
        exact Nat.lt_succ_iff.mp this
    · split
      · trivial
      · next within => exact ⟨by decide, by omega, not_lt.mp within, .inl le_rfl⟩

/-! ### Decimal numbers -/

theorem two_pow_le_ten_pow (n : Nat) : (2 : ℚ) ^ (3 * n) ≤ 10 ^ n := by
  rw [pow_mul]
  gcongr
  norm_num

/-- Numbers that round to a positive double are neither very small nor very great. -/
theorem RoundsTo.bounds (h : RoundsTo x m e) (positive : 0 < m)
    (canonical : Canonical (.finite negative m e)) : 2 ^ (-1075 : Int) ≤ x ∧ x ≤ 2 ^ (1025 : Int) := by
  obtain ⟨short, least, greatest, -⟩ := canonical_iff.mp canonical
  have unit : (0 : ℚ) < 2 ^ e := by positivity
  have high := h.rounds.high
  have low := h.rounds.low
  rw [div_le_iff₀ unit] at high
  rw [le_div_iff₀ unit] at low
  have one_le : (1 : ℚ) ≤ m := by exact_mod_cast positive
  have short' : (m : ℚ) ≤ 2 ^ 53 := by exact_mod_cast short.le
  constructor
  · calc (2 : ℚ) ^ (-1075 : Int) = 2 ^ (-1 : Int) * 2 ^ leastExponent := by
          rw [← zpow_add₀ two_ne_zero]
          rfl
      _ ≤ (m - 1 / 2) * 2 ^ e := by
          refine mul_le_mul ?_ (zpow_le_zpow_right₀ one_le_two least) (by positivity) (by linarith)
          norm_num
          linarith
      _ ≤ x := low
  · calc x ≤ (m + 1 / 2) * 2 ^ e := high
      _ ≤ 2 ^ (54 : Int) * 2 ^ greatestExponent := by
          refine mul_le_mul ?_ (zpow_le_zpow_right₀ one_le_two greatest) (by positivity) (by positivity)
          norm_num
          linarith
      _ = 2 ^ (1025 : Int) := by
          rw [← zpow_add₀ two_ne_zero]
          rfl

/-- Numbers that are taken for zero are very small. -/
theorem div_tenTo_lt {digits places : Nat} (below : digits.log2 + 1200 < 3 * places) :
    (digits / tenTo places : ℚ) < 2 ^ (-1199 : Int) := by
  have above : (digits : ℚ) < 2 ^ (digits.log2 + 1) := by exact_mod_cast Nat.lt_log2_self
  calc (digits / tenTo places : ℚ) ≤ digits / 2 ^ (3 * places) := by
        rw [cast_tenTo]
        gcongr
        exact two_pow_le_ten_pow places
    _ < 2 ^ (digits.log2 + 1) / 2 ^ (3 * places) := by gcongr
    _ = 2 ^ ((digits.log2 + 1 : Nat) - (3 * places : Nat) : Int) := by
        rw [zpow_sub₀ two_ne_zero, zpow_natCast, zpow_natCast]
    _ ≤ 2 ^ (-1199 : Int) := zpow_le_zpow_right₀ one_le_two (by omega)

/-- Numbers that are taken for infinite are very great. -/
theorem lt_mul_tenTo {digits places : Nat} (positive : 0 < digits) (above : 400 < places) :
    2 ^ (1025 : Int) < (digits * tenTo places : ℚ) := by
  have one_le : (1 : ℚ) ≤ digits := by exact_mod_cast positive
  calc (2 : ℚ) ^ (1025 : Int) < 2 ^ (3 * places : Nat) := by
        rw [← zpow_natCast]
        exact zpow_lt_zpow_right₀ one_lt_two (by omega)
    _ ≤ 1 * tenTo places := by
        rw [one_mul, cast_tenTo]
        exact two_pow_le_ten_pow places
    _ ≤ digits * tenTo places := by gcongr

/-- **A decimal number is converted to the double to which it rounds.** -/
theorem ofDecimal_eq {digits : Nat} {scale : Int} (h : RoundsTo (digits * 10 ^ scale) m e) (positive : 0 < m)
    (canonical : Canonical (.finite negative m e)) :
    ofDecimal negative digits scale = .finite negative m e := by
  obtain ⟨low, high⟩ := h.bounds positive canonical
  have digits' : 0 < digits := by
    by_contra none
    obtain rfl : digits = 0 := by omega
    have unit : (0 : ℚ) < 2 ^ (-1075 : Int) := by positivity
    rw [Nat.cast_zero, zero_mul] at low
    exact absurd low unit.not_ge
  have tens (places : Nat) : 0 < tenTo places := Nat.pow_pos (by decide)
  rw [ofDecimal, if_neg digits'.ne']
  split
  · next whole =>
    obtain ⟨places, rfl⟩ := Int.eq_ofNat_of_zero_le whole
    rw [zpow_natCast, ← cast_tenTo] at h high
    have within : ¬ 400 < (places : Int) := fun above ↦
      absurd high (lt_mul_tenTo digits' (by omega)).not_ge
    rw [if_neg within, Int.toNat_natCast]
    exact ofRatio_eq one_pos (Nat.mul_pos digits' (tens places)) (by simpa using h) canonical
  · next fraction =>
    obtain ⟨places, same⟩ := Int.eq_ofNat_of_zero_le (a := -scale) (by omega)
    obtain rfl : scale = -places := by omega
    have value : (digits * 10 ^ (-(places : Int)) : ℚ) = digits / tenTo places := by
      rw [cast_tenTo, zpow_neg, zpow_natCast, div_eq_mul_inv]
    rw [value] at h low
    have within : ¬ digits.log2 + 1200 < 3 * places := fun below ↦ by
      have less := (div_tenTo_lt below).trans_le' low
      exact absurd less (zpow_le_zpow_right₀ one_le_two (by decide)).not_gt
    rw [Int.neg_neg, Int.toNat_natCast]
    dsimp only
    rw [if_neg within]
    exact ofRatio_eq (tens places) digits' h canonical

theorem canonical_ofDecimal (negative : Bool) (digits : Nat) (scale : Int) :
    Canonical (ofDecimal negative digits scale) := by
  have zero : Canonical (zero negative) := canonical_iff.mpr (by decide)
  rw [ofDecimal]
  split
  · exact zero
  · next nonzero =>
    have positive : 0 < digits := Nat.pos_of_ne_zero nonzero
    split
    · split
      · trivial
      · exact canonical_ofRatio negative one_pos (Nat.mul_pos positive (Nat.pow_pos (by decide)))
    · dsimp only
      split
      · exact zero
      · exact canonical_ofRatio negative (Nat.pow_pos (by decide)) positive

end VerbForms.Double
