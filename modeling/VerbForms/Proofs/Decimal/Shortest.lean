import VerbForms.Decimal.Shortest
import VerbForms.Proofs.Decimal.Rounding

/-!
# Shortest digits read back

The digits that are found for a double stand for a decimal number that rounds to it
(`Decimal.roundsTo_shortest`). A grid whose points are closer than the interval is wide has a point in it,
and with as many digits as a double can need the grid is as fine.
-/

namespace VerbForms.Decimal

open Double (tenTo twoTo RoundsTo Canonical)

/-- The number that digits at a scale stand for. -/
def Scaled.value (s : Scaled) : ℚ := s.digits * 10 ^ s.scale

namespace Interval

variable {i : Interval} {digits tries count : Nat} {scale leading : Int}

/-! ### Points of a grid -/

/-- Both sides of a comparison with a point of a grid are raised by a power of ten where the scale is
negative. -/
theorem mul_zpow_eq_div (digits : Nat) (scale : Int) :
    (digits * 10 ^ scale : ℚ) = digits * tenTo scale.toNat / tenTo (-scale).toNat := by
  rw [Double.cast_tenTo, Double.cast_tenTo]
  rcases le_total 0 scale with whole | fraction
  · obtain ⟨places, rfl⟩ := Int.eq_ofNat_of_zero_le whole
    simp
  · obtain ⟨places, same⟩ := Int.eq_ofNat_of_zero_le (a := -scale) (by omega)
    obtain rfl : scale = -places := by omega
    rw [zpow_neg, zpow_natCast, div_eq_mul_inv]
    simp

theorem holds_eq (i : Interval) (digits : Nat) (scale : Int) : i.holds digits scale =
    if i.closed then
      decide (i.low * tenTo (-scale).toNat ≤ digits * (tenTo scale.toNat * i.den)) &&
        decide (digits * (tenTo scale.toNat * i.den) ≤ i.high * tenTo (-scale).toNat)
    else
      decide (i.low * tenTo (-scale).toNat < digits * (tenTo scale.toNat * i.den)) &&
        decide (digits * (tenTo scale.toNat * i.den) < i.high * tenTo (-scale).toNat) := rfl

/-- A point of a grid that is in the interval is between its ends, and it is one of them only if they
belong to the interval. -/
theorem between_of_holds (pos : 0 < i.den) (h : i.holds digits scale = true) :
    (i.low / i.den : ℚ) ≤ digits * 10 ^ scale ∧ (digits * 10 ^ scale : ℚ) ≤ i.high / i.den ∧
      ((digits * 10 ^ scale : ℚ) = i.low / i.den ∨ (digits * 10 ^ scale : ℚ) = i.high / i.den →
        i.closed = true) := by
  have pos' : (0 : ℚ) < i.den := by exact_mod_cast pos
  have factor : (0 : ℚ) < tenTo (-scale).toNat := by
    rw [Double.cast_tenTo]
    positivity
  rw [mul_zpow_eq_div, div_le_div_iff₀ pos' factor, div_le_div_iff₀ factor pos',
    div_eq_div_iff factor.ne' pos'.ne', div_eq_div_iff factor.ne' pos'.ne']
  have unit : (digits * tenTo scale.toNat * i.den : ℚ) =
      ((digits * (tenTo scale.toNat * i.den) : Nat) : ℚ) := by
    push_cast
    ring
  rw [unit, ← Nat.cast_mul, ← Nat.cast_mul, Nat.cast_le, Nat.cast_le, Nat.cast_inj, Nat.cast_inj]
  rw [holds_eq] at h
  split at h
  · next closed =>
    rw [Bool.and_eq_true, decide_eq_true_eq, decide_eq_true_eq] at h
    exact ⟨h.1, h.2, fun _ ↦ closed⟩
  · rw [Bool.and_eq_true, decide_eq_true_eq, decide_eq_true_eq] at h
    exact ⟨h.1.le, h.2.le, fun ends ↦ ends.elim (absurd · h.1.ne') (absurd · h.2.ne)⟩

/-- A point strictly between the ends is in the interval. -/
theorem holds_of_lt (low : i.low * tenTo (-scale).toNat < digits * (tenTo scale.toNat * i.den))
    (high : digits * (tenTo scale.toNat * i.den) < i.high * tenTo (-scale).toNat) :
    i.holds digits scale = true := by
  rw [holds_eq]
  split
  · rw [decide_eq_true low.le, decide_eq_true high.le]
    rfl
  · rw [decide_eq_true low, decide_eq_true high]
    rfl

/-! ### The nearest point -/

/-- The neighbour below the value on a grid. -/
def floor (i : Interval) (scale : Int) : Nat :=
  i.value * tenTo (-scale).toNat / (tenTo scale.toNat * i.den)

theorem nearest?_eq (i : Interval) (scale : Int) : i.nearest? scale =
    let unit := tenTo scale.toNat * i.den
    let below := i.value * tenTo (-scale).toNat - i.floor scale * unit
    match i.holds (i.floor scale) scale && i.floor scale != 0, i.holds (i.floor scale + 1) scale with
    | false, false => none
    | true, false => some (i.floor scale)
    | false, true => some (i.floor scale + 1)
    | true, true =>
      if below < unit - below then some (i.floor scale)
      else if unit - below < below then some (i.floor scale + 1)
      else if i.floor scale % 2 = 0 then some (i.floor scale) else some (i.floor scale + 1) := rfl

/-- The point that is chosen is in the interval. -/
theorem holds_of_nearest? (found : i.nearest? scale = some digits) :
    0 < digits ∧ i.holds digits scale = true := by
  have floor (h : (i.holds (i.floor scale) scale && i.floor scale != 0) = true)
      (same : some (i.floor scale) = some digits) : 0 < digits ∧ i.holds digits scale = true := by
    obtain rfl := Option.some.inj same
    rw [Bool.and_eq_true, bne_iff_ne] at h
    exact ⟨Nat.pos_of_ne_zero h.2, h.1⟩
  have next (h : i.holds (i.floor scale + 1) scale = true)
      (same : some (i.floor scale + 1) = some digits) : 0 < digits ∧ i.holds digits scale = true := by
    obtain rfl := Option.some.inj same
    exact ⟨Nat.succ_pos _, h⟩
  rw [nearest?_eq] at found
  dsimp only at found
  split at found
  · cases found
  · next below _ => exact floor below found
  · next _ above => exact next above found
  · next below above =>
    split at found
    · exact floor below found
    · split at found
      · exact next above found
      · split at found
        · exact floor below found
        · exact next above found

/-- A grid whose points are closer than the interval is wide has one in it. -/
theorem exists_nearest? (pos : 0 < i.den) (value : i.low ≤ i.value) (below : i.value < i.high)
    (fine : (10 ^ scale * i.den : ℚ) < i.high - i.low) (small : (10 ^ scale * i.den : ℚ) ≤ i.value) :
    ∃ digits, i.nearest? scale = some digits := by
  have tens (n : Nat) : 0 < tenTo n := Nat.pow_pos (by decide)
  have unit : 0 < tenTo scale.toNat * i.den := Nat.mul_pos (tens _) pos
  have factor : (0 : ℚ) < tenTo (-scale).toNat := by exact_mod_cast tens _
  have grid : (10 ^ scale * i.den : ℚ) =
      ((tenTo scale.toNat * i.den : Nat) : ℚ) / tenTo (-scale).toNat := by
    have one := mul_zpow_eq_div 1 scale
    rw [Nat.cast_one, one_mul, one_mul] at one
    rw [one, Nat.cast_mul, div_mul_eq_mul_div]
  rw [grid, div_lt_iff₀ factor, sub_mul, lt_sub_iff_add_lt] at fine
  rw [grid, div_le_iff₀ factor] at small
  have fine : tenTo scale.toNat * i.den + i.low * tenTo (-scale).toNat < i.high * tenTo (-scale).toNat := by
    exact_mod_cast fine
  have small : tenTo scale.toNat * i.den ≤ i.value * tenTo (-scale).toNat := by exact_mod_cast small
  have left : i.low * tenTo (-scale).toNat ≤ i.value * tenTo (-scale).toNat := Nat.mul_le_mul_right _ value
  have right : i.value * tenTo (-scale).toNat < i.high * tenTo (-scale).toNat :=
    Nat.mul_lt_mul_of_pos_right below (tens _)
  have under : i.floor scale * (tenTo scale.toNat * i.den) ≤ i.value * tenTo (-scale).toNat :=
    Nat.div_mul_le_self _ _
  have beyond : i.value * tenTo (-scale).toNat < (i.floor scale + 1) * (tenTo scale.toNat * i.den) :=
    (Nat.div_lt_iff_lt_mul unit).mp (Nat.lt_succ_self _)
  have positive : 0 < i.floor scale := Nat.div_pos small unit
  have either : (i.holds (i.floor scale) scale && i.floor scale != 0) = true ∨
      i.holds (i.floor scale + 1) scale = true := by
    by_cases inside : i.low * tenTo (-scale).toNat < i.floor scale * (tenTo scale.toNat * i.den)
    · left
      rw [holds_of_lt inside (under.trans_lt right), Bool.true_and, bne_iff_ne]
      exact positive.ne'
    · right
      refine holds_of_lt (left.trans_lt beyond) ?_
      rw [Nat.succ_mul]
      omega
  rw [nearest?_eq]
  dsimp only
  split
  · next noFloor noNext =>
    rw [noFloor, noNext] at either
    rcases either with absurd | absurd <;> cases absurd
  · exact ⟨_, rfl⟩
  · exact ⟨_, rfl⟩
  · split
    · exact ⟨_, rfl⟩
    · split
      · exact ⟨_, rfl⟩
      · split <;> exact ⟨_, rfl⟩

/-! ### The search -/

/-- A search that gets to a grid with a point in the interval finds one. -/
theorem search_spec {last : Nat} (found : ∃ digits, i.nearest? (leading - last) = some digits)
    (before : count ≤ last) (within : last < count + tries) :
    0 < (i.search leading tries count).digits ∧
      i.holds (i.search leading tries count).digits (i.search leading tries count).scale = true := by
  induction tries generalizing count with
  | zero => omega
  | succ tries ih =>
    rw [search]
    split
    · next digits here => exact holds_of_nearest? here
    · next none =>
      have further : count ≠ last := by
        rintro rfl
        obtain ⟨digits, here⟩ := found
        rw [none] at here
        cases here
      exact ih (by omega) (by omega)

/-! ### The leading digit -/

theorem digitCount_le_iff {n k : Nat} (positive : 0 < k) : digitCount n ≤ k ↔ n < 10 ^ k := by
  rw [digitCount]
  split
  · next zero => simp [zero]
  · exact Nat.length_toDigits_le_iff (by decide) positive

theorem digitCount_pos {n : Nat} (positive : 0 < n) : 0 < digitCount n := by
  rw [digitCount, if_neg positive.ne']
  exact Nat.length_toDigits_pos

theorem pow_le_of_pos {n : Nat} (positive : 0 < n) : 10 ^ (digitCount n - 1) ≤ n := by
  by_contra less
  rcases Nat.eq_zero_or_pos (digitCount n - 1) with one | more
  · rw [one] at less
    omega
  · have fewer := (digitCount_le_iff more).mpr (Nat.lt_of_not_le less)
    have := digitCount_pos positive
    omega

/-- The value has the leading digit that has been found, or a greater one. -/
theorem zpow_leadingExponent_le (pos : 0 < i.den) (positive : 0 < i.value) :
    (10 ^ i.leadingExponent * i.den : ℚ) ≤ i.value := by
  rw [leadingExponent]
  split
  · next whole =>
    have some : 0 < i.value / i.den := Nat.div_pos whole pos
    obtain ⟨places, same⟩ : ∃ places : Nat, digitCount (i.value / i.den) = places + 1 :=
      Nat.exists_eq_succ_of_ne_zero (digitCount_pos some).ne'
    have low := pow_le_of_pos some
    rw [same] at low ⊢
    have total : 10 ^ places * i.den ≤ i.value :=
      (Nat.mul_le_mul_right i.den low).trans (Nat.div_mul_le_self _ _)
    rw [Nat.cast_succ, add_sub_cancel_right, zpow_natCast]
    exact_mod_cast total
  · next fraction =>
    have two : 2 ≤ (i.den + i.value - 1) / i.value := (Nat.le_div_iff_mul_le positive).mpr (by omega)
    have reached : i.den ≤ (i.den + i.value - 1) / i.value * i.value := by
      have next := Nat.lt_mul_div_succ (i.den + i.value - 1) positive
      rw [Nat.mul_succ, mul_comm] at next
      omega
    obtain ⟨n, same⟩ := Nat.exists_eq_add_of_le' (one_le_two.trans two)
    rw [same] at two reached
    rw [same, Nat.add_sub_cancel]
    have more : n < 10 ^ digitCount n := (digitCount_le_iff (digitCount_pos (by omega))).mp le_rfl
    have total : i.den ≤ 10 ^ digitCount n * i.value := reached.trans (Nat.mul_le_mul_right _ more)
    rw [zpow_neg, zpow_natCast, inv_mul_le_iff₀ (by positivity)]
    exact_mod_cast total

/-! ### The interval of a double -/

variable {m : Nat} {e : Int} {negative : Bool}

/-- The number of quarters of the last place by which smaller numbers may differ. -/
def below (m : Nat) (e : Int) : Nat :=
  if m = 2 ^ 52 ∧ Double.leastExponent < e then 1 else 2

theorem two_zpow_eq_div (q : Int) : (2 ^ q : ℚ) = twoTo q.toNat / twoTo (-q).toNat := by
  rw [Double.cast_twoTo, Double.cast_twoTo]
  rcases le_total 0 q with whole | fraction
  · obtain ⟨places, rfl⟩ := Int.eq_ofNat_of_zero_le whole
    simp
  · obtain ⟨places, same⟩ := Int.eq_ofNat_of_zero_le (a := -q) (by omega)
    obtain rfl : q = -places := by omega
    simp

theorem ofDouble_eq (m : Nat) (e : Int) : ofDouble m e =
    ⟨(4 * m - below m e) * twoTo (e - 2).toNat, 4 * m * twoTo (e - 2).toNat,
      (4 * m + 2) * twoTo (e - 2).toNat, twoTo (-(e - 2)).toNat, m % 2 == 0⟩ := rfl

theorem below_le (m : Nat) (e : Int) : 1 ≤ below m e ∧ below m e ≤ 2 := by
  rw [below]
  split <;> decide

theorem zpow_sub_two (e : Int) : (2 ^ (e - 2) : ℚ) = 2 ^ e / 4 := by
  rw [zpow_sub₀ two_ne_zero]
  norm_num

theorem low_ofDouble (positive : 0 < m) (e : Int) :
    ((ofDouble m e).low / (ofDouble m e).den : ℚ) = (m - below m e / 4) * 2 ^ e := by
  have least : below m e ≤ 4 * m := (below_le m e).2.trans (by omega)
  rw [ofDouble_eq]
  dsimp only
  rw [Nat.cast_mul, mul_div_assoc, ← two_zpow_eq_div, zpow_sub_two, Nat.cast_sub least]
  push_cast
  ring

theorem high_ofDouble (m : Nat) (e : Int) :
    ((ofDouble m e).high / (ofDouble m e).den : ℚ) = (m + 1 / 2) * 2 ^ e := by
  rw [ofDouble_eq]
  dsimp only
  rw [Nat.cast_mul, mul_div_assoc, ← two_zpow_eq_div, zpow_sub_two]
  push_cast
  ring

theorem den_ofDouble_pos (m : Nat) (e : Int) : 0 < (ofDouble m e).den := Nat.pow_pos two_pos

/-- A number in the interval of a double rounds to it. -/
theorem roundsTo_of_holds (positive : 0 < m) (h : (ofDouble m e).holds digits scale = true) :
    RoundsTo (digits * 10 ^ scale) m e := by
  have unit : (0 : ℚ) < 2 ^ e := by positivity
  obtain ⟨low, high, ends⟩ := between_of_holds (den_ofDouble_pos m e) h
  rw [low_ofDouble positive, ← le_div_iff₀ unit] at low
  rw [high_ofDouble, ← div_le_iff₀ unit] at high
  rw [low_ofDouble positive, high_ofDouble, ← div_eq_iff unit.ne', ← div_eq_iff unit.ne'] at ends
  have quarters : (below m e : ℚ) ≤ 2 := by exact_mod_cast (below_le m e).2
  refine ⟨⟨by linarith, high, fun tie ↦ ?_⟩, fun one more ↦ ?_⟩
  · have closed : (m % 2 == 0) = true := ends <| by
      rcases tie with tie | tie
      · exact .inl (by linarith)
      · exact .inr tie
    exact beq_iff_eq.mp closed
  · have dense : below m e = 1 := if_pos ⟨one, more⟩
    rw [dense, Nat.cast_one] at low
    exact low

/-- With as many digits as a double can need there is a point in its interval. -/
theorem exists_nearest?_ofDouble (positive : 0 < m) (canonical : Canonical (.finite negative m e)) :
    ∃ digits, (ofDouble m e).nearest? ((ofDouble m e).leadingExponent - (16 : Nat)) = some digits := by
  obtain ⟨short, -⟩ := Double.canonical_iff.mp canonical
  have den := den_ofDouble_pos m e
  have unit : 0 < twoTo (e - 2).toNat := Nat.pow_pos two_pos
  have leading := zpow_leadingExponent_le (i := ofDouble m e) den (Nat.mul_pos (by omega) unit)
  have least : below m e ≤ 4 * m := (below_le m e).2.trans (by omega)
  -- The digits are so many that a step on the grid is less than the width of the interval.
  have many : 4 * m < (2 + below m e) * 10 ^ 16 := by
    rw [below]
    split <;> omega
  have unit' : (0 : ℚ) < twoTo (e - 2).toNat := by exact_mod_cast unit
  have step : (10 ^ ((ofDouble m e).leadingExponent - (16 : Nat)) * (ofDouble m e).den : ℚ) ≤
      (ofDouble m e).value / 10 ^ 16 := by
    rw [zpow_sub₀ (by norm_num), zpow_natCast, div_mul_eq_mul_div]
    gcongr
  have value : ((ofDouble m e).value : ℚ) = 4 * m * twoTo (e - 2).toNat := by
    rw [ofDouble_eq]
    push_cast
    rfl
  have width : ((ofDouble m e).high - (ofDouble m e).low : ℚ) = (2 + below m e) * twoTo (e - 2).toNat := by
    rw [ofDouble_eq]
    dsimp only
    rw [Nat.cast_mul, Nat.cast_mul, Nat.cast_sub least]
    push_cast
    ring
  refine exists_nearest? den (Nat.mul_le_mul_right _ (Nat.sub_le _ _))
    (Nat.mul_lt_mul_of_pos_right (by omega) unit) (step.trans_lt ?_) (step.trans ?_)
  · rw [value, width, div_lt_iff₀ (by positivity), mul_right_comm _ _ (10 ^ 16 : ℚ)]
    have many : (4 * m : ℚ) < (2 + below m e) * 10 ^ 16 := by exact_mod_cast many
    exact mul_lt_mul_of_pos_right many unit'
  · rw [value]
    exact div_le_self (by positivity) (by norm_num)

end Interval

/-- **The shortest digits of a double stand for a number that rounds to it.** -/
theorem roundsTo_shortest {m : Nat} {e : Int} {negative : Bool} (positive : 0 < m)
    (canonical : Canonical (.finite negative m e)) :
    0 < (shortest m e).digits ∧ RoundsTo (shortest m e).value m e := by
  have searched : 0 < (shortest m e).digits ∧
      (Interval.ofDouble m e).holds (shortest m e).digits (shortest m e).scale = true :=
    Interval.search_spec (Interval.exists_nearest?_ofDouble positive canonical) (Nat.zero_le 16) (by decide)
  exact ⟨searched.1, Interval.roundsTo_of_holds positive searched.2⟩

end VerbForms.Decimal
