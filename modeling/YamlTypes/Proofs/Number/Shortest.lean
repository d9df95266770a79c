import Mathlib.Algebra.Order.Field.Power
import YamlTypes.Proofs.Number.Literals
import YamlTypes.Proofs.Number.Places

/-!
The values of shortest decimals.

Every decimal that the search can end with lies in the interval of its double,
which begins and ends at the midpoints beside the double, so it rounds to that
double. Only the search's last resort needs no check: there the decimal is the
double itself.
-/

set_option autoImplicit false

namespace YamlTypes.Number

variable {i : Interval}

def Decimal.value (x : Decimal) : ℚ := x.digits * 10 ^ x.exponent

def Decimal.quarters (x : Decimal) : ℚ := 4 * unitsInOne * x.value

theorem quartersInOne_pos : (0 : ℚ) < 4 * unitsInOne := mul_pos four_pos unitsInOne_pos

structure Interval.Holds (i : Interval) (quarters : ℚ) : Prop where
  low : i.low ≤ quarters
  high : quarters ≤ i.high
  ends : quarters = i.low ∨ quarters = i.high → i.closed = true

theorem Interval.contains_eq_true_iff {numerator denominator : ℕ} (positive : 0 < denominator) :
    i.contains numerator denominator = true ↔ i.Holds (numerator / denominator) := by
  have divisor : (0 : ℚ) < denominator := Nat.cast_pos.mpr positive
  unfold contains
  split
  next closed =>
    rw [Bool.and_eq_true, decide_eq_true_eq, decide_eq_true_eq, ← Nat.cast_le (α := ℚ),
      ← Nat.cast_le (α := ℚ), Nat.cast_mul, Nat.cast_mul, ← le_div_iff₀ divisor,
      ← div_le_iff₀ divisor]
    constructor
    · rintro ⟨low, high⟩
      exact ⟨low, high, fun _ => closed⟩
    · intro holds
      exact ⟨holds.low, holds.high⟩
  next isOpen =>
    rw [Bool.and_eq_true, decide_eq_true_eq, decide_eq_true_eq, ← Nat.cast_lt (α := ℚ),
      ← Nat.cast_lt (α := ℚ), Nat.cast_mul, Nat.cast_mul, ← lt_div_iff₀ divisor,
      ← div_lt_iff₀ divisor]
    constructor
    · rintro ⟨low, high⟩
      refine ⟨low.le, high.le, ?_⟩
      rintro (same | same)
      · exact absurd same low.ne'
      · exact absurd same high.ne
    · intro holds
      constructor
      · exact lt_of_le_of_ne holds.low fun same => isOpen (holds.ends (.inl same.symm))
      · exact lt_of_le_of_ne holds.high fun same => isOpen (holds.ends (.inr same))

theorem tenTo_div_tenTo_neg (exponent : ℤ) :
    (tenTo exponent : ℚ) / tenTo (-exponent) = 10 ^ exponent := by
  obtain ⟨n, rfl | rfl⟩ := Int.eq_nat_or_neg exponent
  · simp [tenTo]
  · simp [tenTo]

/-- A point of a grid as the fraction that is tried. -/
theorem quarters_eq (digits : ℕ) (exponent : ℤ) :
    (⟨digits, exponent⟩ : Decimal).quarters =
      (digits * (gridStep exponent).1 : ℕ) / (gridStep exponent).2 := by
  rw [Decimal.quarters, Decimal.value, ← tenTo_div_tenTo_neg, gridStep]
  push_cast
  ring

theorem Interval.contains_point {digits : ℕ} {exponent : ℤ} :
    i.contains (digits * (gridStep exponent).1) (gridStep exponent).2 = true ↔
      i.Holds (⟨digits, exponent⟩ : Decimal).quarters := by
  rw [quarters_eq]
  exact contains_eq_true_iff (tenTo_pos _)

theorem Interval.holds_of_gridPoint? {digits : ℕ} {exponent : ℤ}
    (found : i.gridPoint? exponent = some digits) :
    i.Holds (⟨digits, exponent⟩ : Decimal).quarters := by
  rw [← contains_point]
  unfold gridPoint? at found
  dsimp only at found
  split at found
  next inBelow inAbove =>
    obtain rfl := Option.some.inj found
    obtain down | up := roundDiv_eq (i.center * (gridStep exponent).2) (gridStep exponent).1
    · rw [down, inBelow]
    · rw [up, inAbove]
  next inBelow _ =>
    obtain rfl := Option.some.inj found
    exact inBelow
  next _ inAbove =>
    obtain rfl := Option.some.inj found
    exact inAbove
  next => cases found

/-- A number of quarters is a decimal, since each two in their denominator is also one in a power of
ten. -/
theorem quarters_exact {center n : ℕ} {exponent : ℤ} (isQuarter : 1076 = n)
    (isExponent : exponent = -n) :
    (⟨center * Nat.pow 5 n, exponent⟩ : Decimal).quarters = center := by
  have twos : (4 : ℚ) * unitsInOne = 2 ^ n := by
    obtain ⟨k, isK, isOne⟩ := exists_unitsInOne_eq
    have sum : n = 2 + k := by omega
    rw [isOne, sum, pow_add, Nat.cast_pow]
    norm_num
  have fives : ((Nat.pow 5 n : ℕ) : ℚ) = 5 ^ n := Nat.cast_pow 5 n
  have tens : (10 : ℚ) ^ n = 2 ^ n * 5 ^ n := by
    rw [← mul_pow]
    norm_num
  have nonzero : (10 : ℚ) ^ n ≠ 0 := pow_ne_zero n (by norm_num)
  rw [Decimal.quarters, Decimal.value, twos, isExponent, zpow_neg, zpow_natCast, ← mul_assoc,
    ← div_eq_mul_inv, div_eq_iff nonzero, tens, Nat.cast_mul, fives]
  ring

theorem Interval.holds_search (center : i.Holds i.center) (bound : ℕ) (exponent : ℤ) :
    i.Holds (i.search bound exponent).quarters := by
  induction bound generalizing exponent with
  | zero =>
      rw [search]
      generalize isQuarter : 1076 = n
      rw [quarters_exact isQuarter (isQuarter ▸ rfl)]
      exact center
  | succ bound inductionHypothesis =>
      unfold search
      split
      next found => exact holds_of_gridPoint? found
      next => exact inductionHypothesis _

theorem Decimal.value_strip (bound : ℕ) (x : Decimal) : (x.strip bound).value = x.value := by
  induction bound generalizing x with
  | zero => rfl
  | succ bound inductionHypothesis =>
      unfold strip
      split
      next ends =>
        have digits : (x.digits : ℚ) = 10 * (x.digits / 10 : ℕ) := by
          rw [← Nat.cast_ofNat, ← Nat.cast_mul, Nat.mul_div_cancel' (Nat.dvd_of_mod_eq_zero ends.2)]
        rw [inductionHypothesis, value, value, zpow_add_one₀ (by norm_num), digits]
        ring
      next => rfl

/-- What an interval holds rounds to its double. -/
theorem rounds_of_holds {place : ℕ} (positive : 0 < place) {x : Decimal}
    (holds : (intervalAt place).Holds x.quarters) : Rounds x.value place := by
  obtain ⟨place, rfl⟩ := Nat.exists_eq_add_one.mpr positive
  obtain ⟨low, high⟩ := intervalAt_bounds place
  have before : rankValue ((place + 1 : ℕ) - 1) = magnitude place / unitsInOne := by
    rw [Nat.cast_succ, add_sub_cancel_right, rankValue_natCast]
  have behind : rankValue ((place + 1 : ℕ) + 1) = magnitude (place + 1 + 1) / unitsInOne :=
    rankValue_natCast _
  have lower : rankValue ((place + 1 : ℕ) - 1) + rankValue (place + 1 : ℕ) =
      (intervalAt (place + 1)).low / (2 * unitsInOne) := by
    rw [before, rankValue_natCast, low]
    push_cast
    rw [mul_div_mul_left _ _ two_ne_zero, add_div]
  have upper : rankValue (place + 1 : ℕ) + rankValue ((place + 1 : ℕ) + 1) =
      (intervalAt (place + 1)).high / (2 * unitsInOne) := by
    rw [behind, rankValue_natCast, high]
    push_cast
    rw [mul_div_mul_left _ _ two_ne_zero, add_div]
  have divisor : 0 < 2 * (unitsInOne : ℚ) := mul_pos two_pos unitsInOne_pos
  have double : 2 * x.value = x.quarters / (2 * unitsInOne) := by
    rw [eq_div_iff divisor.ne', Decimal.quarters]
    ring
  apply rounds_of_between
  · rw [lower, double]
    exact div_le_div_of_nonneg_right holds.low divisor.le
  · rw [upper, double]
    exact div_le_div_of_nonneg_right holds.high divisor.le
  · rw [lower, upper, double, div_left_inj' divisor.ne', div_left_inj' divisor.ne', eq_comm]
    intro ends
    have closed := holds.ends ends
    rw [intervalAt, beq_iff_eq] at closed
    exact (Int.even_coe_nat place.succ).mpr (Nat.even_iff.mpr closed)

theorem holds_center {place : ℕ} (positive : 0 < place) :
    (intervalAt place).Holds (intervalAt place).center := by
  obtain ⟨place, rfl⟩ := Nat.exists_eq_add_one.mpr positive
  obtain ⟨low, high⟩ := intervalAt_bounds place
  have center : (intervalAt (place + 1)).center = 4 * magnitude (place + 1) := rfl
  have before := magnitude_strictMono (Nat.lt_add_one place)
  have behind := magnitude_strictMono (Nat.lt_add_one (place + 1))
  have above : (intervalAt (place + 1)).low < (intervalAt (place + 1)).center := by omega
  have below : (intervalAt (place + 1)).center < (intervalAt (place + 1)).high := by omega
  refine ⟨Nat.cast_le.mpr above.le, Nat.cast_le.mpr below.le, ?_⟩
  rw [Nat.cast_inj, Nat.cast_inj]
  rintro (same | same)
  · exact absurd same above.ne'
  · exact absurd same below.ne

theorem holds_shortest {place : ℕ} (positive : 0 < place) :
    (intervalAt place).Holds (shortest place).quarters := by
  rw [shortest, Decimal.quarters, Decimal.value_strip]
  exact Interval.holds_search (holds_center positive) _ _

theorem rounds_shortest {place : ℕ} (positive : 0 < place) :
    Rounds (shortest place).value place := rounds_of_holds positive (holds_shortest positive)

end YamlTypes.Number
