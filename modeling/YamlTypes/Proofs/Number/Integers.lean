import YamlTypes.Proofs.Number.Denotation

/-!
Decimals of large integers.

From 2⁵³ on a double is an even integer. Up to 10¹⁶ its neighbours are two away,
so that no other integer that is a multiple of ten lies in its interval, and the
search ends with the integer itself. From 10¹⁶ on what it ends with is not below
10¹⁶ either.
-/

set_option autoImplicit false

namespace YamlTypes.Number

variable {i : Interval} {place n : ℕ}

theorem roundDiv_mul {quotient denominator : ℕ} (positive : 0 < denominator) :
    roundDiv (quotient * denominator) denominator = quotient := by
  unfold roundDiv
  dsimp only
  rw [Nat.mul_mod_left, Nat.mul_div_cancel _ positive, if_pos positive]

theorem Interval.gridPoint?_of_center {exponent : ℤ} {digits : ℕ} (holds : i.Holds i.center)
    (onGrid : i.center * (gridStep exponent).2 = digits * (gridStep exponent).1) :
    i.gridPoint? exponent = some digits := by
  have positive : 0 < (gridStep exponent).1 :=
    Nat.mul_pos (Nat.mul_pos (by decide) (Nat.cast_pos.mp unitsInOne_pos)) (tenTo_pos exponent)
  have inside : i.contains (digits * (gridStep exponent).1) (gridStep exponent).2 = true := by
    have divisor : ((gridStep exponent).2 : ℚ) ≠ 0 := Nat.cast_ne_zero.mpr (tenTo_pos _).ne'
    rwa [contains_point, quarters_eq, ← onGrid, Nat.cast_mul, mul_div_cancel_right₀ _ divisor]
  unfold gridPoint?
  dsimp only
  rw [onGrid, Nat.mul_div_cancel _ positive, inside, roundDiv_mul positive]
  cases i.contains ((digits + 1) * (gridStep exponent).1) (gridStep exponent).2 <;> rfl

/-- The search does not go on below a grid that has a point. -/
theorem Interval.exists_search {exponent : ℤ} {digits : ℕ}
    (isPoint : i.gridPoint? exponent = some digits) (bound : ℕ) (start : ℤ)
    (above : exponent ≤ start) (below : start < exponent + bound) :
    i.gridPoint? (i.search bound start).exponent = some (i.search bound start).digits ∧
      exponent ≤ (i.search bound start).exponent := by
  induction bound generalizing start with
  | zero => omega
  | succ bound inductionHypothesis =>
      unfold search
      split
      next found => exact ⟨found, above⟩
      next missing =>
        have later : exponent ≠ start := by
          rintro rfl
          rw [missing] at isPoint
          cases isPoint
        apply inductionHypothesis <;> omega

theorem Decimal.exponent_le_strip (bound : ℕ) (x : Decimal) :
    x.exponent ≤ (x.strip bound).exponent := by
  induction bound generalizing x with
  | zero => exact le_refl _
  | succ bound inductionHypothesis =>
      unfold strip
      split
      next => exact (Int.le_add_one (le_refl _)).trans (inductionHypothesis _)
      next => exact le_refl _

theorem log2_mul_two_pow {m : ℕ} (nonzero : m ≠ 0) (k : ℕ) : (m * 2 ^ k).log2 = m.log2 + k := by
  induction k with
  | zero => rw [Nat.pow_zero, Nat.mul_one, Nat.add_zero]
  | succ k inductionHypothesis =>
      have product : m * 2 ^ k ≠ 0 := Nat.mul_ne_zero nonzero (Nat.two_pow_pos k).ne'
      rw [Nat.pow_succ, Nat.mul_comm (2 ^ k), Nat.mul_left_comm, Nat.log2_two_mul product,
        inductionHypothesis, Nat.add_assoc]

section

variable (isWhole : magnitude place = n * unitsInOne)

include isWhole

theorem place_pos (nonzero : 0 < n) : 0 < place := by
  apply Nat.pos_of_ne_zero
  rintro rfl
  have zero : n * unitsInOne = 0 := isWhole.symm
  have some := Nat.mul_pos nonzero (Nat.cast_pos.mp unitsInOne_pos)
  omega

theorem gridPoint?_of_whole (nonzero : 0 < n) : (intervalAt place).gridPoint? 0 = some n := by
  apply Interval.gridPoint?_of_center (holds_center (place_pos isWhole nonzero))
  have step : gridStep 0 = (4 * unitsInOne * 1, 1) := rfl
  rw [step, intervalAt, isWhole]
  ring

variable (large : 2 * binade ≤ n)

include large

theorem exists_parts_of_large :
    ∃ exponent units, n = units * 2 ^ (exponent + 1) ∧ spacing place = 1075 + exponent ∧
      binade ≤ units := by
  obtain ⟨exponent, units, rfl, short, normal⟩ := exists_parts place
  obtain ⟨k, isExponent, isOne⟩ := exists_unitsInOne_eq
  rw [magnitude_of_parts short.le normal, isOne] at isWhole
  rw [spacing_of_parts short normal]
  obtain above | below := Nat.lt_or_ge k exponent
  · obtain ⟨more, rfl⟩ := Nat.exists_eq_add_of_le above
    have product : units * 2 ^ (more + 1) * 2 ^ k = n * 2 ^ k := by
      rw [← isWhole, Nat.succ_eq_add_one]
      ring
    refine ⟨more, units, ?_, by omega, by omega⟩
    exact (Nat.eq_of_mul_eq_mul_right (Nat.two_pow_pos k) product).symm
  · obtain ⟨less, rfl⟩ := Nat.exists_eq_add_of_le below
    have product : units * 2 ^ exponent = n * 2 ^ less * 2 ^ exponent := by
      rw [isWhole, Nat.mul_assoc, ← Nat.pow_add, Nat.add_comm]
    have fewer := Nat.eq_of_mul_eq_mul_right (Nat.two_pow_pos exponent) product
    have enough := Nat.le_mul_of_pos_right n (Nat.two_pow_pos less)
    omega

variable (small : n < 4 * binade)

include small

/-- The search for the decimal of an integer between 2⁵³ and 2⁵⁴ begins high enough, and far enough
from its last resort. -/
theorem start_eq : (((intervalAt place).center.log2 : ℤ) - 1074) * 30103 / 100000 + 2 = 18 := by
  have nonzero : 4 * n ≠ 0 := by omega
  have log : (4 * n).log2 = 55 := by
    rw [Nat.log2_eq_iff nonzero]
    have size : binade = 2 ^ 52 := rfl
    omega
  obtain ⟨k, isExponent, isOne⟩ := exists_unitsInOne_eq
  have center : (intervalAt place).center = 4 * n * 2 ^ k := by
    rw [intervalAt, isWhole, isOne, Nat.mul_assoc]
  rw [center, log2_mul_two_pow nonzero, log, isExponent]
  rfl

/-- That search ends with a grid of integers. -/
theorem exists_shortest :
    ∃ digits exponent : ℕ, shortest place = Decimal.strip 25 ⟨digits, exponent⟩ ∧
      (intervalAt place).gridPoint? exponent = some digits := by
  have nonzero : 0 < n := Nat.lt_of_lt_of_le (by decide) large
  have isPoint := gridPoint?_of_whole isWhole nonzero
  obtain ⟨found, whole⟩ := Interval.exists_search isPoint 25 18 (by decide) (by decide)
  obtain ⟨exponent, isExponent⟩ := Int.eq_ofNat_of_zero_le whole
  rw [isExponent] at found
  refine ⟨_, exponent, ?_, found⟩
  rw [shortest, start_eq isWhole large small, ← isExponent]

theorem near_of_holds {x : Decimal} (holds : (intervalAt place).Holds x.quarters) :
    n ≤ x.value + 1 ∧ x.value ≤ n + 1 := by
  obtain ⟨exponent, units, isParts, spaced, full⟩ := exists_parts_of_large isWhole large
  have least : exponent = 0 := by
    have power : binade * 2 ^ (exponent + 1) < binade * 2 ^ 2 := by
      have enough := Nat.mul_le_mul_right (2 ^ (exponent + 1)) full
      omega
    have few := (Nat.pow_lt_pow_iff_right (by decide)).mp (Nat.lt_of_mul_lt_mul_left power)
    omega
  have half : 2 <<< spacing place = 4 * unitsInOne := by
    obtain ⟨k, isExponent, isOne⟩ := exists_unitsInOne_eq
    have isSpacing : spacing place = k + 1 := by omega
    rw [isSpacing, Nat.shiftLeft_eq, isOne, Nat.pow_succ]
    ring
  have low : 4 * unitsInOne * n ≤ (intervalAt place).low + 4 * unitsInOne := by
    rw [intervalAt, isWhole, half, Nat.mul_comm n, ← Nat.mul_assoc]
    dsimp only
    split <;> omega
  have high : (intervalAt place).high = 4 * unitsInOne * n + 4 * unitsInOne := by
    rw [intervalAt, isWhole, half, Nat.mul_comm n, Nat.mul_assoc]
  have lowest := (Nat.cast_le (α := ℚ)).mpr low
  have below := holds.low
  have above := holds.high
  rw [high] at above
  push_cast at lowest above
  rw [Decimal.quarters] at below above
  constructor <;> apply le_of_mul_le_mul_left _ quartersInOne_pos <;> linarith

theorem value_shortest :
    (shortest place).value = n ∧ 0 ≤ (shortest place).exponent := by
  obtain ⟨digits, exponent, isShortest, isPoint⟩ := exists_shortest isWhole large small
  obtain ⟨low, high⟩ := near_of_holds isWhole large small (Interval.holds_of_gridPoint? isPoint)
  have value : (⟨digits, exponent⟩ : Decimal).value = (digits * 10 ^ exponent : ℕ) := by
    rw [Decimal.value, zpow_natCast, Nat.cast_mul, Nat.cast_pow, Nat.cast_ofNat]
  rw [value] at low high
  norm_cast at low high
  rw [isShortest, Decimal.value_strip, value, Nat.cast_inj]
  refine ⟨?_, (Int.natCast_nonneg exponent).trans (Decimal.exponent_le_strip 25 _)⟩
  cases exponent with
  | zero =>
      have same := gridPoint?_of_whole isWhole (Nat.lt_of_lt_of_le (by decide) large)
      have isDigits : digits = n := Option.some.inj (isPoint.symm.trans same)
      rw [isDigits, Nat.pow_zero, Nat.mul_one]
  | succ exponent =>
      -- Both numbers are even, and they are not two apart.
      obtain ⟨half, units, isEven, -, -⟩ := exists_parts_of_large isWhole large
      have twos : units * 2 ^ (half + 1) = 2 * (units * 2 ^ half) := by ring
      have tens : digits * 10 ^ (exponent + 1) = 10 * (digits * 10 ^ exponent) := by ring
      omega

end

theorem exists_place_of_power : ∃ place, magnitude place = 10 ^ 16 * unitsInOne := by
  obtain ⟨k, -, isOne⟩ := exists_unitsInOne_eq
  refine ⟨(k + 1) * binade + 5 * 10 ^ 15, ?_⟩
  rw [magnitude_of_parts (by decide) (.inr (by decide)), isOne]
  ring

/-- The shortest decimal of an integer with seventeen digits or more has as many. -/
theorem le_value_shortest (isWhole : magnitude place = n * unitsInOne) (huge : 10 ^ 16 ≤ n) :
    10 ^ 16 ≤ (shortest place).value := by
  obtain same | above := Nat.eq_or_lt_of_le huge
  · have value := (value_shortest isWhole (by rw [← same]; decide) (by rw [← same]; decide)).1
    rw [value, ← same, Nat.cast_pow, Nat.cast_ofNat]
  · obtain ⟨ten, isTen⟩ := exists_place_of_power
    have units : 0 < unitsInOne := Nat.cast_pos.mp unitsInOne_pos
    have later : ten < place := by
      rw [← magnitude_strictMono.lt_iff_lt, isTen, isWhole]
      exact Nat.mul_lt_mul_of_pos_right above units
    have holds := holds_shortest (Nat.zero_lt_of_lt later)
    obtain ⟨before, rfl⟩ := Nat.exists_eq_add_one.mpr (Nat.zero_lt_of_lt later)
    have between : magnitude ten ≤ magnitude before :=
      magnitude_strictMono.monotone (Nat.le_of_lt_succ later)
    have low : 4 * unitsInOne * 10 ^ 16 ≤ (intervalAt (before + 1)).low := by
      have further := Nat.mul_le_mul_right unitsInOne huge
      rw [isTen] at between
      calc 4 * unitsInOne * 10 ^ 16 = 2 * (10 ^ 16 * unitsInOne + 10 ^ 16 * unitsInOne) := by ring
        _ ≤ 2 * (magnitude before + n * unitsInOne) :=
          Nat.mul_le_mul_left 2 (Nat.add_le_add between further)
        _ = (intervalAt (before + 1)).low := by rw [(intervalAt_bounds before).1, isWhole]
    apply le_of_mul_le_mul_left _ quartersInOne_pos
    exact le_trans (by exact_mod_cast low) holds.low

end YamlTypes.Number
