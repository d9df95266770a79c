import Mathlib.Algebra.Order.Field.Rat
import Mathlib.Data.Int.ConditionallyCompleteOrder
import Mathlib.Order.Monotone.Basic
import Mathlib.Tactic.Linarith
import Mathlib.Tactic.Ring
import YamlTypes.Number.Decimal

/-!
Doubles in their order, and rounding.

Counted from zero upward and downward the finite doubles are the integers, their
ranks, and both zeros have rank zero. From one rank to the next the value grows by
the spacing of the smaller place, so that the numbers between the two midpoints
beside a double are nearer to it than to any other.
-/

set_option autoImplicit false

namespace YamlTypes

namespace Number

theorem binade_pos : 0 < binade := by decide

/-- A place is so many spacings above zero. Only in the lowest places they are fewer than would fill
a power of two. -/
theorem exists_parts (place : ℕ) :
    ∃ exponent units, place = exponent * binade + units ∧ units < 2 * binade ∧
      (exponent = 0 ∨ binade ≤ units) := by
  have parts := Nat.div_add_mod place binade
  have remainder := Nat.mod_lt place binade_pos
  obtain zero | ⟨exponent, isQuotient⟩ : place / binade = 0 ∨ ∃ k, place / binade = k + 1 := by
    cases place / binade <;> simp
  · exact ⟨0, place, by simp, by rw [zero] at parts; omega, .inl rfl⟩
  · rw [isQuotient, Nat.mul_add, Nat.mul_comm] at parts
    exact ⟨exponent, place % binade + binade, by omega, by omega, .inr (by omega)⟩

section

variable {exponent units : ℕ}

theorem spacing_of_parts (short : units < 2 * binade) (normal : exponent = 0 ∨ binade ≤ units) :
    spacing (exponent * binade + units) = exponent := by
  rw [spacing, Nat.mul_comm, Nat.mul_add_div binade_pos]
  obtain rfl | above := normal
  · have small : units / binade < 2 := (Nat.div_lt_iff_lt_mul binade_pos).mpr short
    omega
  · have one : units / binade = 1 := by
      rw [Nat.div_eq_iff binade_pos]
      omega
    omega

theorem significand_of_parts (short : units < 2 * binade)
    (normal : exponent = 0 ∨ binade ≤ units) : significand (exponent * binade + units) = units := by
  rw [significand, spacing_of_parts short normal, Nat.add_sub_cancel_left]

/-- The value is the spacings together, also where they just fill the power of two. -/
theorem magnitude_of_parts (short : units ≤ 2 * binade) (normal : exponent = 0 ∨ binade ≤ units) :
    magnitude (exponent * binade + units) = units * 2 ^ exponent := by
  obtain below | rfl := Nat.lt_or_eq_of_le short
  · rw [magnitude, significand_of_parts below normal, spacing_of_parts below normal,
      Nat.shiftLeft_eq]
  · have next : exponent * binade + 2 * binade = (exponent + 1) * binade + binade := by ring
    have less : binade < 2 * binade := by decide
    have enough : exponent + 1 = 0 ∨ binade ≤ binade := .inr (Nat.le_refl _)
    rw [next, magnitude, significand_of_parts less enough, spacing_of_parts less enough,
      Nat.shiftLeft_eq]
    ring

end

theorem magnitude_succ (place : ℕ) :
    magnitude (place + 1) = magnitude place + 2 ^ spacing place := by
  obtain ⟨exponent, units, rfl, short, normal⟩ := exists_parts place
  rw [spacing_of_parts short normal, Nat.add_assoc, magnitude_of_parts (by omega) (by omega),
    magnitude_of_parts (by omega) normal]
  ring

theorem magnitude_strictMono : StrictMono magnitude := by
  apply strictMono_nat_of_lt_succ
  intro place
  rw [magnitude_succ]
  exact Nat.lt_add_of_pos_right (Nat.two_pow_pos _)

/-- The distance to the place below is halved at the first place of a power of two. -/
theorem spacing_pred (place : ℕ) :
    spacing place =
      if significand (place + 1) = binade ∧ 0 < spacing (place + 1) then spacing (place + 1) - 1
      else spacing (place + 1) := by
  obtain ⟨exponent, units, isPlace, short, normal⟩ := exists_parts (place + 1)
  rw [isPlace, significand_of_parts short normal, spacing_of_parts short normal]
  have wide := binade_pos
  split
  next first =>
    obtain ⟨rfl, positive⟩ := first
    obtain ⟨exponent, rfl⟩ := Nat.exists_eq_add_one.mpr positive
    have before : place = exponent * binade + (2 * binade - 1) := by
      rw [Nat.add_mul] at isPlace
      omega
    rw [before, Nat.add_sub_cancel]
    exact spacing_of_parts (by omega) (.inr (by omega))
  next inside =>
    have before : place = exponent * binade + (units - 1) := by
      obtain rfl | above := normal <;> omega
    rw [before]
    apply spacing_of_parts (by omega)
    obtain rfl | above := normal
    · exact .inl rfl
    · rw [not_and, Nat.not_lt, Nat.le_zero] at inside
      obtain first | later := Nat.eq_or_lt_of_le above
      · exact .inl (inside first.symm)
      · exact .inr (by omega)

theorem intervalAt_bounds (place : ℕ) :
    (intervalAt (place + 1)).low = 2 * (magnitude place + magnitude (place + 1)) ∧
      (intervalAt (place + 1)).high = 2 * (magnitude (place + 1) + magnitude (place + 1 + 1)) := by
  have before := magnitude_succ place
  have behind := magnitude_succ (place + 1)
  have half : 2 <<< spacing (place + 1) = 2 * 2 ^ spacing (place + 1) := Nat.shiftLeft_eq _ _
  have below : (if significand (place + 1) = binade ∧ 0 < spacing (place + 1)
      then 2 <<< spacing (place + 1) / 2 else 2 <<< spacing (place + 1)) =
        2 * 2 ^ spacing place := by
    rw [half, spacing_pred place]
    split
    next first =>
      obtain ⟨exponent, isSpacing⟩ := Nat.exists_eq_add_one.mpr first.2
      rw [isSpacing, Nat.add_sub_cancel, Nat.pow_succ]
      omega
    next => rfl
  unfold intervalAt
  dsimp only
  rw [below, half]
  omega

/-- The value at a rank, in units of 2⁻¹⁰⁷⁴. -/
def rankUnits : ℤ → ℤ
  | .ofNat place => magnitude place
  | .negSucc place => -magnitude (place + 1)

def rankValue (rank : ℤ) : ℚ := rankUnits rank / unitsInOne

/-- One is a power of two. Its exponent is named, so that the power is not computed. -/
theorem exists_unitsInOne_eq : ∃ exponent, exponent = 1074 ∧ unitsInOne = 2 ^ exponent := by
  have shifted : ∃ exponent, exponent = 1074 ∧ unitsInOne = 1 <<< exponent := ⟨_, rfl, rfl⟩
  obtain ⟨exponent, isExponent, units⟩ := shifted
  exact ⟨exponent, isExponent, units.trans (Nat.one_shiftLeft exponent)⟩

theorem unitsInOne_pos : (0 : ℚ) < unitsInOne := Nat.cast_pos.mpr (by decide)

theorem rankValue_natCast (place : ℕ) : rankValue place = magnitude place / unitsInOne := rfl

/-- A number is nearer to the double of a rank than to any other, or it is as near as to another one
and the rank is even. Ranks are not bounded, as if there were no largest double. -/
def Rounds (q : ℚ) (rank : ℤ) : Prop :=
  ∀ other ≠ rank, |q - rankValue rank| < |q - rankValue other| ∨
    |q - rankValue rank| = |q - rankValue other| ∧ Even rank

theorem rankValue_zero : rankValue 0 = 0 := by
  have zero : rankUnits 0 = 0 := rfl
  rw [rankValue, zero, Int.cast_zero, zero_div]

theorem rankUnits_neg (rank : ℤ) : rankUnits (-rank) = -rankUnits rank := by
  cases rank with
  | ofNat place => cases place <;> rfl
  | negSucc place => exact (neg_neg _).symm

theorem rankValue_neg (rank : ℤ) : rankValue (-rank) = -rankValue rank := by
  rw [rankValue, rankUnits_neg, Int.cast_neg, neg_div, rankValue]

theorem rankUnits_strictMono : StrictMono rankUnits := by
  apply strictMono_int_of_lt_succ
  have next : ∀ place : ℕ, (magnitude place : ℤ) < magnitude (place + 1) :=
    fun place => Int.ofNat_lt.mpr (magnitude_strictMono (Nat.lt_add_one place))
  intro rank
  cases rank with
  | ofNat place => exact next place
  | negSucc place =>
      cases place with
      | zero => exact neg_neg_of_pos (next 0)
      | succ place => exact neg_lt_neg (next (place + 1))

theorem rankValue_strictMono : StrictMono rankValue := by
  intro rank other less
  exact div_lt_div_of_pos_right (Int.cast_lt.mpr (rankUnits_strictMono less)) unitsInOne_pos

theorem rounds_self (rank : ℤ) : Rounds (rankValue rank) rank := by
  intro other different
  have apart := rankValue_strictMono.injective.ne different
  rw [sub_self, abs_zero]
  exact .inl (abs_pos.mpr (sub_ne_zero.mpr apart.symm))

theorem Rounds.neg {q : ℚ} {rank : ℤ} (rounds : Rounds q rank) : Rounds (-q) (-rank) := by
  intro other different
  have flipped : ∀ value : ℤ, |-q - rankValue (-value)| = |q - rankValue value| := by
    intro value
    rw [rankValue_neg, neg_sub_neg, abs_sub_comm]
  have nearer := rounds (-other) fun same => different (by rw [← same, neg_neg])
  rw [← flipped rank, ← flipped (-other), neg_neg, ← even_neg] at nearer
  exact nearer

/-- From the midpoint on a number is not nearer to anything that lies further below. -/
theorem nearer_of_midpoint_le {q value before other : ℚ} (less : before < value)
    (beyond : other ≤ before) (midpoint : before + value ≤ 2 * q) :
    |q - value| < |q - other| ∨ |q - value| = |q - other| ∧ before + value = 2 * q := by
  have far : |q - other| = q - other := abs_of_nonneg (by linarith)
  rw [far]
  obtain behind | inFront := le_total value q
  · rw [abs_of_nonneg (sub_nonneg.mpr behind)]
    exact .inl (by linarith)
  · rw [abs_of_nonpos (sub_nonpos.mpr inFront), neg_sub]
    obtain nearer | same : value - q < q - other ∨ value - q = q - other :=
      lt_or_eq_of_le (by linarith)
    · exact .inl nearer
    · exact .inr ⟨same, by linarith⟩

/-- Between the midpoints beside a double every number rounds to it. The midpoints themselves belong
to it if its rank is even. -/
theorem rounds_of_between {q : ℚ} {rank : ℤ}
    (lower : rankValue (rank - 1) + rankValue rank ≤ 2 * q)
    (upper : 2 * q ≤ rankValue rank + rankValue (rank + 1))
    (ends : rankValue (rank - 1) + rankValue rank = 2 * q ∨
      2 * q = rankValue rank + rankValue (rank + 1) → Even rank) : Rounds q rank := by
  intro other different
  have before := rankValue_strictMono (sub_one_lt rank)
  have behind := rankValue_strictMono (lt_add_one rank)
  obtain below | above := lt_or_gt_of_ne different
  · have beyond : rankValue other ≤ rankValue (rank - 1) :=
      rankValue_strictMono.monotone (Int.le_sub_one_of_lt below)
    obtain nearer | ⟨same, midpoint⟩ := nearer_of_midpoint_le before beyond lower
    · exact .inl nearer
    · exact .inr ⟨same, ends (.inl midpoint)⟩
  · have beyond : rankValue (rank + 1) ≤ rankValue other :=
      rankValue_strictMono.monotone (Int.add_one_le_of_lt above)
    have mirrored := nearer_of_midpoint_le (q := -q) (neg_lt_neg behind) (neg_le_neg beyond)
      (by linarith)
    rw [neg_sub_neg, neg_sub_neg, abs_sub_comm, abs_sub_comm _ q] at mirrored
    obtain nearer | ⟨same, midpoint⟩ := mirrored
    · exact .inl nearer
    · exact .inr ⟨same, ends (.inr (by linarith))⟩

/-- Of two ranks that a number rounds to, none is below the other: both would be even, and the rank
between them would be nearer. -/
theorem Rounds.not_lt {q : ℚ} {rank other : ℤ} (rounds : Rounds q rank) (also : Rounds q other) :
    ¬rank < other := by
  intro less
  have same : |q - rankValue rank| = |q - rankValue other| ∧ Even rank ∧ Even other := by
    obtain nearer | ⟨same, even⟩ := rounds other less.ne'
    · obtain further | ⟨same, -⟩ := also rank less.ne
      · exact absurd further nearer.asymm
      · exact absurd same nearer.ne'
    · obtain further | ⟨-, alsoEven⟩ := also rank less.ne
      · exact absurd same.symm further.ne
      · exact ⟨same, even, alsoEven⟩
  obtain ⟨same, even, alsoEven⟩ := same
  have apart : rank + 1 < other := by
    obtain ⟨half, rfl⟩ := even
    obtain ⟨otherHalf, rfl⟩ := alsoEven
    omega
  have first := rankValue_strictMono (lt_add_one rank)
  have second := rankValue_strictMono apart
  have between : |q - rankValue rank| ≤ |q - rankValue (rank + 1)| := by
    obtain nearer | ⟨same, -⟩ := rounds (rank + 1) (lt_add_one rank).ne'
    · exact nearer.le
    · exact same.le
  -- Two numbers at the same distance lie on both sides of `q`, and so all between them is nearer.
  have sides := abs_eq_abs.mp same
  have inside : |q - rankValue (rank + 1)| < |q - rankValue rank| := by
    rw [abs_lt, abs_of_nonneg (by obtain side | side := sides <;> linarith)]
    obtain side | side := sides
    · linarith
    · constructor <;> linarith
  exact absurd inside between.not_gt

theorem Rounds.unique {q : ℚ} {rank other : ℤ} (rounds : Rounds q rank)
    (also : Rounds q other) : rank = other :=
  le_antisymm (Int.not_lt.mp (also.not_lt rounds)) (Int.not_lt.mp (rounds.not_lt also))

end Number

end YamlTypes
