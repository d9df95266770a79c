import Mathlib.Data.List.Basic
import YamlTypes.ModuleBody
import YamlTypes.Proofs.Json.Reading

/-!
The literals of numbers.

A decimal that is not zero has a first digit that is not zero, and each of the
layouts puts its digits together as a numeral. The shortest decimal of a double
is zero only for zero, since the numbers that round to another double do not
reach down to it. So every double that is written at all is written as a number.
-/

set_option autoImplicit false

namespace YamlTypes.Number

open YamlTypes.Json (Digits Whole Fraction Exponent Numeral)

variable {digits : List Char}

theorem digits_toDigits (n : Nat) : Digits (Nat.toDigits 10 n) where
  nonempty := Nat.toDigits_ne_nil
  only := by
    intro c member
    have digit := Nat.isDigit_of_mem_toDigits (by decide) (by decide) member
    rw [Char.isDigit, Bool.and_eq_true, decide_eq_true_eq, decide_eq_true_eq] at digit
    rw [Json.isDigit, Bool.and_eq_true, decide_eq_true_eq, decide_eq_true_eq]
    exact digit

theorem head?_toDigits {n : Nat} (positive : 0 < n) : (Nat.toDigits 10 n).head? ≠ some '0' := by
  induction n using Nat.strongRecOn with
  | ind n inductionHypothesis =>
      rw [Nat.toDigits_eq_if (by decide)]
      split
      next small =>
        have others : ∀ digit < 10, 0 < digit → [Nat.digitChar digit].head? ≠ some '0' := by decide
        exact others n small positive
      next large =>
        rw [List.head?_append_of_ne_nil _ Nat.toDigits_ne_nil]
        apply inductionHypothesis <;> omega

theorem whole_toDigits (n : Nat) : Whole (Nat.toDigits 10 n) := by
  by_cases zero : n = 0
  · rw [zero]
    exact .inl rfl
  · exact .inr ⟨digits_toDigits n, head?_toDigits (Nat.pos_of_ne_zero zero)⟩

theorem Digits.take (given : Digits digits) (count : Nat) : Digits (digits.take (count + 1)) where
  nonempty := by
    cases digits with
    | nil => exact absurd rfl given.nonempty
    | cons c rest => exact List.cons_ne_nil _ _
  only := fun c member => given.only c (List.mem_of_mem_take member)

theorem Digits.drop (given : Digits digits) {count : Nat} (more : count < digits.length) :
    Digits (digits.drop count) where
  nonempty := by
    rw [ne_eq, List.drop_eq_nil_iff]
    omega
  only := fun c member => given.only c (List.mem_of_mem_drop member)

theorem isDigit_of_mem_replicate {c : Char} {count : Nat} (member : c ∈ List.replicate count '0') :
    Json.isDigit c = true := by
  rw [List.eq_of_mem_replicate member]
  rfl

theorem whole_take (given : Digits digits) (noZero : digits.head? ≠ some '0') (count : Nat) :
    Whole (digits.take (count + 1)) := by
  refine .inr ⟨Digits.take given count, ?_⟩
  rwa [List.head?_take, if_neg (Nat.succ_ne_zero count)]

theorem toList_scientific (style : DecimalStyle) (digits : List Char) (leading : Int) :
    (String.ofList (digits.take 1) ++
      (if (digits.drop 1).isEmpty then "" else "." ++ String.ofList (digits.drop 1)) ++ "e" ++
      (if leading < 0 then "-" else if style.plusSign then "+" else "") ++
      toString leading.natAbs).toList =
        digits.take 1 ++ ((if digits.drop 1 = [] then [] else '.' :: digits.drop 1) ++
          'e' :: ((if leading < 0 then ['-'] else if style.plusSign then ['+'] else []) ++
            Nat.toDigits 10 leading.natAbs)) := by
  rw [Nat.toString_eq_ofList_toDigits]
  simp only [List.isEmpty_iff]
  split <;> split <;> try split
  all_goals simp

theorem toList_zerosBehind (digits : List Char) (count : Nat) :
    (String.ofList digits ++ zeros count ++ ".0").toList =
      digits ++ List.replicate count '0' ++ (['.', '0'] ++ []) := by
  simp [zeros]

theorem toList_pointWithin (digits : List Char) (count : Nat) :
    (String.ofList (digits.take count) ++ "." ++ String.ofList (digits.drop count)).toList =
      digits.take count ++ ('.' :: digits.drop count ++ []) := by
  simp

theorem toList_zerosBefore (digits : List Char) (count : Nat) :
    ("0." ++ zeros count ++ String.ofList digits).toList =
      ['0'] ++ ('.' :: (List.replicate count '0' ++ digits) ++ []) := by
  simp [zeros]

theorem fraction_scientific (given : Digits digits) :
    Fraction (if digits.drop 1 = [] then [] else '.' :: digits.drop 1) := by
  split
  next => exact .none
  next others => exact .digits ⟨others, fun c member => given.only c (List.mem_of_mem_drop member)⟩

theorem exponent_scientific (style : DecimalStyle) (leading : Int) :
    Exponent ('e' :: ((if leading < 0 then ['-'] else if style.plusSign then ['+'] else []) ++
      Nat.toDigits 10 leading.natAbs)) := by
  refine .digits ?_ (digits_toDigits _)
  split
  next => decide
  next => split <;> decide

theorem fraction_zero : Fraction ['.', '0'] :=
  .digits ⟨List.cons_ne_nil _ _, List.forall_mem_singleton.mpr rfl⟩

theorem isDigit_zerosBehind (given : Digits digits) (count : Nat) :
    ∀ c ∈ digits ++ List.replicate count '0', Json.isDigit c = true :=
  List.forall_mem_append.mpr ⟨given.only, fun _ => isDigit_of_mem_replicate⟩

theorem digits_zerosBefore (given : Digits digits) (count : Nat) :
    Digits (List.replicate count '0' ++ digits) :=
  ⟨List.append_ne_nil_of_right_ne_nil _ given.nonempty,
    List.forall_mem_append.mpr ⟨fun _ => isDigit_of_mem_replicate, given.only⟩⟩

theorem numeral_scientific (given : Digits digits) (noZero : digits.head? ≠ some '0')
    (style : DecimalStyle) (leading : Int) :
    Numeral (String.ofList (digits.take 1) ++
      (if (digits.drop 1).isEmpty then "" else "." ++ String.ofList (digits.drop 1)) ++ "e" ++
      (if leading < 0 then "-" else if style.plusSign then "+" else "") ++
      toString leading.natAbs).toList := by
  rw [toList_scientific]
  apply Json.numeral_of_parts
  · exact whole_take given noZero 0
  · exact fraction_scientific given
  · exact exponent_scientific style leading

theorem numeral_zerosBehind (given : Digits digits) (noZero : digits.head? ≠ some '0')
    (count : Nat) : Numeral (String.ofList digits ++ zeros count ++ ".0").toList := by
  have whole : Whole (digits ++ List.replicate count '0') := by
    refine .inr ⟨⟨?_, isDigit_zerosBehind given count⟩, ?_⟩
    · exact List.append_ne_nil_of_left_ne_nil given.nonempty _
    · rwa [List.head?_append_of_ne_nil _ given.nonempty]
  rw [toList_zerosBehind]
  exact Json.numeral_of_parts whole fraction_zero .none

theorem numeral_pointWithin (given : Digits digits) (noZero : digits.head? ≠ some '0') {count : Nat}
    (more : count + 1 < digits.length) :
    Numeral (String.ofList (digits.take (count + 1)) ++ "." ++
      String.ofList (digits.drop (count + 1))).toList := by
  rw [toList_pointWithin]
  apply Json.numeral_of_parts (whole_take given noZero count) _ .none
  exact .digits (Digits.drop given more)

theorem numeral_zerosBefore (given : Digits digits) (count : Nat) :
    Numeral ("0." ++ zeros count ++ String.ofList digits).toList := by
  rw [toList_zerosBefore]
  exact Json.numeral_of_parts (.inl rfl) (.digits (digits_zerosBefore given count)) .none

/-- A decimal other than zero is written as a numeral. -/
theorem numeral_layout (style : DecimalStyle) {x : Decimal} (nonzero : x.digits ≠ 0) :
    Numeral (style.layout x).toList := by
  have given := digits_toDigits x.digits
  have noZero := head?_toDigits (Nat.pos_of_ne_zero nonzero)
  have length : 0 < (Nat.toDigits 10 x.digits).length := Nat.length_toDigits_pos
  unfold DecimalStyle.layout
  dsimp only
  split
  next => exact numeral_scientific given noZero style _
  next =>
    split
    next => exact numeral_zerosBehind given noZero _
    next =>
      split
      next => exact numeral_pointWithin given noZero (by omega)
      next => exact numeral_zerosBefore given _

theorem Decimal.strip_digits_ne_zero (bound : Nat) {x : Decimal} (nonzero : x.digits ≠ 0) :
    (x.strip bound).digits ≠ 0 := by
  induction bound generalizing x with
  | zero => exact nonzero
  | succ bound inductionHypothesis =>
      unfold Decimal.strip
      split
      next ends =>
        apply inductionHypothesis
        change x.digits / 10 ≠ 0
        omega
      next => exact nonzero

theorem tenTo_pos (exponent : Int) : 0 < tenTo exponent := by
  unfold tenTo
  exact Nat.pow_pos (by decide)

theorem roundDiv_eq (numerator denominator : Nat) :
    roundDiv numerator denominator = numerator / denominator ∨
      roundDiv numerator denominator = numerator / denominator + 1 := by
  unfold roundDiv
  dsimp only
  split
  next => exact .inl rfl
  next =>
    split
    next => exact .inr rfl
    next =>
      split
      next => exact .inl rfl
      next => exact .inr rfl

variable {i : Interval}

theorem Interval.not_contains_zero (above : 0 < i.low) {denominator : Nat}
    (positive : 0 < denominator) : i.contains 0 denominator = false := by
  have product : 0 < i.low * denominator := Nat.mul_pos above positive
  unfold Interval.contains
  split
  next => simp [Nat.not_le_of_lt product]
  next => simp

theorem Interval.gridPoint?_ne_zero (above : 0 < i.low) {exponent : Int} {digits : Nat}
    (found : i.gridPoint? exponent = some digits) : digits ≠ 0 := by
  unfold Interval.gridPoint? gridStep at found
  dsimp only at found
  have outside := Interval.not_contains_zero above (tenTo_pos (-exponent))
  have inside : ∀ point : Nat,
      i.contains (point * (4 * unitsInOne * tenTo exponent)) (tenTo (-exponent)) = true →
        point ≠ 0 := by
    rintro point isIn rfl
    rw [Nat.zero_mul, outside] at isIn
    cases isIn
  split at found
  next isIn _ =>
    have below := inside _ isIn
    obtain rfl := Option.some.inj found
    rcases roundDiv_eq (i.center * tenTo (-exponent)) (4 * unitsInOne * tenTo exponent) with
      down | up
    · rwa [down]
    · rw [up]
      exact Nat.succ_ne_zero _
  next isIn _ =>
    obtain rfl := Option.some.inj found
    exact inside _ isIn
  next =>
    obtain rfl := Option.some.inj found
    exact Nat.succ_ne_zero _
  next => cases found

theorem Interval.search_digits_ne_zero (above : 0 < i.low) (within : i.low ≤ i.center)
    (bound : Nat) (exponent : Int) : (i.search bound exponent).digits ≠ 0 := by
  induction bound generalizing exponent with
  | zero =>
      have powers : ∀ n, 0 < Nat.pow 5 n := fun n => Nat.pow_pos (by decide)
      have center : 0 < i.center := Nat.lt_of_lt_of_le above within
      exact Nat.ne_of_gt (Nat.mul_pos center (powers 1076))
  | succ bound inductionHypothesis =>
      unfold Interval.search
      split
      next found => exact Interval.gridPoint?_ne_zero above found
      next => exact inductionHypothesis _

/-- The numbers that round to a double other than zero are not zero. -/
theorem intervalAt_low_pos {place : Nat} (positive : 0 < place) :
    0 < (intervalAt place).low ∧ (intervalAt place).low ≤ (intervalAt place).center := by
  have whole : 1 ≤ significand place := by
    unfold significand spacing
    have parts := Nat.div_add_mod place binade
    by_cases first : place / binade = 0
    · rw [first]
      omega
    · have one : (place / binade - 1) * binade = place / binade * binade - binade := by
        rw [Nat.sub_mul, Nat.one_mul]
      have wide : 0 < binade := by decide
      rw [Nat.mul_comm] at parts
      have enough : binade ≤ place / binade * binade :=
        Nat.le_mul_of_pos_left _ (Nat.pos_of_ne_zero first)
      omega
  have spaced : 1 <<< spacing place ≤ magnitude place := by
    rw [magnitude, Nat.shiftLeft_eq, Nat.shiftLeft_eq]
    exact Nat.mul_le_mul_right _ whole
  have step : 0 < 1 <<< spacing place := by
    rw [Nat.shiftLeft_eq]
    exact Nat.mul_pos (by decide) (Nat.pow_pos (by decide))
  have half : 2 <<< spacing place = 2 * (1 <<< spacing place) := by
    rw [Nat.shiftLeft_eq, Nat.shiftLeft_eq, Nat.one_mul]
  unfold intervalAt
  dsimp only
  split <;> omega

theorem shortest_digits_ne_zero {place : Nat} (positive : 0 < place) :
    (shortest place).digits ≠ 0 := by
  rcases intervalAt_low_pos positive with ⟨above, within⟩
  unfold shortest
  exact Decimal.strip_digits_ne_zero _ (Interval.search_digits_ne_zero above within _ _)

theorem numeral_unsigned (style : DecimalStyle) (place : Nat) :
    Numeral (if place = 0 then "0.0" else style.layout (shortest place)).toList := by
  split
  next => exact Json.numeral_of_parts (.inl rfl) fraction_zero .none
  next positive =>
    exact numeral_layout style (shortest_digits_ne_zero (Nat.pos_of_ne_zero positive))

theorem numeral_toString (n : Nat) : Numeral (toString n).toList := by
  have alone := Json.numeral_of_parts (whole_toDigits n) .none .none
  rw [List.append_nil, List.append_nil] at alone
  rwa [Nat.toString_eq_ofList_toDigits, String.toList_ofList]

theorem toString_eq_signText (n : Int) :
    toString n = signText (decide (n < 0)) ++ toString n.natAbs := by
  cases n with
  | ofNat m =>
      have unsigned : decide (Int.ofNat m < 0) = false :=
        decide_eq_false (Int.not_lt.mpr (Int.natCast_nonneg m))
      rw [unsigned]
      exact String.empty_append.symm
  | negSucc m =>
      rw [decide_eq_true (Int.negSucc_lt_zero m)]
      rfl

theorem isNumber_signed {text : String} (numeral : Numeral text.toList) (negative : Bool) :
    Json.isNumber (signText negative ++ text).toList = true := by
  rw [String.toList_append]
  cases negative with
  | false => exact numeral.isNumber.1
  | true => exact numeral.isNumber.2

theorem isNumber_text (style : DecimalStyle) (negative : Bool) (place : Fin finiteCount) :
    Json.isNumber (style.text (.finite negative place)).toList = true :=
  isNumber_signed (numeral_unsigned style place) negative

theorem isNumber_toString (n : Int) : Json.isNumber (toString n).toList = true := by
  rw [toString_eq_signText]
  exact isNumber_signed (numeral_toString _) _

theorem wellFormed_toJson (x : Double) : x.toJson.WellFormed := by
  cases x with
  | finite negative place =>
      have text := isNumber_text Json.numberStyle negative place
      have finite : (Double.finite negative place).isFinite = true := rfl
      unfold Double.toJson
      rw [if_pos finite]
      split
      next n _ =>
        split
        next => exact .number (isNumber_toString n)
        next => exact .number text
      next => exact .number text
  | infinite negative => exact .null
  | notANumber => exact .null

end YamlTypes.Number
