import YamlTypes.Proofs.Number.Shortest

/-!
What the literals of numbers stand for.

A literal stands for a rational number: its digits together, where the digits
behind the point and the exponent move the point. It denotes the doubles that
this number rounds to, which is one double, or both zeros. In each of the layouts
a decimal stands for its own value.
-/

set_option autoImplicit false

namespace YamlTypes

namespace Number

open YamlTypes.Json (Digits Fraction Exponent isDigit takeWhile_append_of_apart)

variable {digits whole fraction exponent : List Char}

def digitsValue (digits : List Char) : ℕ := Nat.ofDigitChars 10 digits 0

def exponentValue : List Char → ℤ
  | _ :: '-' :: digits => -digitsValue digits
  | _ :: '+' :: digits => digitsValue digits
  | _ :: digits => digitsValue digits
  | [] => 0

def numeralValue (text : List Char) : ℚ :=
  let whole := text.takeWhile isDigit
  match text.dropWhile isDigit with
  | '.' :: rest =>
    let fraction := rest.takeWhile isDigit
    digitsValue (whole ++ fraction) *
      10 ^ (exponentValue (rest.dropWhile isDigit) - fraction.length)
  | rest => digitsValue whole * 10 ^ exponentValue rest

def literalValue : List Char → ℚ
  | '-' :: text => -numeralValue text
  | text => numeralValue text

theorem digitsValue_toDigits (n : ℕ) : digitsValue (Nat.toDigits 10 n) = n :=
  Nat.ofDigitChars_ten_toDigits

theorem digitsValue_zerosBehind (digits : List Char) (count : ℕ) :
    digitsValue (digits ++ List.replicate count '0') = digitsValue digits * 10 ^ count := by
  rw [digitsValue, Nat.ofDigitChars_append, Nat.ofDigitChars_replicate_zero, Nat.mul_comm]
  rfl

theorem digitsValue_zerosBefore (count : ℕ) (digits : List Char) :
    digitsValue (List.replicate count '0' ++ digits) = digitsValue digits := by
  rw [digitsValue, Nat.ofDigitChars_append, Nat.ofDigitChars_replicate_zero, Nat.mul_zero]
  rfl

theorem exponentValue_toDigits (letter : Char) (n : ℕ) :
    exponentValue (letter :: Nat.toDigits 10 n) = n := by
  have unsigned : ∀ sign rest, Nat.toDigits 10 n = sign :: rest → isDigit sign = true := by
    intro sign rest begins
    exact (digits_toDigits n).only sign (begins ▸ List.mem_cons_self)
  rw [exponentValue, digitsValue_toDigits]
  · intro rest begins
    cases unsigned _ _ begins
  · intro rest begins
    cases unsigned _ _ begins

/-- The parts of a numeral tell its value. The fraction has its point in front. -/
theorem numeralValue_of_parts (only : ∀ c ∈ whole, isDigit c = true) (fractions : Fraction fraction)
    (exponents : Exponent exponent) :
    numeralValue (whole ++ (fraction ++ exponent)) =
      digitsValue (whole ++ fraction.tail) *
        10 ^ (exponentValue exponent - fraction.tail.length) := by
  obtain ⟨taken, dropped⟩ := takeWhile_append_of_apart only (fractions.noDigit exponents)
  rw [numeralValue, taken, dropped]
  cases fractions with
  | none =>
      rw [List.nil_append, List.tail_nil, List.append_nil, List.length_nil, Nat.cast_zero, sub_zero]
      cases exponents <;> rfl
  | digits given =>
      obtain ⟨taken, dropped⟩ := takeWhile_append_of_apart given.only exponents.noDigit
      simp only [List.cons_append, taken, dropped, List.tail_cons]

/-- The digits on both sides of the point are those of a decimal, and the exponent is counted from
their end. -/
theorem numeralValue_eq {x : Decimal} (only : ∀ c ∈ whole, isDigit c = true)
    (fractions : Fraction fraction) (exponents : Exponent exponent)
    (isDigits : digitsValue (whole ++ fraction.tail) = x.digits)
    (isExponent : exponentValue exponent - fraction.tail.length = x.exponent) :
    numeralValue (whole ++ (fraction ++ exponent)) = x.value := by
  rw [numeralValue_of_parts only fractions exponents, isDigits, isExponent, Decimal.value]

section

variable {x : Decimal} (given : Digits digits) (isDigits : digitsValue digits = x.digits)

theorem exponentValue_scientific (style : DecimalStyle) (leading : ℤ) :
    exponentValue ('e' :: ((if leading < 0 then ['-'] else if style.plusSign then ['+'] else []) ++
      Nat.toDigits 10 leading.natAbs)) = leading := by
  split
  next below =>
    change -(digitsValue (Nat.toDigits 10 leading.natAbs) : ℤ) = leading
    rw [digitsValue_toDigits]
    omega
  next =>
    split
    next =>
      change (digitsValue (Nat.toDigits 10 leading.natAbs) : ℤ) = leading
      rw [digitsValue_toDigits]
      omega
    next =>
      rw [List.nil_append, exponentValue_toDigits]
      omega

include given isDigits

theorem numeralValue_scientific (style : DecimalStyle) :
    numeralValue (digits.take 1 ++ ((if digits.drop 1 = [] then [] else '.' :: digits.drop 1) ++
      'e' :: ((if x.exponent + digits.length - 1 < 0 then ['-']
        else if style.plusSign then ['+'] else []) ++
          Nat.toDigits 10 (x.exponent + digits.length - 1).natAbs))) = x.value := by
  have tail : (if digits.drop 1 = [] then [] else '.' :: digits.drop 1).tail = digits.drop 1 := by
    split
    next none => rw [none, List.tail_nil]
    next => rfl
  have length := List.length_pos_iff.mpr given.nonempty
  apply numeralValue_eq (Digits.take given 0).only (fraction_scientific given)
    (exponent_scientific style _)
  · rw [tail, List.take_append_drop, isDigits]
  · rw [tail, exponentValue_scientific, List.length_drop]
    omega

theorem numeralValue_zerosBehind {count : ℕ} (isExponent : x.exponent = count) :
    numeralValue (digits ++ List.replicate count '0' ++ (['.', '0'] ++ [])) = x.value := by
  have zero : digits ++ List.replicate count '0' ++ ['.', '0'].tail =
      digits ++ List.replicate (count + 1) '0' := by
    rw [List.replicate_succ', List.append_assoc]
    rfl
  have last : exponentValue [] - (['.', '0'].tail.length : ℕ) = -1 := rfl
  rw [numeralValue_of_parts (isDigit_zerosBehind given count) fraction_zero .none, zero, last,
    digitsValue_zerosBehind, isDigits, Decimal.value, isExponent, Nat.cast_mul, Nat.cast_pow,
    pow_succ, zpow_neg_one, zpow_natCast, mul_assoc, Nat.cast_ofNat,
    mul_inv_cancel_right₀ (by norm_num)]

theorem numeralValue_pointWithin {count : ℕ} (more : count + 1 < digits.length)
    (isExponent : x.exponent + digits.length = count + 1) :
    numeralValue (digits.take (count + 1) ++ ('.' :: digits.drop (count + 1) ++ [])) = x.value := by
  apply numeralValue_eq (Digits.take given count).only (.digits (Digits.drop given more)) .none
  · rw [List.tail_cons, List.take_append_drop, isDigits]
  · rw [List.tail_cons, List.length_drop, exponentValue]
    omega

theorem numeralValue_zerosBefore {count : ℕ} (isExponent : x.exponent + digits.length = -count) :
    numeralValue (['0'] ++ ('.' :: (List.replicate count '0' ++ digits) ++ [])) = x.value := by
  have behind := digits_zerosBefore given count
  apply numeralValue_eq (List.forall_mem_singleton.mpr rfl) (.digits behind) .none
  · have zero : ['0'] ++ ('.' :: (List.replicate count '0' ++ digits)).tail =
        List.replicate (count + 1) '0' ++ digits := rfl
    rw [zero, digitsValue_zerosBefore, isDigits]
  · rw [List.tail_cons, List.length_append, List.length_replicate, exponentValue]
    omega

end

theorem numeralValue_layout (style : DecimalStyle) (x : Decimal) :
    numeralValue (style.layout x).toList = x.value := by
  have given := digits_toDigits x.digits
  have isDigits := digitsValue_toDigits x.digits
  unfold DecimalStyle.layout
  dsimp only
  split
  next =>
    rw [toList_scientific]
    exact numeralValue_scientific given isDigits style
  next =>
    split
    next =>
      rw [toList_zerosBehind]
      apply numeralValue_zerosBehind given isDigits
      omega
    next =>
      split
      next =>
        rw [toList_pointWithin]
        apply numeralValue_pointWithin given isDigits <;> omega
      next =>
        rw [toList_zerosBefore]
        apply numeralValue_zerosBefore given isDigits
        omega

theorem literalValue_of_isDigit {c : Char} {rest : List Char} (digit : isDigit c = true) :
    literalValue (c :: rest) = numeralValue (c :: rest) := by
  rw [literalValue]
  rintro rest ⟨⟩
  cases digit

theorem literalValue_numeral {text : List Char} (numeral : Json.Numeral text) :
    literalValue text = numeralValue text := by
  obtain ⟨whole, fraction, exponent, given, -, -, rfl⟩ := numeral
  obtain ⟨c, later, rfl, digit⟩ := given.exists_digit
  exact literalValue_of_isDigit digit

theorem literalValue_signed {text : String} (numeral : Json.Numeral text.toList) (negative : Bool) :
    literalValue (signText negative ++ text).toList =
      if negative then -numeralValue text.toList else numeralValue text.toList := by
  rw [String.toList_append]
  cases negative with
  | false => exact literalValue_numeral numeral
  | true => rfl

example : literalValue "-12.5e-1".toList = -5 / 4 := by decide +kernel

theorem numeralValue_toString (n : ℕ) : numeralValue (toString n).toList = n := by
  have alone := numeralValue_of_parts (digits_toDigits n).only .none .none
  rw [Nat.toString_eq_ofList_toDigits, String.toList_ofList]
  simpa [digitsValue_toDigits, exponentValue] using alone

theorem literalValue_toString (n : ℤ) : literalValue (toString n).toList = n := by
  rw [toString_eq_signText, literalValue_signed (numeral_toString _), numeralValue_toString,
    Nat.cast_natAbs]
  obtain below | above := Int.lt_or_le n 0
  · rw [decide_eq_true below, abs_of_neg below, Int.cast_neg, neg_neg]
    rfl
  · rw [decide_eq_false (Int.not_lt.mpr above), abs_of_nonneg above]
    rfl

theorem rounds_unsigned (style : DecimalStyle) (place : ℕ) :
    Rounds (numeralValue (if place = 0 then "0.0" else style.layout (shortest place)).toList)
      place := by
  split
  next zero =>
    have only : ∀ c ∈ ['0'], isDigit c = true := List.forall_mem_singleton.mpr rfl
    have digits : digitsValue (['0'] ++ ['.', '0'].tail) = 0 := rfl
    have isZero := numeralValue_of_parts only fraction_zero .none
    rw [digits, Nat.cast_zero, zero_mul, ← rankValue_zero] at isZero
    rw [zero]
    exact isZero ▸ rounds_self 0
  next positive =>
    rw [numeralValue_layout]
    exact rounds_shortest (Nat.pos_of_ne_zero positive)

theorem rankValue_eq_iff {rank n : ℤ} : rankValue rank = n ↔ rankUnits rank = n * unitsInOne := by
  rw [rankValue, div_eq_iff unitsInOne_pos.ne']
  norm_cast

theorem whole_iff {units : ℕ} {n : ℤ} :
    units % unitsInOne = 0 ∧ (units : ℤ) / unitsInOne = n ↔ (units : ℤ) = n * unitsInOne := by
  have positive : (unitsInOne : ℤ) ≠ 0 := by
    exact_mod_cast unitsInOne_pos.ne'
  constructor
  · rintro ⟨whole, rfl⟩
    exact (Int.ediv_mul_cancel (Int.natCast_dvd_natCast.mpr (Nat.dvd_of_mod_eq_zero whole))).symm
  · intro product
    refine ⟨?_, ?_⟩
    · apply Nat.mod_eq_zero_of_dvd
      rw [← Int.natCast_dvd_natCast, product]
      exact Int.dvd_mul_left _ _
    · rw [product, Int.mul_ediv_cancel _ positive]

end Number

namespace Double

open Number

/-- The place of a finite double, counted from zero to both sides. -/
def rank? : Double → Option ℤ
  | .finite negative place => some (if negative then -place.val else place.val)
  | .infinite _ => none
  | .notANumber => none

def value? (x : Double) : Option ℚ := x.rank?.map rankValue

/-- A double is denoted by a text that stands for a number rounding to it. -/
def Denoted (x : Double) (text : String) : Prop :=
  ∃ rank, x.rank? = some rank ∧ Rounds (literalValue text.toList) rank

variable {x y : Double}

theorem equal_iff {rank : ℤ} (isRank : x.rank? = some rank) :
    y.equal x = true ↔ y.rank? = some rank := by
  cases x with
  | infinite negative => cases isRank
  | notANumber => cases isRank
  | finite negative place =>
      obtain rfl := Option.some.inj isRank
      cases y with
      | infinite negative => simp [equal, rank?]
      | notANumber => simp [equal, rank?]
      | finite other otherPlace =>
          simp only [equal, rank?, Bool.and_eq_true, Bool.or_eq_true, beq_iff_eq, Fin.ext_iff,
            Option.some_inj]
          cases negative <;> cases other <;> simp <;> omega

theorem toInt?_eq_some_iff {n : ℤ} : x.toInt? = some n ↔ x.value? = some (n : ℚ) := by
  cases x with
  | infinite negative => simp [toInt?, value?, rank?]
  | notANumber => simp [toInt?, value?, rank?]
  | finite negative place =>
      unfold toInt?
      cases negative with
      | false =>
          simp only [value?, rank?, Option.map_some, Option.some_inj, Bool.false_eq_true,
            ↓reduceIte, Option.ite_none_right_eq_some, rankValue_eq_iff]
          exact whole_iff
      | true =>
          simp only [value?, rank?, Option.map_some, Option.some_inj, ↓reduceIte,
            Option.ite_none_right_eq_some, rankValue_eq_iff, rankUnits_neg, neg_eq_iff_eq_neg,
            ← neg_mul]
          exact whole_iff

/-- A double that is an integer has a place whose units make up so many ones. -/
theorem exists_place {n : ℤ} (isValue : x.value? = some (n : ℚ)) :
    ∃ negative place, x = .finite negative place ∧
      magnitude place = n.natAbs * unitsInOne ∧ (n ≠ 0 → negative = decide (n < 0)) := by
  cases x with
  | infinite negative => cases isValue
  | notANumber => cases isValue
  | finite negative place =>
      have units := rankValue_eq_iff.mp (Option.some.inj isValue)
      have positive : 0 < unitsInOne := Nat.cast_pos.mp unitsInOne_pos
      refine ⟨negative, place, rfl, ?_⟩
      generalize unitsInOne = one at *
      have some : (0 : ℤ) < one := Int.natCast_pos.mpr positive
      have above := Int.natCast_nonneg (magnitude place)
      cases negative with
      | false =>
          have product : (magnitude place : ℤ) = n * one := units
          rw [product] at above
          have sign : 0 ≤ n := nonneg_of_mul_nonneg_left above some
          refine ⟨?_, fun _ => (decide_eq_false (Int.not_lt.mpr sign)).symm⟩
          rw [← Int.natAbs_natCast (magnitude place), product, Int.natAbs_mul, Int.natAbs_natCast]
      | true =>
          have mirrored : -(magnitude place : ℤ) = n * one :=
            (rankUnits_neg place).symm.trans units
          have product : (magnitude place : ℤ) = -n * one := by rw [neg_mul, ← mirrored, neg_neg]
          rw [product] at above
          have sign : 0 ≤ -n := nonneg_of_mul_nonneg_left above some
          refine ⟨?_, fun nonzero => (decide_eq_true (by omega)).symm⟩
          rw [← Int.natAbs_natCast (magnitude place), product, Int.natAbs_mul, Int.natAbs_neg,
            Int.natAbs_natCast]

/-- A text denotes one double, up to the sign of zero. -/
theorem Denoted.iff {text : String} (denoted : x.Denoted text) :
    y.Denoted text ↔ y.equal x = true := by
  obtain ⟨rank, isRank, rounds⟩ := denoted
  rw [equal_iff isRank]
  constructor
  · rintro ⟨other, isOther, also⟩
    rw [isOther, also.unique rounds]
  · intro same
    exact ⟨rank, same, rounds⟩

theorem denoted_text (style : DecimalStyle) (finite : x.isFinite = true) :
    x.Denoted (style.text x) := by
  cases x with
  | infinite negative => cases finite
  | notANumber => cases finite
  | finite negative place =>
      have rounds := rounds_unsigned style place
      refine ⟨_, rfl, ?_⟩
      rw [DecimalStyle.text, literalValue_signed (numeral_unsigned style place)]
      cases negative with
      | false => exact rounds
      | true => exact rounds.neg

theorem denoted_toString {n : ℤ} (whole : x.value? = some (n : ℚ)) : x.Denoted (toString n) := by
  obtain ⟨rank, isRank, value⟩ := Option.map_eq_some_iff.mp whole
  refine ⟨rank, isRank, ?_⟩
  rw [literalValue_toString, ← value]
  exact rounds_self rank

end Double

end YamlTypes
