import YamlTypes.Proofs.Json.Erasure
import YamlTypes.Proofs.Number.Integers
import YamlTypes.Proofs.Yaml.RepeatedKeys

/-!
The literals of numbers in modules.

An integer that a double holds together with its neighbours is its digits. All
larger ones are written like fractions: up to 10¹⁶ with all their digits and a
zero behind a point, from there on with an exponent and a point behind the first
digit if there are more. Whatever is written denotes its double.
-/

set_option autoImplicit false

namespace YamlTypes

namespace Number

open YamlTypes.Json (Digits numberStyle)

variable {x : Decimal}

theorem toDigits_mul_ten_pow {n : ℕ} (positive : 0 < n) (count : ℕ) :
    Nat.toDigits 10 (n * 10 ^ count) = Nat.toDigits 10 n ++ List.replicate count '0' := by
  induction count with
  | zero => rw [Nat.pow_zero, Nat.mul_one, List.replicate_zero, List.append_nil]
  | succ count inductionHypothesis =>
      have more := Nat.mul_pos positive (Nat.pow_pos (n := count) (by decide : 0 < 10))
      have last : n * 10 ^ (count + 1) = 10 * (n * 10 ^ count) + 0 := by ring
      rw [last, ← Nat.toDigits_append_toDigits (by decide) more (by decide), inductionHypothesis,
        Nat.toDigits_zero, List.append_assoc, ← List.replicate_succ']

theorem layout_of_small {n : ℕ} (value : x.value = n) (whole : 0 ≤ x.exponent) (positive : 0 < n)
    (small : n < 10 ^ 16) : numberStyle.layout x = toString n ++ ".0" := by
  obtain ⟨digits, exponent⟩ := x
  obtain ⟨exponent, rfl⟩ := Int.eq_ofNat_of_zero_le whole
  have product : digits * 10 ^ exponent = n := by
    rw [Decimal.value, zpow_natCast] at value
    exact_mod_cast value
  have nonzero : 0 < digits := by
    apply Nat.pos_of_ne_zero
    rintro rfl
    omega
  have all := toDigits_mul_ten_pow nonzero exponent
  rw [product] at all
  have length : (Nat.toDigits 10 n).length ≤ 16 :=
    (Nat.length_toDigits_le_iff (by decide) (by decide)).mpr small
  have first : 0 < (Nat.toDigits 10 digits).length := Nat.length_toDigits_pos
  rw [all, List.length_append, List.length_replicate] at length
  have positional : ¬((exponent : ℤ) + (Nat.toDigits 10 digits).length - 1 < numberStyle.least ∨
      numberStyle.above ≤ (exponent : ℤ) + (Nat.toDigits 10 digits).length - 1) := by
    have least : numberStyle.least = -5 := rfl
    have above : numberStyle.above = 16 := rfl
    omega
  unfold DecimalStyle.layout
  dsimp only
  rw [if_neg positional, if_pos whole, Int.toNat_natCast, zeros, ← String.ofList_append, ← all,
    Nat.toString_eq_ofList_toDigits]

theorem le_leading (large : 10 ^ 16 ≤ x.value) :
    16 ≤ x.exponent + (Nat.toDigits 10 x.digits).length - 1 := by
  have ten : (0 : ℚ) < 10 := by norm_num
  have short : x.digits < 10 ^ (Nat.toDigits 10 x.digits).length :=
    (Nat.length_toDigits_le_iff (by decide) Nat.length_toDigits_pos).mp (le_refl _)
  have below : (x.digits : ℚ) < 10 ^ ((Nat.toDigits 10 x.digits).length : ℤ) := by
    rw [zpow_natCast]
    exact_mod_cast short
  have power : (10 : ℚ) ^ (16 : ℤ) < 10 ^ ((Nat.toDigits 10 x.digits).length + x.exponent) := by
    rw [zpow_add₀ ten.ne']
    exact lt_of_le_of_lt large (mul_lt_mul_of_pos_right below (zpow_pos ten _))
  have more := (zpow_lt_zpow_iff_right₀ (by norm_num)).mp power
  omega

/-- From 10¹⁶ on there is an exponent, and a point only if there is more than one digit. -/
theorem layout_of_large (large : 10 ^ 16 ≤ x.value) :
    ∃ digits exponent, Digits digits ∧ 16 ≤ exponent ∧
      numberStyle.layout x = String.ofList (digits.take 1) ++
        (if digits.length = 1 then "" else "." ++ String.ofList (digits.drop 1)) ++ "e+" ++
          toString exponent := by
  have leading := le_leading large
  have given := digits_toDigits x.digits
  have behind : numberStyle.above ≤ x.exponent + (Nat.toDigits 10 x.digits).length - 1 := leading
  unfold DecimalStyle.layout
  dsimp only
  rw [if_pos (.inr behind)]
  generalize Nat.toDigits 10 x.digits = digits at *
  have above : ¬x.exponent + (digits.length : ℤ) - 1 < 0 := by omega
  have single : (digits.drop 1).isEmpty = true ↔ digits.length = 1 := by
    have length := List.length_pos_iff.mpr given.nonempty
    rw [List.isEmpty_iff, List.drop_eq_nil_iff]
    omega
  refine ⟨digits, (x.exponent + digits.length - 1).natAbs, given, by omega, ?_⟩
  have plus : numberStyle.plusSign = true := rfl
  have sign : "e+" = "e" ++ "+" := rfl
  rw [if_neg above, if_pos plus, if_congr single rfl rfl, sign, ← String.append_assoc]

end Number

namespace Value

open Double (maxSafeInteger)
open Number (DecimalStyle binade literalValue magnitude shortest signText unitsInOne)
open Json (numberStyle)

variable {x : Double} {n : ℤ}

theorem pretty_toJson (x : Double) (indent : String) :
    x.toJson.pretty indent = (number x).literal := by
  have erases := erases_number x
  change x.toJson.pretty indent = x.toJson.pretty ""
  generalize x.toJson = json at *
  cases erases <;> rfl

theorem literal_of_small (isValue : x.value? = some (n : ℚ)) (small : n.natAbs ≤ maxSafeInteger) :
    (number x).literal = toString n := by
  have whole := Double.toInt?_eq_some_iff.mpr isValue
  change x.toJson.pretty "" = toString n
  rw [Double.toJson_of_natAbs_le whole small, Json.pretty]

theorem literal_of_forall_lt (finite : x.isFinite = true)
    (large : ∀ n, x.toInt? = some n → maxSafeInteger < n.natAbs) :
    (number x).literal = numberStyle.text x := by
  change x.toJson.pretty "" = numberStyle.text x
  rw [Double.toJson_of_forall_lt finite large, Json.pretty]

theorem literal_of_large (isValue : x.value? = some (n : ℚ)) (large : maxSafeInteger < n.natAbs) :
    ∃ place, magnitude place = n.natAbs * unitsInOne ∧
      (number x).literal = signText (n < 0) ++ numberStyle.layout (shortest place) := by
  have whole := Double.toInt?_eq_some_iff.mpr isValue
  obtain ⟨negative, place, rfl, isWhole, sign⟩ := Double.exists_place isValue
  have positive := Nat.zero_lt_of_lt large
  have nonzero := Number.place_pos isWhole positive
  refine ⟨place, isWhole, ?_⟩
  rw [literal_of_forall_lt rfl, DecimalStyle.text, if_neg nonzero.ne', sign (by omega)]
  intro m also
  rw [Option.some.inj (also.symm.trans whole)]
  exact large

theorem notMem_toString_point (n : ℤ) : '.' ∉ (toString n).toList := by
  have sign : ∀ negative, '.' ∉ (signText negative).toList := by decide
  rw [Number.toString_eq_signText, String.toList_append, List.mem_append, not_or]
  refine ⟨sign _, ?_⟩
  rw [Nat.toString_eq_ofList_toDigits, String.toList_ofList]
  intro member
  cases (Number.digits_toDigits n.natAbs).only '.' member

theorem denoted_literal (finite : x.isFinite = true) : x.Denoted (number x).literal := by
  by_cases small : ∃ n, x.toInt? = some n ∧ n.natAbs ≤ maxSafeInteger
  · obtain ⟨n, whole, small⟩ := small
    have isValue := Double.toInt?_eq_some_iff.mp whole
    rw [literal_of_small isValue small]
    exact Double.denoted_toString isValue
  · rw [literal_of_forall_lt finite]
    · exact Double.denoted_text numberStyle finite
    · intro n whole
      exact Nat.lt_of_not_le fun le => small ⟨n, whole, le⟩

theorem literal_eq_null_iff : (number x).literal = "null" ↔ x.isFinite = false := by
  constructor
  · intro isNull
    have noNumber : Json.isNumber "null".toList = false := by decide
    have wellFormed := Number.wellFormed_toJson x
    have erases := erases_number x
    change x.toJson.pretty "" = "null" at isNull
    generalize x.toJson = json at *
    cases erases with
    | notFinite infinite => exact infinite
    | integer | decimal =>
        cases wellFormed with
        | number isNumber =>
            rw [Json.pretty] at isNull
            rw [isNull, noNumber] at isNumber
            cases isNumber
  · intro infinite
    change x.toJson.pretty "" = "null"
    rw [Double.toJson_of_isFinite_eq_false infinite, Json.pretty]

/-- The literal of a number denotes it, and only those without a number are null. An integer whose
neighbours are doubles too has no point and stands for itself; every larger one below 10¹⁶ has a
point and a zero, and from there on an exponent, with a point if there is more than one digit. A
module has the literal after `const data =`, and wherever the number stands in its data. -/
theorem number_literals (x : Double) :
    ((number x).literal = "null" ↔ x.isFinite = false) ∧
    (x.isFinite = true → ∀ y : Double, y.Denoted (number x).literal ↔ y.equal x = true) ∧
    (∀ n : ℤ, x.value? = some (n : ℚ) →
      (n.natAbs ≤ maxSafeInteger →
        (number x).literal = toString n ∧ '.' ∉ (number x).literal.toList ∧
          literalValue (number x).literal.toList = n) ∧
      (maxSafeInteger < n.natAbs → n.natAbs < 10 ^ 16 →
        (number x).literal = toString n ++ ".0") ∧
      (10 ^ 16 ≤ n.natAbs → ∃ digits exponent, Json.Digits digits ∧ 16 ≤ exponent ∧
        (number x).literal = signText (n < 0) ++ (String.ofList (digits.take 1) ++
          (if digits.length = 1 then "" else "." ++ String.ofList (digits.drop 1)) ++ "e+" ++
            toString exponent))) ∧
    (number x).moduleBody = "const data = " ++ (number x).literal ++ ";\nexport default data;\n" ∧
    (∀ (value : Value) (path : List Step), value.Decoded → value.Within path (.number x) →
      (number x).literal.toList <:+: value.moduleBody.toList) := by
  refine ⟨literal_eq_null_iff, fun finite y => (denoted_literal finite).iff, ?_, rfl, ?_⟩
  · intro n isValue
    refine ⟨?_, ?_, ?_⟩
    · intro small
      rw [literal_of_small isValue small]
      exact ⟨rfl, notMem_toString_point n, Number.literalValue_toString n⟩
    · intro large small
      obtain ⟨place, isWhole, isText⟩ := literal_of_large isValue large
      obtain ⟨value, whole⟩ := Number.value_shortest isWhole large (small.trans (by decide))
      rw [isText, Number.layout_of_small value whole (Nat.zero_lt_of_lt large) small,
        Number.toString_eq_signText, String.append_assoc]
    · intro huge
      have large : maxSafeInteger < n.natAbs := Nat.lt_of_lt_of_le (by decide) huge
      obtain ⟨place, isWhole, isText⟩ := literal_of_large isValue large
      obtain ⟨digits, exponent, given, least, isLayout⟩ :=
        Number.layout_of_large (Number.le_value_shortest isWhole huge)
      exact ⟨digits, exponent, given, least, by rw [isText, isLayout]⟩
  · intro value path decoded within
    have inside := within.infix_literal decoded (rfl : (number x).toJson? = some x.toJson)
    rw [pretty_toJson] at inside
    exact inside.trans (infix_of_append _ _ _)

def minusZero : Double := .finite true ⟨0, by decide⟩

def twoAndHalf : Double := .finite false ⟨1024 * binade + binade / 4, by decide⟩

theorem number_literals_twoAndHalf :
    twoAndHalf.Denoted "2.5" ∧ (number minusZero).literal = "0" := by
  obtain ⟨-, denotes, -⟩ := number_literals twoAndHalf
  obtain ⟨-, -, integers, -⟩ := number_literals minusZero
  have text : (number twoAndHalf).literal = "2.5" := by decide +kernel
  have zero : minusZero.value? = some ((0 : ℤ) : ℚ) := Double.toInt?_eq_some_iff.mp rfl
  constructor
  · rw [← text]
    exact (denotes rfl twoAndHalf).mpr rfl
  · exact ((integers 0 zero).1 (Nat.zero_le _)).1

/-- 2⁵³, the first integer whose literal has a point. -/
def beyondSafe : Double := .finite false ⟨1076 * binade, by decide⟩

theorem beyondSafe_has_point :
    beyondSafe.value? = some ((9007199254740992 : ℤ) : ℚ) ∧
      (number beyondSafe).moduleBody =
        "const data = 9007199254740992.0;\nexport default data;\n" ∧
      '.' ∈ (number beyondSafe).literal.toList := by
  refine ⟨Double.toInt?_eq_some_iff.mp ?_, ?_, ?_⟩ <;> decide +kernel

end Value

end YamlTypes
