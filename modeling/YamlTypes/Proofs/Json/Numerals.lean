import YamlTypes.Proofs.Json.Tokens

/-!
The numbers of JSON.

A number has a whole part without a zero in front, and then perhaps a fraction
and an exponent, each with at least one digit. What is put together from such
parts is a number, and every number is a single word.
-/

set_option autoImplicit false

namespace YamlTypes.Json

variable {c : Char} {text rest after : List Char}

/-- The parts of a number take characters of words from the front of a text. -/
def TakesWord (part? : List Char → Option (List Char)) : Prop :=
  ∀ text after : List Char, part? text = some after →
    ∃ word, text = word ++ after ∧ ∀ c ∈ word, isWordChar c = true

theorem TakesWord.bind {first second : List Char → Option (List Char)} (takes : TakesWord first)
    (also : TakesWord second) : TakesWord fun text => (first text).bind second := by
  intro text after taken
  rcases Option.bind_eq_some_iff.mp taken with ⟨middle, before, behind⟩
  rcases takes text middle before with ⟨word, rfl, only⟩
  rcases also middle after behind with ⟨next, rfl, onlyNext⟩
  exact ⟨word ++ next, (List.append_assoc _ _ _).symm, List.forall_mem_append.mpr ⟨only, onlyNext⟩⟩

theorem isWordChar_of_isDigit (digit : isDigit c = true) : isWordChar c = true := by
  unfold isWordChar
  simp only [digit, Bool.true_or]

theorem afterDigits?_takesWord : TakesWord afterDigits? := by
  intro text after taken
  unfold afterDigits? at taken
  split at taken
  next c rest =>
    split at taken
    next =>
      obtain rfl := Option.some.inj taken
      refine ⟨(c :: rest).takeWhile isDigit, List.takeWhile_append_dropWhile.symm, ?_⟩
      intro d member
      exact isWordChar_of_isDigit (List.all_eq_true.mp List.all_takeWhile d member)
    next => cases taken
  next => cases taken

theorem TakesWord.behind {part? : List Char → Option (List Char)} (takes : TakesWord part?)
    (wordChar : isWordChar c = true) (taken : part? rest = some after) :
    ∃ word, c :: rest = word ++ after ∧ ∀ d ∈ word, isWordChar d = true := by
  rcases takes rest after taken with ⟨word, rfl, only⟩
  exact ⟨c :: word, rfl, List.forall_mem_cons.mpr ⟨wordChar, only⟩⟩

theorem some_takesWord : TakesWord some := by
  intro text after taken
  exact ⟨[], Option.some.inj taken, nofun⟩

theorem afterInteger?_takesWord : TakesWord afterInteger? := by
  intro text after taken
  unfold afterInteger? at taken
  split at taken
  next => exact some_takesWord.behind rfl taken
  next => exact afterDigits?_takesWord _ _ taken

theorem afterFraction?_takesWord : TakesWord afterFraction? := by
  intro text after taken
  unfold afterFraction? at taken
  split at taken
  next => exact afterDigits?_takesWord.behind rfl taken
  next => exact some_takesWord _ _ taken

theorem afterSign_takesWord : TakesWord fun text => afterDigits? (afterSign text) := by
  intro text after taken
  unfold afterSign at taken
  dsimp only at taken
  split at taken
  next => exact afterDigits?_takesWord.behind rfl taken
  next => exact afterDigits?_takesWord.behind rfl taken
  next => exact afterDigits?_takesWord _ _ taken

theorem afterExponent?_takesWord : TakesWord afterExponent? := by
  intro text after taken
  unfold afterExponent? at taken
  split at taken
  next => exact afterSign_takesWord.behind rfl taken
  next => exact afterSign_takesWord.behind rfl taken
  next => exact some_takesWord _ _ taken

theorem isWordChar_of_isNumber (number : isNumber text = true) :
    ∀ c ∈ text, isWordChar c = true := by
  have unsigned := (afterInteger?_takesWord.bind afterFraction?_takesWord).bind
    afterExponent?_takesWord
  unfold isNumber at number
  dsimp only at number
  split at number
  next whole =>
    split at whole
    next rest =>
      rcases unsigned.behind (c := '-') rfl whole with ⟨word, same, only⟩
      rw [same, List.append_nil]
      exact only
    next =>
      rcases unsigned _ _ whole with ⟨word, same, only⟩
      rw [same, List.append_nil]
      exact only
  next => cases number

structure Digits (text : List Char) : Prop where
  nonempty : text ≠ []
  only : ∀ c ∈ text, isDigit c = true

def Whole (text : List Char) : Prop := text = ['0'] ∨ Digits text ∧ text.head? ≠ some '0'

inductive Fraction : List Char → Prop
  | none : Fraction []
  | digits {digits : List Char} : Digits digits → Fraction ('.' :: digits)

inductive Exponent : List Char → Prop
  | none : Exponent []
  | digits {sign digits : List Char} : sign ∈ [[], ['+'], ['-']] → Digits digits →
      Exponent ('e' :: (sign ++ digits))

def Numeral (text : List Char) : Prop :=
  ∃ whole fraction exponent, Whole whole ∧ Fraction fraction ∧ Exponent exponent ∧
    text = whole ++ (fraction ++ exponent)

theorem numeral_of_parts {whole fraction exponent : List Char} (given : Whole whole)
    (fractions : Fraction fraction) (exponents : Exponent exponent) :
    Numeral (whole ++ (fraction ++ exponent)) :=
  ⟨whole, fraction, exponent, given, fractions, exponents, rfl⟩

def NoDigit (text : List Char) : Prop := ∀ c ∈ text.head?, isDigit c = false

theorem Digits.afterDigits? {digits : List Char} (given : Digits digits) (stops : NoDigit rest) :
    afterDigits? (digits ++ rest) = some rest := by
  have dropped := (takeWhile_append_of_apart given.only stops).2
  cases digits with
  | nil => exact absurd rfl given.nonempty
  | cons c later =>
      rw [List.cons_append] at dropped ⊢
      rw [Json.afterDigits?, if_pos (given.only c List.mem_cons_self), dropped]

theorem Whole.afterInteger? {whole : List Char} (given : Whole whole) (stops : NoDigit rest) :
    afterInteger? (whole ++ rest) = some rest := by
  rcases given with rfl | ⟨digits, noZero⟩
  · rfl
  · unfold Json.afterInteger?
    split
    next later begins =>
      cases whole with
      | nil => exact absurd rfl digits.nonempty
      | cons c others =>
          obtain rfl := (List.cons.inj begins).1
          exact absurd rfl noZero
    next => exact digits.afterDigits? stops

theorem Whole.exists_digit {whole : List Char} (given : Whole whole) :
    ∃ c later, whole = c :: later ∧ isDigit c = true := by
  rcases given with rfl | ⟨digits, -⟩
  · exact ⟨'0', [], rfl, rfl⟩
  · cases whole with
    | nil => exact absurd rfl digits.nonempty
    | cons c later => exact ⟨c, later, rfl, digits.only c List.mem_cons_self⟩

theorem Exponent.noDigit {exponent : List Char} (given : Exponent exponent) : NoDigit exponent := by
  intro c first
  cases given with
  | none => cases first
  | digits _ _ =>
      obtain rfl := Option.some.inj first
      decide

theorem Fraction.noDigit {fraction exponent : List Char} (given : Fraction fraction)
    (exponents : Exponent exponent) : NoDigit (fraction ++ exponent) := by
  cases given with
  | none => exact exponents.noDigit
  | digits digits =>
      intro c first
      obtain rfl := Option.some.inj first
      decide

theorem Fraction.afterFraction? {fraction exponent : List Char} (given : Fraction fraction)
    (exponents : Exponent exponent) : afterFraction? (fraction ++ exponent) = some exponent := by
  cases given with
  | none => cases exponents <;> rfl
  | digits digits => exact digits.afterDigits? exponents.noDigit

theorem Exponent.afterExponent? {exponent : List Char} (given : Exponent exponent) :
    afterExponent? exponent = some [] := by
  cases given with
  | none => rfl
  | @digits sign digits signs given =>
      have unsigned : afterSign (sign ++ digits) = digits := by
        simp only [List.mem_cons, List.not_mem_nil, or_false] at signs
        rcases signs with rfl | rfl | rfl
        · cases digits with
          | nil => rfl
          | cons c later =>
              have digit := given.only c List.mem_cons_self
              rw [List.nil_append]
              unfold afterSign
              split
              next begins =>
                obtain rfl := (List.cons.inj begins).1
                cases digit
              next begins =>
                obtain rfl := (List.cons.inj begins).1
                cases digit
              next => rfl
        · rfl
        · rfl
      have all : Json.afterDigits? (digits ++ []) = some [] := given.afterDigits? nofun
      change Json.afterDigits? (afterSign (sign ++ digits)) = some []
      rwa [unsigned, ← List.append_nil digits]

/-- A numeral is a number with a sign in front and without one. -/
theorem Numeral.isNumber {text : List Char} (numeral : Numeral text) :
    isNumber text = true ∧ isNumber ('-' :: text) = true := by
  rcases numeral with ⟨whole, fraction, exponent, given, fractions, exponents, rfl⟩
  have parts : ((Json.afterInteger? (whole ++ (fraction ++ exponent))).bind
      Json.afterFraction?).bind Json.afterExponent? = some [] := by
    rw [given.afterInteger? (fractions.noDigit exponents), Option.bind_some,
      fractions.afterFraction? exponents, Option.bind_some, exponents.afterExponent?]
  rcases given.exists_digit with ⟨c, later, rfl, digit⟩
  constructor
  · unfold Json.isNumber
    dsimp only
    split
    next => rfl
    next other =>
      refine absurd ?_ other
      split
      next begins =>
        obtain rfl := (List.cons.inj begins).1
        cases digit
      next => exact parts
  · unfold Json.isNumber
    dsimp only
    split
    next => rfl
    next other =>
      refine absurd ?_ other
      split
      next rest begins =>
        obtain rfl := (List.cons.inj begins).2
        exact parts
      next unsigned => exact absurd rfl (unsigned _)

end YamlTypes.Json
