import Mathlib.Algebra.Ring.Nat
import YamlTypes.Text.Utf8

/-!
The strict reading accepts exactly UTF-8.

A character's UTF-8 is a first byte and so many bytes with six bits of its value
in each. The first byte tells how many follow it and which values the next one
may have, and with these the values that it begins are exactly those of the
characters that are written with so many bytes.
-/

set_option autoImplicit false

namespace YamlTypes.Text.Utf8

open String (utf8EncodeChar)

/-! ## The UTF-8 of a character -/

/-- The last bytes of a character's UTF-8. -/
def continuation (value : Nat) : Nat → List UInt8
  | 0 => []
  | count + 1 => .ofNat (value / 64 ^ count % 64 + 0x80) :: continuation value count

/-- Which values are written with a first byte of which mark, and with how many bytes more than two
in all. -/
inductive Shape : Nat → Nat → Nat → Prop
  | two {value : Nat} : 0x80 ≤ value → value < 0x800 → Shape 0 0xC0 value
  | three {value : Nat} : 0x800 ≤ value → value < 0x10000 → Shape 1 0xE0 value
  | four {value : Nat} : 0x10000 ≤ value → value < 0x110000 → Shape 2 0xF0 value

theorem isValidChar_toNat (c : Char) : c.toNat.isValidChar := c.valid

theorem toNat_ofNat {value : Nat} (valid : value.isValidChar) :
    (Char.ofNat value).toNat = value := by
  rw [Char.ofNat, dif_pos valid]
  rfl

theorem exists_shape {c : Char} (long : 0x80 ≤ c.toNat) :
    ∃ count mark, Shape count mark c.toNat := by
  have valid := isValidChar_toNat c
  simp only [Nat.isValidChar] at valid
  by_cases two : c.toNat < 0x800
  · exact ⟨_, _, .two long two⟩
  by_cases three : c.toNat < 0x10000
  · exact ⟨_, _, .three (by omega) three⟩
  · exact ⟨_, _, .four (by omega) (by omega)⟩

theorem encode_short {c : Char} (short : c.toNat < 0x80) :
    utf8EncodeChar c = [.ofNat c.toNat] := by
  have value : c.val.toNat = c.toNat := rfl
  rw [utf8EncodeChar, value, if_pos (by omega)]

theorem encode_of_shape {c : Char} {count mark : Nat} (shape : Shape count mark c.toNat) :
    utf8EncodeChar c =
      .ofNat (c.toNat / 64 ^ (count + 1) + mark) :: continuation c.toNat (count + 1) := by
  have value : c.val.toNat = c.toNat := rfl
  simp only [utf8EncodeChar, value]
  generalize c.toNat = value at shape
  cases shape with
  | two least bound =>
    rw [if_neg (by omega), if_pos (by omega), Nat.mod_eq_of_lt (by omega : value / 64 < 32)]
    simp only [continuation, Nat.reduceAdd, Nat.reducePow, Nat.div_one]
  | three least bound =>
    rw [if_neg (by omega), if_neg (by omega), if_pos (by omega),
      Nat.mod_eq_of_lt (by omega : value / 4096 < 16)]
    simp only [continuation, Nat.reduceAdd, Nat.reducePow, Nat.div_one]
  | four least bound =>
    rw [if_neg (by omega), if_neg (by omega), if_neg (by omega),
      Nat.mod_eq_of_lt (by omega : value / 262144 < 8)]
    simp only [continuation, Nat.reduceAdd, Nat.reducePow, Nat.div_one]

/-! ## First bytes -/

/-- The first byte of a character allows for the next one. -/
theorem first_of_shape {count mark value : Nat} (valid : value.isValidChar)
    (shape : Shape count mark value) :
    value / 64 ^ (count + 1) + mark < 256 ∧
    ∃ low high, first (value / 64 ^ (count + 1) + mark) =
        ([], .inside 1 (count + 1) low high (value / 64 ^ (count + 1))) ∧
      low ≤ value / 64 ^ count % 64 + 0x80 ∧ value / 64 ^ count % 64 + 0x80 ≤ high := by
  simp only [Nat.isValidChar] at valid
  cases shape with
  | two least bound =>
    refine ⟨by omega, 0x80, 0xBF, ?_, by omega, by omega⟩
    rw [first, if_neg (by omega), if_neg (by omega), if_pos (by omega), Nat.add_sub_cancel]
  | three least bound =>
    refine ⟨by omega, ?_⟩
    by_cases lowest : value / 64 ^ 2 = 0
    · exact ⟨0xA0, 0xBF, by rw [lowest]; rfl, by omega, by omega⟩
    -- The surrogates, which are no characters, stand in the upper half of this one.
    by_cases beforeSurrogates : value / 64 ^ 2 = 0xD
    · exact ⟨0x80, 0x9F, by rw [beforeSurrogates]; rfl, by omega, by omega⟩
    · refine ⟨0x80, 0xBF, ?_, by omega, by omega⟩
      rw [first, if_neg (by omega), if_neg (by omega), if_neg (by omega), if_neg (by omega),
        if_neg (by omega), if_pos (by omega), Nat.add_sub_cancel]
  | four least bound =>
    refine ⟨by omega, ?_⟩
    by_cases lowest : value / 64 ^ 3 = 0
    · exact ⟨0x90, 0xBF, by rw [lowest]; rfl, by omega, by omega⟩
    by_cases highest : value / 64 ^ 3 = 4
    · exact ⟨0x80, 0x8F, by rw [highest]; rfl, by omega, by omega⟩
    · refine ⟨0x80, 0xBF, ?_, by omega, by omega⟩
      rw [first, if_neg (by omega), if_neg (by omega), if_neg (by omega), if_neg (by omega),
        if_neg (by omega), if_neg (by omega), if_neg (by omega), if_pos (by omega),
        Nat.add_sub_cancel]

/-- Where a byte is taken for the first one of a character, every next byte that it allows for
makes it one. -/
theorem shape_of_first {byte seen missing low high bits : Nat}
    (isFirst : first byte = ([], .inside seen missing low high bits)) :
    ∃ count mark, missing = count + 1 ∧ 0x80 ≤ low ∧ high ≤ 0xBF ∧
      ∀ value, value / 64 ^ (count + 1) = bits → low ≤ value / 64 ^ count % 64 + 0x80 →
        value / 64 ^ count % 64 + 0x80 ≤ high →
        value.isValidChar ∧ Shape count mark value ∧ byte = value / 64 ^ (count + 1) + mark := by
  simp only [Nat.isValidChar]
  simp only [first, ite_eq_iff, Prod.mk.injEq, List.cons_ne_nil, reduceCtorEq, and_false, false_or,
    or_false, true_and, State.inside.injEq] at isFirst
  obtain ⟨-, least, isFirst⟩ := isFirst
  rcases isFirst with ⟨_, -, rfl, rfl, rfl, rfl⟩ | ⟨_, isFirst⟩
  · exact ⟨0, 0xC0, rfl, by omega, by omega, fun value _ _ _ =>
      ⟨by omega, .two (by omega) (by omega), by omega⟩⟩
  rcases isFirst with ⟨_, -, rfl, rfl, rfl, rfl⟩ | ⟨_, ⟨_, -, rfl, rfl, rfl, rfl⟩ |
    ⟨_, ⟨_, -, rfl, rfl, rfl, rfl⟩ | ⟨_, isFirst⟩⟩⟩
  iterate 3
    exact ⟨1, 0xE0, rfl, by omega, by omega, fun value _ _ _ =>
      ⟨by omega, .three (by omega) (by omega), by omega⟩⟩
  rcases isFirst with ⟨_, -, rfl, rfl, rfl, rfl⟩ | ⟨_, ⟨_, -, rfl, rfl, rfl, rfl⟩ |
    ⟨_, _, -, rfl, rfl, rfl, rfl⟩⟩
  iterate 3
    exact ⟨2, 0xF0, rfl, by omega, by omega, fun value _ _ _ =>
      ⟨by omega, .four (by omega) (by omega), by omega⟩⟩

theorem first_cases (byte : Nat) :
    (byte < 0x80 ∧ first byte = ([.char (Char.ofNat byte)], .start)) ∨
    first byte = ([.invalid 1], .start) ∨
    ∃ missing low high bits, first byte = ([], .inside 1 missing low high bits) := by
  by_cases ascii : byte < 0x80
  · exact .inl ⟨ascii, if_pos ascii⟩
  · right
    grind [first]

/-! ## The bytes that follow -/

theorem piecesFrom_of_step {state next : State} {byte : UInt8} {ps : List Piece}
    (stepped : step state byte.toNat = (ps, next)) (rest : List UInt8) :
    piecesFrom state (byte :: rest) = ps ++ piecesFrom next rest := by
  rw [piecesFrom, stepped]

theorem toNat_continuation (value count : Nat) :
    (UInt8.ofNat (value / 64 ^ count % 64 + 0x80)).toNat = value / 64 ^ count % 64 + 0x80 := by
  rw [UInt8.toNat_ofNat', Nat.mod_eq_of_lt (by omega)]

theorem join_continuation (value count : Nat) :
    value / 64 ^ (count + 1) * 64 + (value / 64 ^ count % 64 + 0x80) % 64 = value / 64 ^ count := by
  rw [Nat.pow_succ, ← Nat.div_div_eq_div_mul]
  omega

theorem piecesFrom_continuation {value count low high : Nat} (seen : Nat) (rest : List UInt8)
    (low_le : low ≤ value / 64 ^ count % 64 + 0x80)
    (le_high : value / 64 ^ count % 64 + 0x80 ≤ high) :
    piecesFrom (.inside seen (count + 1) low high (value / 64 ^ (count + 1)))
        (continuation value (count + 1) ++ rest) =
      .char (Char.ofNat value) :: piecesFrom .start rest := by
  induction count generalizing seen low high with
  | zero =>
    rw [continuation, List.cons_append, piecesFrom, toNat_continuation, step,
      if_pos ⟨low_le, le_high⟩, join_continuation, Nat.pow_zero, Nat.div_one]
    rfl
  | succ count inductionHypothesis =>
    rw [continuation, List.cons_append, piecesFrom, toNat_continuation, step,
      if_pos ⟨low_le, le_high⟩, join_continuation]
    exact inductionHypothesis _ (by omega) (by omega)

theorem exists_byte {seen missing low high bits : Nat} {bytes : List UInt8} {text : List Char}
    (read : piecesFrom (.inside seen missing low high bits) bytes = text.map .char) :
    ∃ byte rest, bytes = byte :: rest ∧ low ≤ byte.toNat ∧ byte.toNat ≤ high := by
  cases bytes with
  | nil => cases text <;> simp [piecesFrom] at read
  | cons byte rest =>
    by_cases inRange : low ≤ byte.toNat ∧ byte.toNat ≤ high
    · exact ⟨byte, rest, rfl, inRange⟩
    · rw [piecesFrom, step, if_neg inRange] at read
      cases text <;> simp at read

/-- Where nothing but characters is read, a character that was begun is there in full. -/
theorem exists_continuation {count seen low high bits : Nat} {bytes : List UInt8}
    {text : List Char} (lowest : 0x80 ≤ low) (highest : high ≤ 0xBF)
    (read : piecesFrom (.inside seen (count + 1) low high bits) bytes = text.map .char) :
    ∃ value rest later, bytes = continuation value (count + 1) ++ rest ∧
      text = Char.ofNat value :: later ∧ piecesFrom .start rest = later.map .char ∧
      value / 64 ^ (count + 1) = bits ∧ low ≤ value / 64 ^ count % 64 + 0x80 ∧
      value / 64 ^ count % 64 + 0x80 ≤ high := by
  induction count generalizing seen low high bits bytes with
  | zero =>
    rcases exists_byte read with ⟨byte, rest, rfl, low_le, le_high⟩
    rw [piecesFrom, step, if_pos ⟨low_le, le_high⟩] at read
    cases text with
    | nil => simp at read
    | cons c later =>
      simp only [Nat.reduceAdd, Nat.le_refl, if_true, List.cons_append, List.nil_append,
        List.map_cons, List.cons.injEq, Piece.char.injEq] at read
      have isByte : (bits * 64 + byte.toNat % 64) / 64 ^ 0 % 64 + 0x80 = byte.toNat := by omega
      refine ⟨bits * 64 + byte.toNat % 64, rest, later, ?_, ?_, read.2, by omega, by omega,
        by omega⟩
      · rw [continuation, isByte, UInt8.ofNat_toNat]
        rfl
      · rw [read.1]
  | succ count inductionHypothesis =>
    rcases exists_byte read with ⟨byte, rest, rfl, low_le, le_high⟩
    rw [piecesFrom, step, if_pos ⟨low_le, le_high⟩] at read
    rcases inductionHypothesis (Nat.le_refl _) (Nat.le_refl _) read with
      ⟨value, rest, later, rfl, rfl, read, upper, -⟩
    have isByte : value / 64 ^ (count + 1) % 64 + 0x80 = byte.toNat := by omega
    refine ⟨value, rest, later, ?_, rfl, read, ?_, by omega, by omega⟩
    · rw [continuation.eq_2 value (count + 1), isByte, UInt8.ofNat_toNat]
      rfl
    · rw [Nat.pow_succ, ← Nat.div_div_eq_div_mul, upper]
      omega

/-! ## Texts -/

theorem piecesFrom_encode (c : Char) (rest : List UInt8) :
    piecesFrom .start (utf8EncodeChar c ++ rest) = .char c :: piecesFrom .start rest := by
  by_cases short : c.toNat < 0x80
  · have isByte : (UInt8.ofNat c.toNat).toNat = c.toNat := by
      rw [UInt8.toNat_ofNat', Nat.mod_eq_of_lt (by omega)]
    have stepped : step .start (UInt8.ofNat c.toNat).toNat = ([.char c], .start) := by
      rw [step, isByte, first, if_pos short, Char.ofNat_toNat]
    rw [encode_short short, List.singleton_append, piecesFrom_of_step stepped]
    rfl
  · rcases exists_shape (Nat.le_of_not_lt short) with ⟨count, mark, shape⟩
    rcases first_of_shape (isValidChar_toNat c) shape with
      ⟨bound, low, high, isFirst, low_le, le_high⟩
    have stepped : step .start (UInt8.ofNat (c.toNat / 64 ^ (count + 1) + mark)).toNat =
        ([], .inside 1 (count + 1) low high (c.toNat / 64 ^ (count + 1))) := by
      rw [step, UInt8.toNat_ofNat', Nat.mod_eq_of_lt bound, isFirst]
    rw [encode_of_shape shape, List.cons_append, piecesFrom_of_step stepped, List.nil_append,
      piecesFrom_continuation _ _ low_le le_high, Char.ofNat_toNat]

theorem exists_encode {byte : UInt8} {rest : List UInt8} {text : List Char}
    (read : piecesFrom .start (byte :: rest) = text.map .char) :
    ∃ c later after, text = c :: later ∧ byte :: rest = utf8EncodeChar c ++ after ∧
      piecesFrom .start after = later.map .char := by
  rcases first_cases byte.toNat with
    ⟨ascii, isFirst⟩ | isFirst | ⟨missing, low, high, bits, isFirst⟩ <;>
    rw [piecesFrom_of_step (by rw [step, isFirst])] at read
  · cases text with
    | nil => simp at read
    | cons c later =>
      simp only [List.cons_append, List.nil_append, List.map_cons, List.cons.injEq,
        Piece.char.injEq] at read
      have isValue : c.toNat = byte.toNat := by
        rw [← read.1, toNat_ofNat (.inl (by omega))]
      refine ⟨c, later, rest, rfl, ?_, read.2⟩
      rw [encode_short (isValue ▸ ascii), isValue, UInt8.ofNat_toNat]
      rfl
  · cases text <;> simp at read
  · rcases shape_of_first isFirst with ⟨count, mark, rfl, lowest, highest, shapes⟩
    rcases exists_continuation lowest highest read with
      ⟨value, after, later, rfl, rfl, read, upper, low_le, le_high⟩
    rcases shapes value upper low_le le_high with ⟨valid, shape, isByte⟩
    refine ⟨Char.ofNat value, later, after, rfl, ?_, read⟩
    rw [← toNat_ofNat valid] at shape isByte
    rw [encode_of_shape shape, ← isByte, UInt8.ofNat_toNat, toNat_ofNat valid]
    rfl

theorem pieces_encode (text : List Char) :
    pieces (text.flatMap utf8EncodeChar) = text.map .char := by
  induction text with
  | nil => rfl
  | cons c rest inductionHypothesis =>
    rw [List.flatMap_cons, pieces, piecesFrom_encode, List.map_cons]
    exact congrArg _ inductionHypothesis

theorem eq_encode_of_pieces {bytes : List UInt8} {text : List Char}
    (read : pieces bytes = text.map .char) : bytes = text.flatMap utf8EncodeChar := by
  unfold pieces at read
  induction text generalizing bytes with
  | nil =>
    cases bytes with
    | nil => rfl
    | cons byte rest =>
      rcases exists_encode read with ⟨c, later, after, isText, -⟩
      cases isText
  | cons c rest inductionHypothesis =>
    cases bytes with
    | nil => simp [piecesFrom] at read
    | cons byte bytes =>
      rcases exists_encode read with ⟨_, _, after, isText, isBytes, read⟩
      cases isText
      rw [isBytes, List.flatMap_cons, ← inductionHypothesis read]

/-- The strict reading gives a text exactly if the bytes are its UTF-8. -/
theorem decode_eq_ok_iff {bytes : List UInt8} {text : List Char} :
    decode bytes = .ok text ↔ bytes = text.flatMap utf8EncodeChar := by
  rw [decode, strictPieces_eq_ok_iff]
  constructor
  · exact eq_encode_of_pieces
  · rintro rfl
    exact pieces_encode text

theorem exists_decode_iff {bytes : List UInt8} :
    (∃ text, decode bytes = .ok text) ↔ bytes.toByteArray.IsValidUTF8 := by
  constructor
  · rintro ⟨text, read⟩
    rw [decode_eq_ok_iff.mp read]
    exact ⟨text, rfl⟩
  · rintro ⟨text, encoded⟩
    exact ⟨text, decode_eq_ok_iff.mpr (List.toByteArray_inj.mp encoded)⟩

end YamlTypes.Text.Utf8
