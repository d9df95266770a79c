import YamlTypes.Json.Reader

/-!
The tokens of JSON text.

Every token takes at least one character, so the bound that tokens are cut with
does not matter. Blanks are skipped, an escaped text ends at the quote behind it,
and a word ends where a character stands that is none of a word's.
-/

set_option autoImplicit false

namespace YamlTypes.Json

variable {c : Char} {text rest after word : List Char} {token : Token} {units : List Unit16}

theorem stringUnits?_length (cut : stringUnits? text = some (units, after)) :
    after.length < text.length := by
  fun_induction stringUnits? text generalizing units with
  | case1 rest =>
      obtain rfl := (Prod.mk.inj (Option.some.inj cut)).2
      exact Nat.lt_succ_self _
  | case2 a b c d rest inductionHypothesis =>
      simp only [Option.bind_eq_bind, Option.bind_eq_some_iff, Prod.exists] at cut
      rcases cut with ⟨n, -, later, behind, found, same⟩
      obtain rfl := (Prod.mk.inj (Option.some.inj same)).2
      have shorter := inductionHypothesis found
      simp only [List.length_cons]
      omega
  | case3 c rest _ inductionHypothesis =>
      simp only [Option.bind_eq_bind, Option.bind_eq_some_iff, Prod.exists] at cut
      rcases cut with ⟨n, -, later, behind, found, same⟩
      obtain rfl := (Prod.mk.inj (Option.some.inj same)).2
      have shorter := inductionHypothesis found
      simp only [List.length_cons]
      omega
  | case4 => cases cut
  | case5 c rest _ _ _ _ inductionHypothesis =>
      simp only [Option.bind_eq_bind, Option.bind_eq_some_iff, Prod.exists] at cut
      rcases cut with ⟨later, behind, found, same⟩
      obtain rfl := (Prod.mk.inj (Option.some.inj same)).2
      have shorter := inductionHypothesis found
      simp only [List.length_cons]
      omega
  | case6 => cases cut

def stringToken (units : List Unit16) : Token :=
  match pairUp? units with
  | some text => .string (String.ofList text)
  | none => .halfPair

/-- The token that a text begins with, unless this is a blank, and the text behind it. -/
def lexeme? (c : Char) (rest : List Char) : Option (List Token × List Char) :=
  if isSpace c then some ([], rest)
  else if c = '[' then some ([.openBracket], rest)
  else if c = ']' then some ([.closeBracket], rest)
  else if c = '\x7b' then some ([.openBrace], rest)
  else if c = '\x7d' then some ([.closeBrace], rest)
  else if c = ',' then some ([.comma], rest)
  else if c = ':' then some ([.colon], rest)
  else if c = '"' then
    (stringUnits? rest).map fun (units, after) => ([stringToken units], after)
  else
    (wordToken? ((c :: rest).takeWhile isWordChar)).map fun token =>
      ([token], (c :: rest).dropWhile isWordChar)

theorem length_of_lexeme? {found : List Token} (cut : lexeme? c rest = some (found, after)) :
    after.length ≤ rest.length := by
  have punctuation : ∀ token : Token, some ([token], rest) = some (found, after) →
      after.length ≤ rest.length := by
    intro token same
    obtain rfl := (Prod.mk.inj (Option.some.inj same)).2
    exact Nat.le_refl _
  unfold lexeme? at cut
  repeat' split at cut
  all_goals try exact punctuation _ cut
  next =>
    obtain rfl := (Prod.mk.inj (Option.some.inj cut)).2
    exact Nat.le_refl _
  next =>
    rcases Option.map_eq_some_iff.mp cut with ⟨⟨units, later⟩, read, same⟩
    obtain rfl := (Prod.mk.inj same).2
    exact Nat.le_of_lt (stringUnits?_length read)
  next =>
    rcases Option.map_eq_some_iff.mp cut with ⟨token, isWord, same⟩
    obtain rfl := (Prod.mk.inj same).2
    by_cases wordChar : isWordChar c = true
    · rw [List.dropWhile_cons_of_pos wordChar]
      exact (List.dropWhile_suffix _).length_le
    · rw [List.takeWhile_cons_of_neg wordChar] at isWord
      cases isWord

theorem tokensWithin?_cons (bound : Nat) (c : Char) (rest : List Char) :
    tokensWithin? (bound + 1) (c :: rest) =
      (lexeme? c rest).bind fun (found, after) =>
        (tokensWithin? bound after).map (found ++ ·) := by
  rw [tokensWithin?, lexeme?]
  dsimp only
  repeat' split
  all_goals simp only [Option.bind_some, Option.bind_eq_bind, Option.bind_map, Function.comp_def,
    List.singleton_append, List.nil_append, Option.map_id']
  rfl

theorem tokensWithin?_congr {first second : Nat} (enough : text.length ≤ first)
    (alsoEnough : text.length ≤ second) :
    tokensWithin? first text = tokensWithin? second text := by
  induction first generalizing second text with
  | zero =>
      obtain rfl := List.eq_nil_of_length_eq_zero (Nat.le_zero.mp enough)
      cases second <;> rfl
  | succ first inductionHypothesis =>
      cases text with
      | nil => cases second <;> rfl
      | cons c rest =>
          cases second with
          | zero => cases alsoEnough
          | succ second =>
              rw [List.length_cons, Nat.add_le_add_iff_right] at enough alsoEnough
              rw [tokensWithin?_cons, tokensWithin?_cons]
              cases cut : lexeme? c rest with
              | none => rfl
              | some lexeme =>
                  obtain ⟨found, after⟩ := lexeme
                  have shorter := length_of_lexeme? cut
                  simp only [Option.bind_some]
                  rw [inductionHypothesis (Nat.le_trans shorter enough)
                    (Nat.le_trans shorter alsoEnough)]

theorem tokens?_cons (c : Char) (rest : List Char) :
    tokens? (c :: rest) =
      (lexeme? c rest).bind fun (found, after) => (tokens? after).map (found ++ ·) := by
  rw [tokens?, List.length_cons, tokensWithin?_cons]
  cases cut : lexeme? c rest with
  | none => rfl
  | some lexeme =>
      obtain ⟨found, after⟩ := lexeme
      simp only [Option.bind_some]
      rw [tokensWithin?_congr (length_of_lexeme? cut) (Nat.le_refl _), tokens?]

theorem tokens?_spaces {spaces : List Char} (only : ∀ c ∈ spaces, isSpace c = true)
    (rest : List Char) : tokens? (spaces ++ rest) = tokens? rest := by
  induction spaces with
  | nil => rfl
  | cons c later inductionHypothesis =>
      rw [List.cons_append, tokens?_cons, lexeme?, if_pos (only c List.mem_cons_self),
        Option.bind_some]
      simp only [List.nil_append, Option.map_id']
      exact inductionHypothesis fun d member => only d (List.mem_cons_of_mem _ member)

/-- No word goes on in a text. -/
def Apart (text : List Char) : Prop := ∀ c ∈ text.head?, isWordChar c = false

theorem takeWhile_append_of_apart {predicate : Char → Bool}
    (only : ∀ c ∈ word, predicate c = true) (apart : ∀ c ∈ rest.head?, predicate c = false) :
    (word ++ rest).takeWhile predicate = word ∧ (word ++ rest).dropWhile predicate = rest := by
  have stops : rest.takeWhile predicate = [] ∧ rest.dropWhile predicate = rest := by
    cases rest with
    | nil => exact ⟨rfl, rfl⟩
    | cons c later =>
        have other : ¬predicate c = true := by
          rw [apart c rfl]
          exact Bool.false_ne_true
        exact ⟨List.takeWhile_cons_of_neg other, List.dropWhile_cons_of_neg other⟩
  rw [List.takeWhile_append_of_pos only, List.dropWhile_append_of_pos only, stops.1, stops.2,
    List.append_nil]
  exact ⟨rfl, rfl⟩

theorem lexeme?_of_isWordChar (wordChar : isWordChar c = true) :
    lexeme? c rest = (wordToken? ((c :: rest).takeWhile isWordChar)).map fun token =>
      ([token], (c :: rest).dropWhile isWordChar) := by
  have other : ∀ d : Char, isWordChar d = false → c ≠ d := by
    rintro d noWordChar rfl
    rw [wordChar] at noWordChar
    cases noWordChar
  have noSpace : ¬isSpace c = true := by
    unfold isSpace
    simp only [Bool.or_eq_true, beq_iff_eq, not_or]
    exact ⟨⟨⟨other _ (by decide), other _ (by decide)⟩, other _ (by decide)⟩, other _ (by decide)⟩
  rw [lexeme?, if_neg noSpace, if_neg (other _ (by decide)), if_neg (other _ (by decide)),
    if_neg (other _ (by decide)), if_neg (other _ (by decide)), if_neg (other _ (by decide)),
    if_neg (other _ (by decide)), if_neg (other _ (by decide))]

theorem tokens?_word (only : ∀ c ∈ word, isWordChar c = true)
    (isToken : wordToken? word = some token) (apart : Apart rest) :
    tokens? (word ++ rest) = (tokens? rest).map (token :: ·) := by
  rcases takeWhile_append_of_apart only apart with ⟨taken, dropped⟩
  cases word with
  | nil => cases isToken
  | cons c later =>
      rw [List.cons_append] at taken dropped ⊢
      rw [tokens?_cons, lexeme?_of_isWordChar (only c List.mem_cons_self), taken, dropped, isToken]
      rfl

/-- A control character is the number that its escape gives. -/
theorem hexNumber?_hexDigit {n : Nat} (control : n < 0x20) :
    (hexNumber? 0 ['0', '0', hexDigit (n / 16), hexDigit n]).map unit16 =
      some (.char (Char.ofNat n)) := by
  revert n
  decide

theorem stringUnits?_escaped {d : Char} (isEscape : escaped? c = some d) (rest : List Char) :
    stringUnits? ('\\' :: c :: rest) =
      (stringUnits? rest).map fun (units, after) => (.char d :: units, after) := by
  rw [stringUnits?]
  · rw [isEscape]
    cases stringUnits? rest <;> rfl
  · rintro a b c d later rfl
    cases isEscape

theorem stringUnits?_literal (noQuote : c ≠ '"') (noBackslash : c ≠ '\\')
    (noControl : ¬c.toNat < 0x20) (rest : List Char) :
    stringUnits? (c :: rest) =
      (stringUnits? rest).map fun (units, after) => (.char c :: units, after) := by
  rw [stringUnits?, if_neg noControl]
  · cases stringUnits? rest <;> rfl
  · exact noQuote
  · exact fun _ _ _ _ _ backslash => absurd backslash noBackslash
  · exact fun _ _ backslash => absurd backslash noBackslash

theorem stringUnits?_control (control : c.toNat < 0x20) (rest : List Char) :
    stringUnits?
        (['\\', 'u', '0', '0', hexDigit (c.toNat / 16), hexDigit c.toNat] ++ rest) =
      (stringUnits? rest).map fun (units, after) => (.char c :: units, after) := by
  rcases Option.map_eq_some_iff.mp (hexNumber?_hexDigit control) with ⟨n, isNumber, unit⟩
  rw [Char.ofNat_toNat] at unit
  change stringUnits? ('\\' :: 'u' :: '0' :: '0' :: _ :: _ :: rest) = _
  rw [stringUnits?, isNumber]
  change ((stringUnits? rest).bind fun found => some (unit16 n :: found.1, found.2)) = _
  rw [unit]
  cases stringUnits? rest <;> rfl

theorem stringUnits?_escape (c : Char) (rest : List Char) :
    stringUnits? (escape c ++ rest) =
      (stringUnits? rest).map fun (units, after) => (.char c :: units, after) := by
  have short : ∀ letter d : Char, escaped? letter = some d →
      stringUnits? (['\\', letter] ++ rest) =
        (stringUnits? rest).map fun (units, after) => (.char d :: units, after) :=
    fun letter d isEscape => stringUnits?_escaped isEscape rest
  by_cases quote : c = '"'
  · rw [quote]
    exact short _ _ rfl
  by_cases backslash : c = '\\'
  · rw [backslash]
    exact short _ _ rfl
  by_cases newline : c = '\n'
  · rw [newline]
    exact short _ _ rfl
  by_cases carriageReturn : c = '\r'
  · rw [carriageReturn]
    exact short _ _ rfl
  by_cases tab : c = '\t'
  · rw [tab]
    exact short _ _ rfl
  by_cases backspace : c = '\x08'
  · rw [backspace]
    exact short _ _ rfl
  by_cases formFeed : c = '\x0c'
  · rw [formFeed]
    exact short _ _ rfl
  unfold escape
  rw [if_neg quote, if_neg backslash, if_neg newline, if_neg carriageReturn, if_neg tab,
    if_neg backspace, if_neg formFeed]
  by_cases control : c.toNat < 0x20
  · rw [if_pos control]
    exact stringUnits?_control control rest
  · rw [if_neg control]
    exact stringUnits?_literal quote backslash control rest

theorem stringUnits?_quoted (text rest : List Char) :
    stringUnits? (text.flatMap escape ++ '"' :: rest) = some (text.map .char, rest) := by
  induction text with
  | nil => rfl
  | cons c later inductionHypothesis =>
      rw [List.flatMap_cons, List.append_assoc, stringUnits?_escape, inductionHypothesis]
      rfl

theorem pairUp?_chars (text : List Char) : pairUp? (text.map .char) = some text := by
  induction text with
  | nil => rfl
  | cons c later inductionHypothesis =>
      rw [List.map_cons, pairUp?, inductionHypothesis]
      rfl

/-- A quoted text is one token, whatever it holds. -/
theorem tokens?_quote (s : String) (rest : List Char) :
    tokens? ((quote s).toList ++ rest) = (tokens? rest).map (.string s :: ·) := by
  have chars : (quote s).toList ++ rest = '"' :: (s.toList.flatMap escape ++ '"' :: rest) := by
    have inside : (String.ofList (s.toList.flatMap escape)).toList = s.toList.flatMap escape :=
      String.toList_ofList
    rw [quote, String.toList_append, String.toList_append, inside, List.append_assoc,
      List.append_assoc]
    rfl
  have lexeme :
      lexeme? '"' (s.toList.flatMap escape ++ '"' :: rest) = some ([.string s], rest) := by
    change (stringUnits? _).map _ = _
    simp only [stringUnits?_quoted, Option.map_some, stringToken, pairUp?_chars,
      String.ofList_toList]
  rw [chars, tokens?_cons, lexeme]
  rfl

end YamlTypes.Json
