import YamlTypes.Proofs.Text.Lines
import YamlTypes.Proofs.Yaml.Decoded

/-!
Documents without a node.

By the rules of YAML a text holds nothing if it consists of blanks, line breaks
and comments. The decoder tells such texts before they are read, and by other
rules: it knows no line break but the newline, and blanks that YAML takes for
text. So it finds every text that holds nothing, but passes for one also a text
with a comment that ends before the newline, or with blanks that are none. Where
neither is the case, no node is lost.
-/

set_option autoImplicit false

namespace YamlTypes.Yaml

def endsLine (c : Char) : Bool := c == '\r' || c == '\u0085' || isBreak c

/-- Blanks, comments and line breaks, where some characters end a line. -/
inductive Void (ends : Char → Bool) : List Char → Prop
  | nil : Void ends []
  | blank {c : Char} {rest : List Char} :
      isSpaceOrTab c = true → Void ends rest → Void ends (c :: rest)
  | lineBreak {c : Char} {rest : List Char} :
      ends c = true → Void ends rest → Void ends (c :: rest)
  | comment {body rest : List Char} :
      (∀ c ∈ body, ends c = false) → (∀ c ∈ rest.head?, ends c = true) → Void ends rest →
      Void ends ('#' :: (body ++ rest))

def HoldsNode (text : List Char) : Prop :=
  ∃ events, (tokens? text).bind Event.ofTokens? = some events ∧ events ≠ []

theorem isSpaceOrTab_iff {c : Char} : isSpaceOrTab c = true ↔ c = ' ' ∨ c = '\t' := by
  simp [isSpaceOrTab]

theorem endsLine_iff {c : Char} :
    endsLine c = true ↔
      c = '\r' ∨ c = '\u0085' ∨ c = '\n' ∨ c = '\u2028' ∨ c = '\u2029' := by
  simp [endsLine, isBreak, or_assoc]

theorem uniformBreaks_of_endsLine {c : Char} (ends : endsLine c = true) (rest : List Char) :
    ∃ d later, uniformBreaks (c :: rest) = d :: later ∧ isBreak d = true ∧
      (later = uniformBreaks rest ∨ d :: later = uniformBreaks rest) := by
  rcases endsLine_iff.mp ends with rfl | rfl | rfl | rfl | rfl
  · by_cases pair : rest.head? = some '\n'
    · rcases List.head?_eq_some_iff.mp pair with ⟨behind, rfl⟩
      exact ⟨'\n', uniformBreaks behind, rfl, rfl, .inr rfl⟩
    · refine ⟨'\n', uniformBreaks rest, ?_, rfl, .inl rfl⟩
      rw [uniformBreaks]
      exact fun behind same => pair (by rw [same]; rfl)
  all_goals exact ⟨_, _, rfl, rfl, .inl rfl⟩

theorem uniformBreaks_append {body : List Char} (sameLine : ∀ c ∈ body, endsLine c = false)
    (rest : List Char) : uniformBreaks (body ++ rest) = body ++ uniformBreaks rest := by
  induction body with
  | nil => rfl
  | cons c body inductionHypothesis =>
      rw [List.forall_mem_cons] at sameLine
      have other : ∀ d, endsLine d = true → c ≠ d := by
        rintro d ends rfl
        exact Bool.false_ne_true (sameLine.1.symm.trans ends)
      rw [List.cons_append, uniformBreaks, inductionHypothesis sameLine.2, List.cons_append]
      · exact fun _ same _ => other '\r' rfl same
      · exact other '\r' rfl
      · exact other '\u0085' rfl

theorem Void.uniformBreaks {text : List Char} (void : Void endsLine text) :
    Void isBreak (uniformBreaks text) := by
  induction void with
  | nil => exact .nil
  | @blank c rest isBlank _ inductionHypothesis =>
      rcases isSpaceOrTab_iff.mp isBlank with rfl | rfl
      · exact .blank rfl inductionHypothesis
      · exact .blank rfl inductionHypothesis
  | @lineBreak c rest ends _ inductionHypothesis =>
      rcases uniformBreaks_of_endsLine ends rest with ⟨d, later, same, isBreak, rfl | whole⟩
      · rw [same]
        exact .lineBreak isBreak inductionHypothesis
      · rwa [same, whole]
  | @comment body rest sameLine ends _ inductionHypothesis =>
      have begins : ∀ c ∈ '#' :: body, endsLine c = false :=
        List.forall_mem_cons.mpr ⟨rfl, sameLine⟩
      have same : Yaml.uniformBreaks ('#' :: (body ++ rest)) =
          '#' :: (body ++ Yaml.uniformBreaks rest) := uniformBreaks_append begins rest
      rw [same]
      refine .comment (fun c member => ?_) ?_ inductionHypothesis
      · have inLine := sameLine c member
        rw [endsLine, Bool.or_eq_false_iff] at inLine
        exact inLine.2
      · cases rest with
        | nil => rintro _ ⟨⟩
        | cons c rest =>
            rcases uniformBreaks_of_endsLine (ends c rfl) rest with ⟨d, later, first, isBreak, -⟩
            rw [first]
            rintro _ ⟨⟩
            exact isBreak

namespace Lexer

variable {inFlow allowed : Bool} {line column : Nat} {rest : List Char}

theorem toTokenFrom_comment {body : List Char} (sameLine : ∀ c ∈ body, isBreak c = false) :
    toTokenFrom inFlow true allowed line column (body ++ rest) =
      toTokenFrom inFlow true allowed line (column + body.length) rest := by
  induction body generalizing column with
  | nil => rfl
  | cons c body inductionHypothesis =>
      rw [List.forall_mem_cons] at sameLine
      rw [List.cons_append, toTokenFrom, sameLine.1, Bool.true_or, Bool.true_or, Bool.true_or,
        if_neg Bool.false_ne_true, if_pos rfl, inductionHypothesis sameLine.2, List.length_cons]
      congr 1
      omega

/-- A comment ends where the line does. -/
theorem toTokenFrom_comment_end (ends : ∀ c ∈ rest.head?, isBreak c = true) :
    toTokenFrom inFlow true allowed line column rest =
      toTokenFrom inFlow false allowed line column rest := by
  cases rest with
  | nil => rfl
  | cons c rest => rw [toTokenFrom, toTokenFrom, if_pos (ends c rfl), if_pos (ends c rfl)]

/-- Where nothing is left but blanks, comments and line breaks, the cursor stops at a tab or not
before the end. -/
theorem toTokenFrom_of_void {text : List Char} (void : Void isBreak text) (line column : Nat) :
    ∀ c ∈ (toTokenFrom false false true line column text).1.rest.head?, c = '\t' := by
  induction void generalizing line column with
  | nil => rintro _ ⟨⟩
  | @blank c rest isBlank _ inductionHypothesis =>
      rcases isSpaceOrTab_iff.mp isBlank with rfl | rfl
      · exact inductionHypothesis line (column + 1)
      · exact fun c first => (Option.some.inj first).symm
  | @lineBreak c rest ends _ inductionHypothesis =>
      rw [toTokenFrom, if_pos ends]
      exact inductionHypothesis (line + 1) 0
  | @comment body rest sameLine ends _ inductionHypothesis =>
      have begins : toTokenFrom false false true line column ('#' :: (body ++ rest)) =
          toTokenFrom false true true line (column + 1) (body ++ rest) := rfl
      rw [begins, toTokenFrom_comment sameLine, toTokenFrom_comment_end ends]
      exact inductionHypothesis line _

theorem token?_tab (lexer : Lexer) (rest : List Char) : lexer.token? '\t' rest = none := by
  simp [token?, isMarker, beginsPlain, isBlank, isSpaceOrTab]

theorem ready?_ofText (text : List Char) :
    ({ cursor := .ofText text } : Lexer).ready? =
      some { cursor := (toTokenFrom false false true 0 0 text).1
             keyAllowed := (toTokenFrom false false true 0 0 text).2 } := rfl

theorem finish?_outside (cursor : Cursor) (keyAllowed : Bool) :
    ({ cursor, keyAllowed } : Lexer).finish? = some { cursor, keyAllowed } := rfl

/-- Blanks, comments and line breaks give no tokens, and an error where a tab is among them. -/
theorem tokens_run?_of_void {text : List Char} (void : Void isBreak text) {bound : Nat}
    {lexer : Lexer} (ran : run? bound { cursor := .ofText text } = some lexer) :
    lexer.tokens = [] := by
  have stops := toTokenFrom_of_void void 0 0
  cases bound with
  | zero =>
      simp only [run?, ready?_ofText, Option.bind_eq_bind, Option.bind_some] at ran
      split at ran
      next =>
        rw [finish?_outside] at ran
        cases ran
        rfl
      next => cases ran
  | succ bound =>
      simp only [run?, ready?_ofText, Option.bind_eq_bind, Option.bind_some] at ran
      split at ran
      next =>
        rw [finish?_outside] at ran
        cases ran
        rfl
      next c rest atToken =>
        obtain rfl := stops c (by rw [atToken]; rfl)
        rw [token?_tab] at ran
        cases ran

end Lexer

theorem tokens_eq_nil_of_void {text : List Char} {tokens : List Token}
    (void : Void endsLine text) (scanned : tokens? text = some tokens) : tokens = [] := by
  unfold tokens? at scanned
  split at scanned
  next =>
    simp only [Option.bind_eq_bind, Option.bind_eq_some_iff, Option.some.injEq] at scanned
    rcases scanned with ⟨lexer, ran, rfl⟩
    rw [Lexer.tokens_run?_of_void void.uniformBreaks ran, List.reverse_nil]
  next => cases scanned

theorem Void.not_holdsNode {text : List Char} (void : Void endsLine text) : ¬HoldsNode text := by
  rintro ⟨events, found, nonempty⟩
  rcases Option.bind_eq_some_iff.mp found with ⟨tokens, scanned, isEvents⟩
  rw [tokens_eq_nil_of_void void scanned] at isEvents
  exact nonempty (Option.some.inj isEvents).symm

/-- The first character that is no blank, if there is one, begins a comment. -/
def BlankLine (line : List Char) : Prop := ∀ c ∈ (Text.trimStart line).head?, c = '#'

theorem isBlankDocument_iff {text : List Char} :
    isBlankDocument text = true ↔ ∀ line ∈ Text.splitOn '\n' text, BlankLine line := by
  rw [isBlankDocument, List.all_eq_true]
  refine forall₂_congr fun line _ => ?_
  rw [BlankLine, ← Text.head?_trim]
  cases Text.trim line with
  | nil => simp
  | cons c rest => simp

theorem decode?_eq_undefined_iff {text : List Char} :
    decode? text = some .undefined ↔ isBlankDocument text = true := by
  constructor
  · intro decoded
    by_contra written
    simp only [decode?, if_neg written, Option.bind_eq_bind, Option.bind_eq_some_iff] at decoded
    rcases decoded with ⟨node, -, merged, -, converted⟩
    cases merged.decoded_of_toValue? converted
  · intro blank
    rw [decode?, if_pos blank]

theorem blankLine_nil : BlankLine [] := by
  rintro _ ⟨⟩

theorem blankLine_of_isBlank {c : Char} (isBlank : Text.isBlank c = true) (line : List Char) :
    BlankLine (c :: line) ↔ BlankLine line := by
  rw [BlankLine, BlankLine, Text.trimStart, Text.trimStart, List.dropWhile_cons_of_pos isBlank]

theorem isBlank_of_void_char {c : Char} (void : isSpaceOrTab c = true ∨ endsLine c = true) :
    Text.isBlank c = true := by
  rw [isSpaceOrTab_iff, endsLine_iff] at void
  rcases void with (rfl | rfl) | (rfl | rfl | rfl | rfl | rfl) <;> rfl

/-- A blank leaves the lines blank, whether it ends the first one or not. -/
theorem blankLine_of_mem_splitOn_cons {c : Char} {rest : List Char}
    (isBlank : Text.isBlank c = true)
    (each : ∀ line ∈ Text.splitOn '\n' rest, BlankLine line) :
    ∀ line ∈ Text.splitOn '\n' (c :: rest), BlankLine line := by
  by_cases newline : c = '\n'
  · rw [Text.splitOn, if_pos newline]
    exact List.forall_mem_cons.mpr ⟨blankLine_nil, each⟩
  · have apart : '\n' ∉ [c] := by simpa using Ne.symm newline
    rcases Text.splitOn_append_of_not_mem apart rest with ⟨first, others, lines, joined⟩
    rw [lines, List.forall_mem_cons] at each
    rw [List.singleton_append] at joined
    rw [joined]
    exact List.forall_mem_cons.mpr ⟨(blankLine_of_isBlank isBlank first).mpr each.1, each.2⟩

theorem Void.blankLine {text : List Char} (void : Void endsLine text) :
    ∀ line ∈ Text.splitOn '\n' text, BlankLine line := by
  induction void with
  | nil => exact List.forall_mem_singleton.mpr blankLine_nil
  | blank isBlank _ inductionHypothesis =>
      exact blankLine_of_mem_splitOn_cons (isBlank_of_void_char (.inl isBlank)) inductionHypothesis
  | lineBreak ends _ inductionHypothesis =>
      exact blankLine_of_mem_splitOn_cons (isBlank_of_void_char (.inr ends)) inductionHypothesis
  | @comment body rest sameLine _ _ inductionHypothesis =>
      have apart : '\n' ∉ '#' :: body := by
        rw [List.mem_cons, not_or]
        exact ⟨by decide, fun member => Bool.false_ne_true (sameLine _ member).symm⟩
      rcases Text.splitOn_append_of_not_mem apart rest with ⟨first, others, lines, joined⟩
      rw [lines, List.forall_mem_cons] at inductionHypothesis
      rw [List.cons_append] at joined
      rw [joined]
      refine List.forall_mem_cons.mpr ⟨?_, inductionHypothesis.2⟩
      rintro c ⟨⟩
      rfl

/-- The blanks in front of a line are blanks and line breaks of YAML, and what stands behind them
holds no line break but at its end. -/
structure Conventional (line : List Char) : Prop where
  blanks : ∀ c ∈ line.takeWhile Text.isBlank, isSpaceOrTab c = true ∨ endsLine c = true
  unbroken : ∀ c ∈ (Text.trimStart line).dropLast, endsLine c = false

theorem conventional_iff {line : List Char} :
    ((line.takeWhile Text.isBlank).all (fun c => isSpaceOrTab c || endsLine c) &&
      (Text.trimStart line).dropLast.all fun c => !endsLine c) = true ↔ Conventional line := by
  simp only [Bool.and_eq_true, List.all_eq_true, Bool.or_eq_true, Bool.not_eq_true']
  exact ⟨fun parts => ⟨parts.1, parts.2⟩, fun line => ⟨line.blanks, line.unbroken⟩⟩

instance (line : List Char) : Decidable (Conventional line) := decidable_of_iff _ conventional_iff

theorem Void.append {front rest : List Char} (white : ∀ c ∈ front,
    isSpaceOrTab c = true ∨ endsLine c = true) (void : Void endsLine rest) :
    Void endsLine (front ++ rest) := by
  induction front with
  | nil => exact void
  | cons c front inductionHypothesis =>
      rw [List.forall_mem_cons] at white
      rcases white.1 with isBlank | ends
      · exact .blank isBlank (inductionHypothesis white.2)
      · exact .lineBreak ends (inductionHypothesis white.2)

theorem Conventional.void {line : List Char} (conventional : Conventional line)
    (blank : BlankLine line) : Void endsLine line := by
  have whole : line.takeWhile Text.isBlank ++ Text.trimStart line = line :=
    List.takeWhile_append_dropWhile
  rw [← whole]
  refine Void.append conventional.blanks ?_
  have unbroken := conventional.unbroken
  cases start : Text.trimStart line with
  | nil => exact .nil
  | cons c body =>
      obtain rfl : c = '#' := blank c (by rw [start]; rfl)
      rw [start] at unbroken
      rcases List.eq_nil_or_concat body with rfl | ⟨front, last, rfl⟩
      · exact .comment (List.forall_mem_nil _) (by rintro _ ⟨⟩) .nil
      · rw [List.concat_eq_append] at unbroken ⊢
        rw [← List.cons_append, List.dropLast_concat, List.forall_mem_cons] at unbroken
        by_cases ends : endsLine last = true
        · refine .comment unbroken.2 ?_ (.lineBreak ends .nil)
          rintro c ⟨⟩
          exact ends
        · have sameLine : ∀ c ∈ front ++ [last], endsLine c = false := by
            rw [List.forall_mem_append, List.forall_mem_singleton]
            exact ⟨unbroken.2, Bool.eq_false_iff.mpr ends⟩
          rw [← List.append_nil (front ++ [last])]
          exact .comment sameLine (by rintro _ ⟨⟩) .nil

theorem Void.join {first rest : List Char} (void : Void endsLine first)
    (later : Void endsLine rest) : Void endsLine (first ++ '\n' :: rest) := by
  induction void with
  | nil => exact .lineBreak rfl later
  | blank isBlank _ inductionHypothesis => exact .blank isBlank inductionHypothesis
  | lineBreak ends _ inductionHypothesis => exact .lineBreak ends inductionHypothesis
  | @comment body behind sameLine ends _ inductionHypothesis =>
      rw [List.cons_append, List.append_assoc]
      refine .comment sameLine ?_ inductionHypothesis
      cases behind with
      | nil =>
          rintro c ⟨⟩
          rfl
      | cons d behind => exact ends

theorem void_of_lines {lines : List (List Char)} (each : ∀ line ∈ lines, Void endsLine line) :
    Void endsLine (['\n'].intercalate lines) := by
  induction lines with
  | nil => exact .nil
  | cons line lines inductionHypothesis =>
      rw [List.forall_mem_cons] at each
      cases lines with
      | nil =>
          rw [List.intercalate_singleton]
          exact each.1
      | cons second lines =>
          rw [List.intercalate_cons_cons, List.append_assoc]
          exact each.1.join (inductionHypothesis each.2)

/-- Where every line is conventional, nothing but a text without content is taken for one. -/
theorem void_of_isBlankDocument {text : List Char}
    (conventional : ∀ line ∈ Text.splitOn '\n' text, Conventional line)
    (blank : isBlankDocument text = true) : Void endsLine text := by
  have each : ∀ line ∈ Text.splitOn '\n' text, Void endsLine line := fun line member =>
    (conventional line member).void (isBlankDocument_iff.mp blank line member)
  rw [Text.splitOn_eq] at each
  have joined : ['\n'].intercalate (text.splitOn '\n') = text := List.intercalate_splitOn '\n'
  rw [← joined]
  exact void_of_lines each

/-- A text without content decodes to the absence of a document, and the reader finds no node in it.
Where the lines are conventional, no other text does. And an absent document is never a part of
another one. -/
theorem undefined_holds_no_node (text : List Char) :
    (Void endsLine text → decode? text = some .undefined ∧ ¬HoldsNode text) ∧
    ((∀ line ∈ Text.splitOn '\n' text, Conventional line) → decode? text = some .undefined →
      Void endsLine text ∧ ¬HoldsNode text) ∧
    ∀ value path, decode? text = some value → value.Within path .undefined →
      path = [] ∧ value = .undefined := by
  refine ⟨fun void => ?_, fun conventional isUndefined => ?_, ?_⟩
  · have blank := isBlankDocument_iff.mpr void.blankLine
    exact ⟨decode?_eq_undefined_iff.mpr blank, void.not_holdsNode⟩
  · have void := void_of_isBlankDocument conventional (decode?_eq_undefined_iff.mp isUndefined)
    exact ⟨void, void.not_holdsNode⟩
  · intro value path decoded within
    rcases decoded_of_decode? decoded with rfl | isDecoded
    · exact ⟨(Value.eq_undefined_of_within within).1, rfl⟩
    · cases isDecoded.within within

/-- Carriage returns before newlines, and blanks of two kinds in comments. -/
def emptyText : List Char := "# a\tb\r\n \r\n  # c\u3000d".toList

theorem undefined_holds_no_node_empty :
    decode? emptyText = some .undefined ∧ Void endsLine emptyText ∧ ¬HoldsNode emptyText := by
  have conventional : ∀ line ∈ Text.splitOn '\n' emptyText, Conventional line := by decide
  have isUndefined : decode? emptyText = some .undefined := by
    have blank : isBlankDocument emptyText = true := by decide
    rw [decode?, if_pos blank]
  exact ⟨isUndefined, (undefined_holds_no_node emptyText).2.1 conventional isUndefined⟩

def hiddenText : List Char := "#\ra".toList

theorem hidden_node_lost :
    decode? hiddenText = some .undefined ∧ Node.ofText? hiddenText = some (.string "a") ∧
      HoldsNode hiddenText ∧ ¬Void endsLine hiddenText := by
  have blank : isBlankDocument hiddenText = true := by decide
  have scanned : (tokens? hiddenText).bind Event.ofTokens? = some [.scalar {} true ['a']] := by
    decide +kernel
  have holds : HoldsNode hiddenText := ⟨_, scanned, List.cons_ne_nil _ _⟩
  refine ⟨decode?_eq_undefined_iff.mpr blank, ?_, holds, fun void => void.not_holdsNode holds⟩
  rcases Option.bind_eq_some_iff.mp scanned with ⟨tokens, isTokens, isEvents⟩
  simp only [Node.ofText?, Option.bind_eq_bind, isTokens, isEvents, Option.bind_some]
  rfl

end YamlTypes.Yaml
