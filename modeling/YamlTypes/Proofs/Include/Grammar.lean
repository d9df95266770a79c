import YamlTypes.Proofs.Include.Lines
import YamlTypes.Proofs.Text.Lines
import Mathlib.Data.List.Forall2
import Mathlib.Data.List.TakeWhile

/-!
The grammar of directives.

`Begins` says in terms of appended texts what it is for a directive to begin a
text, and `Leftmost` which of the directives in a text are reported: the first
one that begins at a place or after it, and then those from its end on. Scanning
a text for directives comes to exactly these.
-/

set_option autoImplicit false

namespace YamlTypes

namespace Text

/-- What is left of a text without the blanks at its ends. -/
structure Trims (text trimmed : List Char) : Prop where
  split : ∃ before after, text = before ++ trimmed ++ after ∧
    ∀ c ∈ before ++ after, isBlank c = true
  begins : ∀ c ∈ trimmed.head?, isBlank c = false
  ends : ∀ c ∈ trimmed.getLast?, isBlank c = false

theorem trims_trim (text : List Char) : Trims text (trim text) := by
  have start : text.takeWhile isBlank ++ trimStart text = text := List.takeWhile_append_dropWhile
  have finish : trim text ++ ((trimStart text).reverse.takeWhile isBlank).reverse =
      trimStart text := by
    rw [trim, trimEnd, ← List.reverse_append, List.takeWhile_append_dropWhile,
      List.reverse_reverse]
  refine ⟨⟨text.takeWhile isBlank, ((trimStart text).reverse.takeWhile isBlank).reverse, ?_, ?_⟩,
    ?_, ?_⟩
  · rw [List.append_assoc, finish, start]
  · intro c member
    rcases List.mem_append.mp member with before | after
    · exact List.mem_takeWhile_imp before
    · exact List.mem_takeWhile_imp (List.mem_reverse.mp after)
  · intro c first
    have firstKept : c ∈ (text.dropWhile isBlank).head? := by
      rw [← trimStart, ← finish, List.head?_append, Option.mem_def.mp first]
      rfl
    exact not_isBlank_head?_dropWhile firstKept
  · intro c last
    rw [trim, trimEnd, List.getLast?_reverse] at last
    exact not_isBlank_head?_dropWhile last

end Text

namespace Include

open Text (Trims)

def opening : List Char := ['{', '{']

def closing : List Char := ['}', '}']

/-- Some blanks, the word, an operand as it is written and the first two closing braces after the
word, on the line of the word. -/
structure Written (blanks operand rest : List Char) : Prop where
  blank : ∀ c ∈ blanks, c = ' ' ∨ c = '\t'
  wordEnds : (∃ c ∈ (operand ++ closing ++ rest).head?, c = ' ' ∨ c = '\t') ∨
    closing <+: operand ++ closing ++ rest
  sameLine : '\n' ∉ operand
  firstClose : ¬ closing <:+: operand ++ ['}']

def Begins (text : List Char) (length : Nat) (operand : List Char) : Prop :=
  ∃ blanks rest, text = opening ++ blanks ++ word ++ operand ++ closing ++ rest ∧
    length = (opening ++ blanks ++ word ++ operand ++ closing).length ∧
    Written blanks operand rest

structure Span where
  start : Nat
  length : Nat
  operand : List Char
  deriving DecidableEq, Repr

def Span.finish (span : Span) : Nat := span.start + span.length

/-- The directives of a text from a place on, each of them the first one that begins at the end of
the one before it or later. -/
inductive Leftmost (text : List Char) : Nat → List Span → Prop
  | done {place} :
      (∀ start ≥ place, ∀ length operand, ¬ Begins (text.drop start) length operand) →
      Leftmost text place []
  | next {place span later} :
      place ≤ span.start →
      (∀ start ≥ place, start < span.start → ∀ length operand,
        ¬ Begins (text.drop start) length operand) →
      Begins (text.drop span.start) span.length span.operand →
      Leftmost text span.finish later →
      Leftmost text place (span :: later)

/-- A directive stands in a text at a stretch: it begins and ends there, has its text, and names
what is left of the operand without the blanks around it. -/
structure Reports (text : List Char) (span : Span) (d : Directive) : Prop where
  begins : d.position = Position.start.after (text.take span.start)
  offset : d.position.offset = Text.Utf8.byteLength (text.take span.start)
  ends : d.finish = Text.Utf8.byteLength (text.take span.finish)
  text : d.text = (text.drop span.start).take span.length
  operand : Trims span.operand d.operand

theorem isSpaceOrTab_iff {c : Char} : isSpaceOrTab c = true ↔ c = ' ' ∨ c = '\t' := by
  simp [isSpaceOrTab]

theorem endsWord_iff {text : List Char} :
    endsWord text = true ↔ (∃ c ∈ text.head?, c = ' ' ∨ c = '\t') ∨ closing <+: text := by
  rcases text with _ | ⟨c, _ | ⟨d, rest⟩⟩
  · simp [endsWord, closing]
  · simp [endsWord, closing, isSpaceOrTab_iff, List.cons_prefix_cons]
  · rw [endsWord_cons_cons, Bool.or_eq_true, isSpaceOrTab_iff, or_comm]
    refine or_congr (by simp) ?_
    simp [closing, List.cons_prefix_cons, @eq_comm _ '}']

theorem afterWord?_eq_some_iff {text rest : List Char} :
    afterWord? text = some rest ↔
      ∃ blanks, (∀ c ∈ blanks, c = ' ' ∨ c = '\t') ∧ text = opening ++ blanks ++ word ++ rest ∧
        endsWord rest = true := by
  constructor
  · intro found
    unfold afterWord? at found
    split at found
    next inside =>
      simp only at found
      split at found
      next matched =>
        rw [Bool.and_eq_true] at matched
        cases found
        refine ⟨inside.takeWhile isSpaceOrTab, fun c member => ?_, ?_, matched.2⟩
        · exact isSpaceOrTab_iff.mp (List.mem_takeWhile_imp member)
        · have split := List.prefix_iff_eq_append.mp (List.isPrefixOf_iff_prefix.mp matched.1)
          rw [List.append_assoc, split, List.append_assoc, List.takeWhile_append_dropWhile]
          rfl
      next => cases found
    next => cases found
  · rintro ⟨blanks, blank, rfl, ends⟩
    have skipped : (blanks ++ word ++ rest).dropWhile isSpaceOrTab = word ++ rest := by
      rw [List.append_assoc, List.dropWhile_append_of_pos fun c member =>
        isSpaceOrTab_iff.mpr (blank c member)]
      rfl
    have begins : opening ++ blanks ++ word ++ rest = '{' :: '{' :: (blanks ++ word ++ rest) := by
      simp [opening]
    have isWord : word.isPrefixOf (word ++ rest) = true :=
      List.isPrefixOf_iff_prefix.mpr (List.prefix_append _ _)
    rw [begins, afterWord?_cons_cons, skipped, List.drop_left, if_pos ⟨rfl, rfl, isWord, ends⟩]

theorem closing_length : closing.length = 2 := rfl

/-- Two closing braces begin at the last character before an operand exactly if they do before the
operand's closing braces. -/
theorem closing_prefix_iff (c : Char) (operand rest : List Char) :
    closing <+: c :: (operand ++ ['}']) ↔
      c = '}' ∧ ∃ tail, operand ++ closing ++ rest = '}' :: tail := by
  cases operand with
  | nil => simp [closing, List.cons_prefix_cons, eq_comm]
  | cons d operand => simp [closing, List.cons_prefix_cons, @eq_comm _ '}']

theorem beforeClose?_eq_some_iff {text operand : List Char} :
    beforeClose? text = some operand ↔
      ∃ rest, text = operand ++ closing ++ rest ∧ '\n' ∉ operand ∧
        ¬ closing <:+: operand ++ ['}'] := by
  constructor
  · intro found
    fun_induction beforeClose? text generalizing operand with
    | case1 => cases found
    | case2 rest =>
        cases found
        exact ⟨rest, rfl, List.not_mem_nil, by decide⟩
    | case3 => cases found
    | case4 c rest unclosed other inductionHypothesis =>
        rcases Option.map_eq_some_iff.mp found with ⟨inner, innerFound, rfl⟩
        rcases inductionHypothesis innerFound with ⟨after, rfl, sameLine, first⟩
        refine ⟨after, rfl, ?_, ?_⟩
        · rw [List.mem_cons, not_or]
          exact ⟨Ne.symm other, sameLine⟩
        · rw [List.cons_append, List.infix_cons_iff, not_or]
          refine ⟨fun here => ?_, first⟩
          rcases (closing_prefix_iff c inner after).mp here with ⟨same, tail, closes⟩
          exact unclosed tail same closes
  · rintro ⟨rest, rfl, sameLine, first⟩
    induction operand with
    | nil => rfl
    | cons c operand inductionHypothesis =>
        rw [List.mem_cons, not_or] at sameLine
        rw [List.cons_append, List.infix_cons_iff, not_or] at first
        have later := inductionHypothesis sameLine.2 first.2
        rw [List.cons_append, List.cons_append, beforeClose?, if_neg (Ne.symm sameLine.1), later]
        · rfl
        · intro tail same closes
          exact first.1 ((closing_prefix_iff c operand rest).mpr ⟨same, tail, closes⟩)

theorem begins_iff {text operand : List Char} {length : Nat} :
    Begins text length operand ↔
      ∃ rest, afterWord? text = some rest ∧ beforeClose? rest = some operand ∧
        length = text.length - rest.length + operand.length + 2 := by
  constructor
  · rintro ⟨blanks, rest, rfl, rfl, written⟩
    have after : afterWord? (opening ++ blanks ++ word ++ operand ++ closing ++ rest) =
        some (operand ++ closing ++ rest) :=
      afterWord?_eq_some_iff.mpr ⟨blanks, written.blank, by simp only [List.append_assoc],
        endsWord_iff.mpr written.wordEnds⟩
    refine ⟨_, after, beforeClose?_eq_some_iff.mpr ⟨rest, rfl, written.sameLine,
      written.firstClose⟩, ?_⟩
    simp only [List.length_append, closing_length]
    omega
  · rintro ⟨inner, after, closes, rfl⟩
    rcases afterWord?_eq_some_iff.mp after with ⟨blanks, blank, rfl, ends⟩
    rcases beforeClose?_eq_some_iff.mp closes with ⟨rest, rfl, sameLine, first⟩
    refine ⟨blanks, rest, by simp only [List.append_assoc], ?_, blank, endsWord_iff.mp ends,
      sameLine, first⟩
    simp only [List.length_append, closing_length]
    omega

theorem Begins.unique {text operand other : List Char} {length otherLength : Nat}
    (first : Begins text length operand) (second : Begins text otherLength other) :
    length = otherLength ∧ operand = other := by
  rcases begins_iff.mp first with ⟨rest, after, closes, rfl⟩
  rcases begins_iff.mp second with ⟨same, sameAfter, sameCloses, rfl⟩
  obtain rfl := Option.some.inj (after.symm.trans sameAfter)
  obtain rfl := Option.some.inj (closes.symm.trans sameCloses)
  exact ⟨rfl, rfl⟩

theorem Begins.length_pos {text operand : List Char} {length : Nat}
    (begins : Begins text length operand) : 0 < length := by
  rcases begins_iff.mp begins with ⟨rest, _, _, rfl⟩
  omega

theorem Begins.length_le {text operand : List Char} {length : Nat}
    (begins : Begins text length operand) : length ≤ text.length := by
  obtain ⟨blanks, rest, rfl, rfl, _⟩ := begins
  simp only [List.length_append]
  omega

theorem directive?_eq_some_iff {position : Position} {text : List Char} {d : Directive} :
    directive? position text = some d ↔
      ∃ length operand, Begins text length operand ∧
        d = ⟨position, text.take length, Text.trim operand⟩ := by
  simp only [directive?, Option.bind_eq_bind, Option.bind_eq_some_iff, Option.some.injEq,
    begins_iff]
  constructor
  · rintro ⟨rest, after, operand, closes, rfl⟩
    exact ⟨_, operand, ⟨rest, after, closes, rfl⟩, rfl⟩
  · rintro ⟨_, operand, ⟨rest, after, closes, rfl⟩, rfl⟩
    exact ⟨rest, after, operand, closes, rfl⟩

theorem directive?_eq_none_iff {position : Position} {text : List Char} :
    directive? position text = none ↔ ∀ length operand, ¬ Begins text length operand := by
  rw [Option.eq_none_iff_forall_not_mem]
  simp only [Option.mem_def, directive?_eq_some_iff]
  constructor
  · intro absent length operand begins
    exact absent _ ⟨length, operand, begins, rfl⟩
  · rintro absent d ⟨length, operand, begins, _⟩
    exact absent length operand begins

section
variable {text : List Char} {place : Nat} {spans : List Span}

/-- A place where no directive begins may come before. -/
theorem Leftmost.earlier (leftmost : Leftmost text (place + 1) spans)
    (absent : ∀ length operand, ¬ Begins (text.drop place) length operand) :
    Leftmost text place spans := by
  have extend : ∀ start ≥ place, start = place ∨ place + 1 ≤ start := by
    intro start after
    omega
  cases leftmost with
  | done nothing =>
      refine .done fun start after => ?_
      rcases extend start after with rfl | further
      · exact absent
      · exact nothing start further
  | next before nothing begins later =>
      refine .next (Nat.le_of_succ_le before) (fun start after earlier => ?_) begins later
      rcases extend start after with rfl | further
      · exact absent
      · exact nothing start further earlier

theorem Leftmost.unique {others : List Span} (left : Leftmost text place spans)
    (right : Leftmost text place others) : others = spans := by
  induction left generalizing others with
  | done nothing =>
      cases right with
      | done => rfl
      | next before _ begins _ => exact absurd begins (nothing _ before _ _)
  | @next place span later before nothing begins _ inductionHypothesis =>
      cases right with
      | done absent => exact absurd begins (absent _ before _ _)
      | @next _ other further otherBefore absent otherBegins otherLater =>
          obtain ⟨start, length, operand⟩ := span
          obtain ⟨otherStart, otherLength, otherOperand⟩ := other
          have notEarlier : ¬ otherStart < start := fun earlier =>
            nothing _ otherBefore earlier _ _ otherBegins
          have notLater : ¬ start < otherStart := fun earlier => absent _ before earlier _ _ begins
          obtain rfl : otherStart = start := by omega
          obtain ⟨rfl, rfl⟩ := otherBegins.unique begins
          rw [inductionHypothesis otherLater]

theorem Leftmost.ordered (leftmost : Leftmost text place spans) :
    (∀ span ∈ spans, place ≤ span.start) ∧
    spans.Pairwise fun first second => first.finish ≤ second.start := by
  induction leftmost with
  | done => exact ⟨by simp, .nil⟩
  | @next place span later before _ _ _ inductionHypothesis =>
      have ends : span.start ≤ span.finish := Nat.le_add_right _ _
      refine ⟨fun other member => ?_, List.pairwise_cons.mpr inductionHypothesis⟩
      rcases List.mem_cons.mp member with rfl | further
      · exact before
      · exact Nat.le_trans (Nat.le_trans before ends) (inductionHypothesis.1 other further)

theorem Leftmost.covers (leftmost : Leftmost text place spans) {start length : Nat}
    {operand : List Char} (after : place ≤ start)
    (begins : Begins (text.drop start) length operand) :
    ∃ span ∈ spans, span.start ≤ start ∧ start < span.finish := by
  induction leftmost with
  | done nothing => exact absurd begins (nothing start after length operand)
  | @next place span later before nothing _ _ inductionHypothesis =>
      by_cases inside : start < span.finish
      · refine ⟨span, List.mem_cons_self, ?_, inside⟩
        by_contra earlier
        exact nothing start after (Nat.lt_of_not_le earlier) length operand begins
      · rcases inductionHypothesis (Nat.le_of_not_lt inside) with ⟨found, member, holds⟩
        exact ⟨found, List.mem_cons_of_mem _ member, holds⟩

/-- What begins the rest of a text stands at that place in the text. -/
theorem Reports.of_rest (before rest : List Char) (length : Nat) (operand : List Char) :
    Reports (before ++ rest) ⟨before.length, length, operand⟩
      ⟨Position.start.after before, rest.take length, Text.trim operand⟩ where
  begins := by rw [List.take_left]
  offset := by rw [List.take_left, Position.after_offset, Position.start, Nat.zero_add]
  ends := by
    rw [Directive.finish, Position.after_offset, Position.start, Nat.zero_add, Span.finish,
      List.take_length_add_append, Text.Utf8.byteLength_append]
  text := by rw [List.drop_left]
  operand := Text.trims_trim operand

/-- The directives among the pieces of the rest of a text are those that stand at its leftmost
spans. -/
theorem exists_leftmost_piecesFrom {skipped : Nat} (before rest : List Char)
    (inside : skipped ≤ rest.length) :
    ∃ spans, Leftmost (before ++ rest) (before.length + skipped) spans ∧
      List.Forall₂ (Reports (before ++ rest)) spans
        ((piecesFrom skipped (Position.start.after before) rest).filterMap Piece.directive?) := by
  -- Each step takes one character from the rest to what lies before it.
  induction rest generalizing skipped before with
  | nil =>
      refine ⟨[], .done fun start after length operand begins => ?_, ?_⟩
      · have short := begins.length_le
        have long := begins.length_pos
        simp only [List.append_nil, List.length_drop] at short
        omega
      · cases skipped <;> exact .nil
  | cons c rest inductionHypothesis =>
      have shift : before ++ [c] ++ rest = before ++ c :: rest := by simp
      have place : (before ++ [c]).length = before.length + 1 := by simp
      have advance : (Position.start.after before).advance c =
          Position.start.after (before ++ [c]) := by
        rw [Position.after_append]
        rfl
      cases skipped with
      | succ skipped =>
          rcases inductionHypothesis (before ++ [c]) (Nat.le_of_succ_le_succ inside) with
            ⟨spans, leftmost, reports⟩
          rw [shift, place, Nat.add_right_comm] at leftmost
          rw [shift, ← advance] at reports
          exact ⟨spans, leftmost, reports⟩
      | zero =>
          simp only [piecesFrom, advance]
          cases found : directive? (Position.start.after before) (c :: rest) with
          | none =>
              rcases inductionHypothesis (before ++ [c]) (Nat.zero_le _) with
                ⟨spans, leftmost, reports⟩
              rw [shift] at leftmost reports
              rw [place] at leftmost
              refine ⟨spans, leftmost.earlier ?_, reports⟩
              rw [List.drop_left]
              exact directive?_eq_none_iff.mp found
          | some d =>
              rcases directive?_eq_some_iff.mp found with ⟨length, operand, begins, rfl⟩
              have short := begins.length_le
              have long := begins.length_pos
              have taken : ((c :: rest).take length).length - 1 = length - 1 := by
                rw [List.length_take, Nat.min_eq_left short]
              rw [List.length_cons] at short
              rcases inductionHypothesis (before ++ [c]) (show length - 1 ≤ rest.length by omega)
                with ⟨spans, leftmost, reports⟩
              have finish : (before ++ [c]).length + (length - 1) =
                  (Span.mk before.length length operand).finish := by
                rw [place, Span.finish, Nat.add_assoc, Nat.add_sub_of_le long]
              rw [shift, finish] at leftmost
              rw [shift] at reports
              refine ⟨⟨before.length, length, operand⟩ :: spans, .next (Nat.le_refl _) ?_ ?_ leftmost,
                ?_⟩
              · exact fun start after earlier => absurd earlier (Nat.not_lt.mpr after)
              · rw [List.drop_left]
                exact begins
              · simp only [taken]
                exact .cons (.of_rest before (c :: rest) length operand) reports

/-- The directives of a text are exactly those at its leftmost spans, which come one after the
other and leave out no place where a directive begins. -/
theorem directives_leftmost (text : List Char) :
    ∃ spans, Leftmost text 0 spans ∧ (∀ others, Leftmost text 0 others → others = spans) ∧
      List.Forall₂ (Reports text) spans (directives text) ∧
      (spans.Pairwise fun first second => first.finish ≤ second.start) ∧
      ∀ start length operand, Begins (text.drop start) length operand →
        ∃ span ∈ spans, span.start ≤ start ∧ start < span.finish := by
  rcases exists_leftmost_piecesFrom [] text (Nat.zero_le _) with ⟨spans, leftmost, reports⟩
  refine ⟨spans, leftmost, fun others other => leftmost.unique other, reports,
    leftmost.ordered.2, fun start length operand begins => ?_⟩
  exact leftmost.covers (Nat.zero_le start) begins

/-- Blanks alone are no operand, and a longer word is no directive. -/
example : (directives "{{include a}}b{{ include }}{{includes}}".toList).map
    (fun d => (d.position.column, String.ofList d.operand)) = [(0, "a"), (14, "")] := rfl

end

end Include

end YamlTypes
