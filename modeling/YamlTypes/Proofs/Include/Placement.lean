import Mathlib.Data.List.Induction
import YamlTypes.Proofs.Include.Grammar

/-!
Lines, columns and bytes of directives.

Advancing over a text keeps three counts at once: newlines, characters since the
last newline, and bytes. A directive is reported at the counts of what lies
before it, so its line and its column can be read off its document, and its
bytes are those that its own characters take in the document's UTF-8.
-/

set_option autoImplicit false

namespace YamlTypes

namespace Text.Utf8

def bytes (text : List Char) : List UInt8 := text.flatMap String.utf8EncodeChar

theorem bytes_append (first second : List Char) :
    bytes (first ++ second) = bytes first ++ bytes second := List.flatMap_append

theorem length_bytes (text : List Char) : (bytes text).length = byteLength text := by
  induction text with
  | nil => rfl
  | cons c rest inductionHypothesis =>
      rw [← List.singleton_append, bytes_append, List.length_append, inductionHypothesis]
      simp [bytes, byteLength, String.length_utf8EncodeChar]

theorem byteLength_pos {text : List Char} (nonempty : text ≠ []) : 0 < byteLength text := by
  obtain ⟨c, rest, rfl⟩ := List.exists_cons_of_ne_nil nonempty
  rw [byteLength_cons]
  exact Nat.add_pos_left (Char.utf8Size_pos c) _

theorem take_bytes (first second : List Char) :
    (bytes (first ++ second)).take (byteLength first) = bytes first := by
  rw [bytes_append, ← length_bytes, List.take_left]

theorem byteLength_take_le (text : List Char) {few many : Nat} (le : few ≤ many) :
    byteLength (text.take few) ≤ byteLength (text.take many) := by
  obtain ⟨more, rfl⟩ := Nat.exists_eq_add_of_le le
  rw [List.take_add, byteLength_append]
  exact Nat.le_add_right _ _

end Text.Utf8

namespace Include

open Text.Utf8 (byteLength byteLength_append byteLength_pos byteLength_take_le bytes length_bytes
  take_bytes)

def WholeLines (text : List Char) : Prop := text = [] ∨ text.getLast? = some '\n'

/-- The place in a document where a directive is said to stand. `lines` are the lines before its
own, and `start` is what its own line begins with. -/
structure Placed (document : List Char) (d : Directive) (lines start rest : List Char) : Prop where
  split : document = lines ++ start ++ d.text ++ rest
  wholeLines : WholeLines lines
  sameLine : '\n' ∉ start ++ d.text
  line : d.position.line = 1 + (lines ++ start).count '\n'
  column : d.position.column = start.length
  begins : (bytes document).take d.position.offset = bytes (lines ++ start)
  ends : (bytes document).take d.finish = bytes (lines ++ start ++ d.text)
  nonempty : d.position.offset < d.finish
  inside : d.finish ≤ (bytes document).length

theorem exists_wholeLines (text : List Char) :
    ∃ lines start, text = lines ++ start ∧ WholeLines lines ∧ '\n' ∉ start := by
  -- From the right, since the last newline ends the whole lines.
  induction text using List.reverseRecOn with
  | nil => exact ⟨[], [], rfl, .inl rfl, List.not_mem_nil⟩
  | append_singleton text c inductionHypothesis =>
      obtain ⟨lines, start, rfl, whole, sameLine⟩ := inductionHypothesis
      by_cases newline : c = '\n'
      · subst newline
        exact ⟨_, [], (List.append_nil _).symm, .inr List.getLast?_concat, List.not_mem_nil⟩
      · refine ⟨lines, start ++ [c], List.append_assoc .., whole, ?_⟩
        rw [List.mem_append, List.mem_singleton, not_or]
        exact ⟨sameLine, Ne.symm newline⟩

theorem Position.after_column {text : List Char} (sameLine : '\n' ∉ text) (p : Position) :
    (p.after text).column = p.column + text.length := by
  induction text generalizing p with
  | nil => rfl
  | cons c rest inductionHypothesis =>
      rw [List.mem_cons, not_or] at sameLine
      rw [after_cons, inductionHypothesis sameLine.2, advance, if_neg (Ne.symm sameLine.1),
        List.length_cons, Nat.add_assoc, Nat.add_comm 1]

theorem WholeLines.column {lines : List Char} (whole : WholeLines lines) :
    (Position.start.after lines).column = 0 := by
  obtain rfl | ended := whole
  · rfl
  · obtain ⟨front, rfl⟩ := List.getLast?_eq_some_iff.mp ended
    rw [Position.after_append]
    rfl

/-- The column counts the characters behind the last newline. -/
theorem WholeLines.after_eq {lines start : List Char} (whole : WholeLines lines)
    (sameLine : '\n' ∉ start) :
    Position.start.after (lines ++ start) =
      ⟨byteLength (lines ++ start), 1 + (lines ++ start).count '\n', start.length⟩ := by
  have offset := Position.start.after_offset (lines ++ start)
  have line := Position.start.after_line (lines ++ start)
  have column := (Position.start.after lines).after_column sameLine
  rw [← Position.after_append, whole.column] at column
  generalize Position.start.after (lines ++ start) = reached at offset line column
  obtain ⟨_, _, _⟩ := reached
  simp only [Position.start, Nat.zero_add] at offset line column
  rw [offset, line, column]

/-- No directive reaches beyond its line. -/
theorem Begins.sameLine {text operand : List Char} {length : Nat}
    (begins : Begins text length operand) : '\n' ∉ text.take length := by
  obtain ⟨blanks, rest, rfl, rfl, written⟩ := begins
  have noBreak : '\n' ∉ blanks := by
    intro member
    obtain same | same := written.blank _ member <;> cases same
  rw [List.take_left]
  simp [opening, word, closing, noBreak, written.sameLine]

theorem exists_placed {document : List Char} {d : Directive} (member : d ∈ directives document) :
    ∃ lines start rest, Placed document d lines start rest := by
  obtain ⟨before, after, rfl, found⟩ := exists_of_mem_piecesFrom (mem_directives_iff.mp member)
  obtain ⟨length, operand, begins, isDirective⟩ := directive?_eq_some_iff.mp found
  obtain ⟨lines, start, rfl, whole, sameLine⟩ := exists_wholeLines before
  have text : d.text = after.take length := congrArg Directive.text isDirective
  have position := (directive?_position found).trans (whole.after_eq sameLine)
  have finish : d.finish = byteLength (lines ++ start ++ d.text) := by
    rw [Directive.finish, position, byteLength_append _ d.text]
  have split : lines ++ start ++ after = lines ++ start ++ d.text ++ after.drop length := by
    rw [text, List.append_assoc _ (after.take length), List.take_append_drop]
  have positive : 0 < byteLength d.text := by
    apply byteLength_pos
    rw [text, ne_eq, List.take_eq_nil_iff]
    have short := begins.length_le
    have long := begins.length_pos
    rintro (zero | rfl)
    · omega
    · exact absurd short (Nat.not_le_of_lt long)
  refine ⟨lines, start, after.drop length, split, whole, ?_, ?_, ?_, ?_, ?_, ?_, ?_⟩
  · rw [List.mem_append, not_or, text]
    exact ⟨sameLine, begins.sameLine⟩
  · rw [position]
  · rw [position]
  · rw [position, take_bytes]
  · rw [finish, split, take_bytes]
  · rw [finish, position, byteLength_append _ d.text]
    exact Nat.lt_add_of_pos_right positive
  · rw [finish, split, length_bytes, byteLength_append _ (after.drop length)]
    exact Nat.le_add_right _ _

/-- What is reported of stretches that come one after the other comes one after the other too. -/
theorem Reports.pairwise {document : List Char} {spans : List Span} {ds : List Directive}
    (reports : List.Forall₂ (Reports document) spans ds)
    (ordered : spans.Pairwise fun first second => first.finish ≤ second.start) :
    ds.Pairwise fun first second => first.finish ≤ second.position.offset := by
  induction reports with
  | nil => exact .nil
  | @cons span d spans ds report later inductionHypothesis =>
      obtain ⟨before, ordered⟩ := List.pairwise_cons.mp ordered
      refine List.pairwise_cons.mpr ⟨fun other member => ?_, inductionHypothesis ordered⟩
      obtain ⟨index, short, rfl⟩ := List.mem_iff_getElem.mp member
      have length := later.length_eq
      have next := later.get (length ▸ short) short
      rw [List.get_eq_getElem, List.get_eq_getElem] at next
      rw [report.ends, next.offset]
      apply byteLength_take_le
      exact before _ (List.getElem_mem _)

/-- Every directive is reported at its own line, column and bytes, which are not none, and the
directives come one after the other without overlap. -/
theorem directives_placed (document : List Char) :
    (∀ d ∈ directives document, ∃ lines start rest, Placed document d lines start rest) ∧
      (directives document).Pairwise fun first second =>
        first.finish ≤ second.position.offset := by
  obtain ⟨spans, leftmost, reports⟩ := exists_leftmost_piecesFrom [] document (Nat.zero_le _)
  exact ⟨fun d => exists_placed, Reports.pairwise reports leftmost.ordered.2⟩

/-- Two directives in the last line of a text, where characters of several bytes stand before them
and an empty line above. -/
def wideText : List Char :=
  ['é', ':', '\n', '\n', 'ß', ' '] ++ (opening ++ word ++ [' ', 'ä'] ++ closing) ++
    (opening ++ [' '] ++ word ++ [' '] ++ closing)

theorem directives_placed_wide :
    ∃ first second, directives wideText = [first, second] ∧
      (first.position, first.finish) = (⟨8, 3, 2⟩, 22) ∧
      (second.position, second.finish) = (⟨22, 3, 15⟩, 35) ∧
      (∃ lines start rest, Placed wideText second lines start rest) ∧
      first.finish ≤ second.position.offset := by
  obtain ⟨each, ordered⟩ := directives_placed wideText
  have found : directives wideText =
      [⟨⟨8, 3, 2⟩, opening ++ word ++ [' ', 'ä'] ++ closing, ['ä']⟩,
        ⟨⟨22, 3, 15⟩, opening ++ [' '] ++ word ++ [' '] ++ closing, []⟩] := rfl
  rw [found] at each ordered
  refine ⟨_, _, found, rfl, rfl, each _ (List.mem_cons_of_mem _ List.mem_cons_self), ?_⟩
  exact (List.pairwise_cons.mp ordered).1 _ List.mem_cons_self

end Include

end YamlTypes
