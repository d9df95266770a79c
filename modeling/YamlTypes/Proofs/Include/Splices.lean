import Mathlib.Data.List.Chain
import YamlTypes.Proofs.Include.Emission
import YamlTypes.Proofs.Include.Grammar

/-!
Directives that arise where texts are joined.

A directive begins with two opening braces. In an expanded text these can stand
in one document, or meet where a directive was replaced, whatever number of
documents end there. Neither happens if in every document two opening braces
stand only inside directives, and no directive has one next to it: then of any
two pieces that follow each other one is a character other than an opening
brace, and such a character stands in the expanded text too.
-/

set_option autoImplicit false

namespace YamlTypes.Include

open Text.Utf8 (byteLength byteLength_append)

/-- Two opening braces stand only inside directives, and no directive has an opening brace before
or behind it. -/
structure WellBraced (text : List Char) : Prop where
  inside : ∀ before after, text = before ++ opening ++ after →
    ∃ d ∈ directives text, d.position.offset ≤ byteLength before ∧
      byteLength (before ++ opening) ≤ d.finish
  alone : ∀ d ∈ directives text, ∀ before after, text = before ++ d.text ++ after →
    d.position.offset = byteLength before →
      before.getLast? ≠ some '{' ∧ after.head? ≠ some '{'

def Piece.Opens : Piece → Prop
  | .char c => c = '{'
  | .directive _ => True

instance : DecidablePred Piece.Opens
  | .char c => inferInstanceAs (Decidable (c = '{'))
  | .directive _ => isTrue trivial

def Piece.Apart (piece next : Piece) : Prop := ¬(piece.Opens ∧ next.Opens)

instance : DecidableRel Piece.Apart := fun piece next =>
  inferInstanceAs (Decidable ¬(piece.Opens ∧ next.Opens))

/-- No opening brace stands next to another one. -/
def Unopened (text : List Char) : Prop := text.IsChain fun c next => ¬(c = '{' ∧ next = '{')

theorem unopened_iff {text : List Char} : Unopened text ↔ ¬ opening <:+: text := by
  rw [Unopened, List.isChain_iff_forall_rel_of_append_cons_cons]
  constructor
  · rintro apart ⟨before, after, rfl⟩
    exact apart (List.append_assoc before opening after) ⟨rfl, rfl⟩
  · rintro absent c next before after rfl ⟨rfl, rfl⟩
    exact absent ⟨before, after, List.append_assoc before opening after⟩

theorem exists_of_directive? {position : Position} {text : List Char} {d : Directive}
    (found : directive? position text = some d) :
    ∃ inner, d.text = opening ++ inner ++ closing := by
  rcases directive?_eq_some_iff.mp found with ⟨length, operand, ⟨blanks, rest, rfl, rfl, -⟩, rfl⟩
  refine ⟨blanks ++ word ++ operand, ?_⟩
  rw [List.take_left]
  simp only [List.append_assoc]

theorem exists_of_directive_mem {text : List Char} {d : Directive}
    (member : .directive d ∈ pieces text) : ∃ inner, d.text = opening ++ inner ++ closing := by
  rcases exists_of_mem_piecesFrom member with ⟨before, rest, -, found⟩
  exact exists_of_directive? found

theorem Piece.Opens.head? {text : List Char} {piece : Piece} (opens : piece.Opens)
    (member : piece ∈ pieces text) : piece.source.head? = some '{' := by
  cases piece with
  | char c =>
      obtain rfl : c = '{' := opens
      rfl
  | directive d =>
      rcases exists_of_directive_mem member with ⟨inner, whole⟩
      rw [source, whole]
      rfl

theorem offset_of_pieces_eq {text : List Char} {front back : List Piece} {d : Directive}
    (split : pieces text = front ++ .directive d :: back) :
    d.position.offset = byteLength (front.flatMap Piece.source) := by
  rw [position_of_piecesFrom_eq split, Position.after_offset, List.take_zero, List.nil_append,
    Position.start, Nat.zero_add]

theorem not_covered_of_pieces_eq {text : List Char} {front back : List Piece} {c next : Char}
    (split : pieces text = front ++ .char c :: .char next :: back) {d : Directive}
    (member : d ∈ directives text)
    (begins : d.position.offset ≤ byteLength (front.flatMap Piece.source)) :
    d.finish ≤ byteLength (front.flatMap Piece.source) := by
  have found := mem_directives_iff.mp member
  rw [split, List.mem_append] at found
  rcases found with before | behind
  · rcases List.append_of_mem before with ⟨first, second, rfl⟩
    rw [List.append_assoc] at split
    rw [Directive.finish, offset_of_pieces_eq split, List.flatMap_append, List.flatMap_cons,
      byteLength_append, byteLength_append]
    simp only [Piece.source]
    omega
  · have later : Piece.directive d ∈ back := by simpa using behind
    rcases List.append_of_mem later with ⟨first, second, rfl⟩
    have whole : pieces text =
        (front ++ .char c :: .char next :: first) ++ .directive d :: second := by
      rw [split, List.append_assoc]
      rfl
    rw [offset_of_pieces_eq whole, List.flatMap_append, List.flatMap_cons, byteLength_append,
      byteLength_append] at begins
    have positive : 0 < byteLength (Piece.char c).source := by
      simp [Piece.source, byteLength, Char.utf8Size_pos]
    omega

theorem covered_of_pieces_eq {text : List Char} {front back : List Piece} {d : Directive}
    (split : pieces text = front ++ .directive d :: back) {inner behind : List Char}
    (within : d.text = inner ++ opening ++ behind) :
    d.position.offset ≤ byteLength (front.flatMap Piece.source ++ inner) ∧
      byteLength (front.flatMap Piece.source ++ inner ++ opening) ≤ d.finish := by
  rw [Directive.finish, offset_of_pieces_eq split, within]
  simp only [byteLength_append]
  omega

theorem WellBraced.isChain {text : List Char} (braced : WellBraced text) :
    (pieces text).IsChain Piece.Apart := by
  rw [List.isChain_iff_forall_rel_of_append_cons_cons]
  rintro piece next front back split ⟨opens, nextOpens⟩
  have source := pieces_source text
  rw [split, List.flatMap_append, List.flatMap_cons, List.flatMap_cons] at source
  cases piece with
  | directive d =>
      have member : d ∈ directives text := mem_directives_iff.mpr (by simp [split])
      have isPiece : next ∈ pieces text := by simp [split]
      have head := nextOpens.head? isPiece
      have sides := braced.alone d member (front.flatMap Piece.source)
        (next.source ++ back.flatMap Piece.source)
        (source.symm.trans (List.append_assoc _ _ _).symm) (offset_of_pieces_eq split)
      rw [List.head?_append, head] at sides
      exact sides.2 rfl
  | char c =>
      obtain rfl : c = '{' := opens
      cases next with
      | directive d =>
          have behind : pieces text = (front ++ [.char '{']) ++ .directive d :: back := by
            rw [split, List.append_assoc]
            rfl
          have member : d ∈ directives text := mem_directives_iff.mpr (by simp [split])
          have sides := braced.alone d member ((front ++ [Piece.char '{']).flatMap Piece.source)
            (back.flatMap Piece.source) (by simp [← source, Piece.source])
            (offset_of_pieces_eq behind)
          rw [List.flatMap_append, List.flatMap_singleton, Piece.source, List.getLast?_concat]
            at sides
          exact sides.1 rfl
      | char next =>
          obtain rfl : next = '{' := nextOpens
          rcases braced.inside (front.flatMap Piece.source) (back.flatMap Piece.source)
            (by simp [← source, Piece.source, opening]) with ⟨d, member, begins, ends⟩
          have finish := not_covered_of_pieces_eq split member begins
          have positive : 0 < byteLength opening := by decide
          rw [byteLength_append] at ends
          omega

theorem exists_piece_of_source {ps : List Piece} {before rest : List Char} {c : Char}
    (source : ps.flatMap Piece.source = before ++ c :: rest) :
    ∃ front piece back inner behind, ps = front ++ piece :: back ∧
      piece.source = inner ++ c :: behind ∧ before = front.flatMap Piece.source ++ inner ∧
      rest = behind ++ back.flatMap Piece.source := by
  induction ps generalizing before with
  | nil => simp at source
  | cons piece ps inductionHypothesis =>
      have further : ∀ {more}, ps.flatMap Piece.source = more ++ c :: rest →
          ∃ front found back inner behind, piece :: ps = front ++ found :: back ∧
            found.source = inner ++ c :: behind ∧
            piece.source ++ more = front.flatMap Piece.source ++ inner ∧
            rest = behind ++ back.flatMap Piece.source := by
        intro more later
        rcases inductionHypothesis later with
          ⟨front, found, back, inner, behind, rfl, within, rfl, last⟩
        exact ⟨piece :: front, found, back, inner, behind, rfl, within,
          by rw [List.flatMap_cons, List.append_assoc], last⟩
      rcases List.append_eq_append_iff.mp source with
        ⟨more, rfl, later⟩ | ⟨_ | ⟨first, behind⟩, within, last⟩
      · exact further later
      · rw [List.append_nil] at within
        rw [← within, ← List.append_nil piece.source]
        exact further last.symm
      · obtain ⟨rfl, rest⟩ := List.cons.inj last
        exact ⟨[], piece, ps, before, behind, rfl, within, rfl, rest⟩

theorem exists_opens_of_head? {ps : List Piece}
    (first : (ps.flatMap Piece.source).head? = some '{') :
    ∃ piece back, ps = piece :: back ∧ piece.Opens := by
  cases ps with
  | nil => cases first
  | cons piece back =>
      refine ⟨piece, back, rfl, ?_⟩
      cases piece with
      | char c => exact Option.some.inj first
      | directive d => trivial

theorem exists_opens_of_getLast? {ps : List Piece}
    (last : (ps.flatMap Piece.source).getLast? = some '{') :
    ∃ front piece, ps = front ++ [piece] ∧ piece.Opens := by
  rcases List.eq_nil_or_concat ps with rfl | ⟨front, piece, rfl⟩
  · cases last
  · refine ⟨front, piece, List.concat_eq_append, ?_⟩
    cases piece with
    | char c =>
        rw [List.concat_eq_append, List.flatMap_append, List.flatMap_singleton, Piece.source,
          List.getLast?_concat] at last
        exact Option.some.inj last
    | directive d => trivial

section
variable {text before after : List Char}

theorem inside_of_isChain (apart : (pieces text).IsChain Piece.Apart)
    (split : text = before ++ opening ++ after) :
    ∃ d ∈ directives text, d.position.offset ≤ byteLength before ∧
      byteLength (before ++ opening) ≤ d.finish := by
  have source := (pieces_source text).trans (split.trans (List.append_assoc _ _ _))
  rw [List.isChain_iff_forall_rel_of_append_cons_cons] at apart
  rcases exists_piece_of_source source with
    ⟨front, piece, back, inner, behind, cut, within, rfl, rest⟩
  cases piece with
  | char c =>
      obtain ⟨rfl, same⟩ : inner = [] ∧ [c] = '{' :: behind := by
        cases inner with
        | nil => exact ⟨rfl, within⟩
        | cons d inner => simp [Piece.source] at within
      obtain ⟨rfl, rfl⟩ := List.cons.inj same
      have first : (back.flatMap Piece.source).head? = some '{' := by
        rw [← List.nil_append (back.flatMap _), ← rest]
        rfl
      rcases exists_opens_of_head? first with ⟨next, further, rfl, opens⟩
      exact absurd ⟨rfl, opens⟩ (apart cut)
  | directive d =>
      have member : Piece.directive d ∈ pieces text := by
        rw [cut]
        exact List.mem_append_right _ List.mem_cons_self
      rw [Piece.source] at within
      cases behind with
      | nil =>
          -- A directive ends with a closing brace.
          rcases exists_of_directive_mem member with ⟨inside, whole⟩
          have ends : d.text.getLast? = some '}' := by
            rw [whole, closing, List.getLast?_append_cons]
            rfl
          rw [within, List.getLast?_concat] at ends
          cases ends
      | cons next behind =>
          obtain ⟨rfl, -⟩ := List.cons.inj rest
          have parts : d.text = inner ++ opening ++ behind :=
            within.trans (List.append_assoc inner opening behind).symm
          exact ⟨d, mem_directives_iff.mpr member, covered_of_pieces_eq cut parts⟩

theorem alone_of_isChain (apart : (pieces text).IsChain Piece.Apart) {d : Directive}
    (member : d ∈ directives text) (split : text = before ++ d.text ++ after)
    (begins : d.position.offset = byteLength before) :
    before.getLast? ≠ some '{' ∧ after.head? ≠ some '{' := by
  rcases List.append_of_mem (mem_directives_iff.mp member) with ⟨front, back, cut⟩
  have source := pieces_source text
  rw [cut, List.flatMap_append, List.flatMap_cons, Piece.source] at source
  have whole := source.trans (split.trans (List.append_assoc _ _ _))
  rw [offset_of_pieces_eq cut] at begins
  obtain rfl := Text.Utf8.eq_of_byteLength_eq whole begins
  obtain rfl := List.append_cancel_left (List.append_cancel_left whole)
  rw [List.isChain_iff_forall_rel_of_append_cons_cons] at apart
  constructor
  · intro last
    rcases exists_opens_of_getLast? last with ⟨further, piece, rfl, opens⟩
    rw [List.append_assoc, List.singleton_append] at cut
    exact apart cut ⟨opens, trivial⟩
  · intro first
    rcases exists_opens_of_head? first with ⟨piece, further, rfl, opens⟩
    exact apart cut ⟨trivial, opens⟩

end

/-- A text is well braced exactly if no two pieces next to each other begin with an opening brace,
which can be told from its pieces. -/
theorem wellBraced_iff {text : List Char} :
    WellBraced text ↔ (pieces text).IsChain Piece.Apart :=
  ⟨WellBraced.isChain, fun apart => ⟨fun _ _ => inside_of_isChain apart,
    fun _ member _ _ => alone_of_isChain apart member⟩⟩

instance (text : List Char) : Decidable (WellBraced text) := decidable_of_iff' _ wellBraced_iff

/-- Two directives side by side are not well braced, though no other opening braces are there. -/
example : WellBraced "\x7b {x}, {{include a}}\n".toList ∧
    ¬ WellBraced "{{include a}}{{include a}}".toList := by decide

theorem unopened_spaces (count : Nat) : Unopened (List.replicate count ' ') := by
  refine List.isChain_iff_forall_rel_of_append_cons_cons.mpr ?_
  rintro c next before after split ⟨rfl, -⟩
  have member : '{' ∈ List.replicate count ' ' := by simp [split]
  exact absurd (List.eq_of_mem_replicate member) (by decide)

theorem head?_reindent (column : Nat) (text : List Char) :
    (reindent column text).head? = text.head? := by
  cases text with
  | nil => rfl
  | cons c rest =>
      rw [reindent, List.flatMap_cons]
      split <;> rfl

theorem Unopened.reindent {text : List Char} (unopened : Unopened text) (column : Nat) :
    Unopened (reindent column text) := by
  induction text with
  | nil => exact .nil
  | cons c rest inductionHypothesis =>
      have ⟨apart, later⟩ := List.isChain_cons.mp unopened
      have indented := inductionHypothesis later
      rw [← List.singleton_append, reindent_append, reindent_singleton, written]
      split
      next newline =>
        subst newline
        refine List.isChain_cons.mpr ⟨fun _ _ both => absurd both.1 (by decide), ?_⟩
        refine List.isChain_append.mpr ⟨unopened_spaces column, indented, ?_⟩
        rintro last isLast next - ⟨rfl, -⟩
        have space := List.eq_of_mem_replicate (List.mem_of_mem_getLast? isLast)
        exact absurd space (by decide)
      next =>
        refine List.isChain_cons.mpr ⟨fun next isNext => apart next ?_, indented⟩
        rwa [← head?_reindent column]

section
variable {σ : Type} {loader : Loader σ} {base : Path} {settings : Settings} {chain : List Path}
  {ps : List Piece} {state : σ} {run : Run σ} {expansion : Expansion}
  {answer : Path → Encoding → Except FileFault (List Char)}

theorem Expands.head?_text_ne (derived : Expands loader base settings chain ps state run)
    (succeeded : run.result = .ok expansion) (closed : ∀ piece ∈ ps.head?, ¬piece.Opens) :
    expansion.text.head? ≠ some '{' := by
  cases derived with
  | nil =>
      cases succeeded
      rintro ⟨⟩
  | @char chain c rest state run later =>
      rcases Run.ok_of_after_ok succeeded with ⟨later, -, rfl⟩
      intro same
      exact closed _ rfl (Option.some.inj same)
  | refused | unreadable | failed | included => exact absurd trivial (closed _ rfl)

/-- Joining the pieces of well braced documents puts no opening braces together. -/
theorem Expands.unopened (steady : loader.Answers answer)
    (derived : Expands loader base settings chain ps state run)
    (apart : ps.IsChain Piece.Apart)
    (braced : ∀ path ∈ run.loads, ∀ document,
      answer path settings.encoding = .ok document → WellBraced document)
    (succeeded : run.result = .ok expansion) : Unopened expansion.text := by
  induction derived generalizing expansion with
  | nil =>
      cases succeeded
      exact .nil
  | @char chain c rest state run later inductionHypothesis =>
      rcases Run.ok_of_after_ok succeeded with ⟨behind, behindSucceeded, rfl⟩
      have ⟨here, apartLater⟩ := List.isChain_cons.mp apart
      refine List.isChain_cons.mpr ⟨?_, inductionHypothesis apartLater braced behindSucceeded⟩
      rintro next isNext ⟨rfl, rfl⟩
      have closed : ∀ piece ∈ rest.head?, ¬piece.Opens :=
        fun piece isHead opens => here piece isHead ⟨rfl, opens⟩
      exact later.head?_text_ne behindSucceeded closed isNext
  | refused | unreadable | failed => cases succeeded
  | @included chain d rest state text next inner expanded run opens innerDerived finished later
      innerHypothesis laterHypothesis =>
      rcases Run.ok_of_after_ok succeeded with ⟨behind, behindSucceeded, rfl⟩
      have ⟨here, apartLater⟩ := List.isChain_cons.mp apart
      have document : WellBraced text :=
        braced _ (by simp) text (opens.answer_eq steady)
      have innerUnopened := innerHypothesis document.isChain
        (fun path member => braced path (by simp [member])) finished
      have laterUnopened := laterHypothesis apartLater
        (fun path member => braced path (by simp [member])) behindSucceeded
      refine List.isChain_append.mpr ⟨innerUnopened.reindent _, laterUnopened, ?_⟩
      rintro last - next isNext ⟨-, rfl⟩
      have closed : ∀ piece ∈ rest.head?, ¬piece.Opens :=
        fun piece isHead opens => here piece isHead ⟨trivial, opens⟩
      exact later.head?_text_ne behindSucceeded closed isNext

end

theorem Unopened.directives_eq {text : List Char} (unopened : Unopened text) :
    directives text = [] := by
  refine List.eq_nil_iff_forall_not_mem.mpr fun d member => ?_
  rcases exists_of_mem_piecesFrom (mem_directives_iff.mp member) with ⟨before, rest, rfl, found⟩
  rcases directive?_eq_some_iff.mp found with ⟨length, operand, ⟨blanks, after, rfl, -, -⟩, -⟩
  refine unopened_iff.mp unopened ⟨before, blanks ++ word ++ operand ++ closing ++ after, ?_⟩
  simp only [List.append_assoc]

theorem pieces_of_directives_eq_nil {text : List Char} (plain : directives text = []) :
    pieces text = text.map .char := by
  have chars : ∀ piece ∈ pieces text, piece.source.map Piece.char = [piece] := by
    intro piece member
    cases piece with
    | char c => rfl
    | directive d =>
        have found := mem_directives_iff.mpr member
        rw [plain] at found
        cases found
  have whole := congrArg (List.map Piece.char) (pieces_source text)
  rw [List.map_flatMap, List.flatMap_congr chars] at whole
  rw [← whole, List.flatMap_singleton']

section
variable {σ : Type} {loader : Loader σ} {base : Path} {settings : Settings} {chain : List Path}

theorem Expands.of_chars (text : List Char) (state : σ) :
    Expands loader base settings chain (text.map .char) state ⟨state, [], .ok ⟨text, []⟩⟩ := by
  induction text with
  | nil => exact .nil
  | cons c rest inductionHypothesis => exact .char inductionHypothesis

end

/-- Where the text and every document that is loaded for it are well braced, the expanded text has
no two opening braces next to each other and so no directive. Expanding it again asks for no
document and leaves it as it is. -/
theorem resolve_fully_expands {σ : Type} {loader : Loader σ} {directory root : Path}
    {settings : Settings} {text : List Char} {state : σ} {run : Run σ} {expansion : Expansion}
    {answer : Path → Encoding → Except FileFault (List Char)} (steady : loader.Answers answer)
    (resolved : Resolves loader directory root settings [] text state run)
    (succeeded : run.result = .ok expansion) (braced : WellBraced text)
    (bracedEach : ∀ path ∈ run.loads, ∀ document,
      answer path settings.encoding = .ok document → WellBraced document) :
    ¬ opening <:+: expansion.text ∧ directives expansion.text = [] ∧
      ∀ start, Resolves loader directory root settings [] expansion.text start
        ⟨start, [], .ok ⟨expansion.text, []⟩⟩ := by
  cases based : Path.absolute? directory root with
  | none =>
      rw [resolves_iff_of_no_base based] at resolved
      rw [resolved] at succeeded
      cases succeeded
  | some base =>
      rw [resolves_iff_of_base based] at resolved
      have unopened := resolved.unopened steady braced.isChain bracedEach succeeded
      refine ⟨unopened_iff.mp unopened, unopened.directives_eq, fun start => ?_⟩
      rw [resolves_iff_of_base based, pieces_of_directives_eq_nil unopened.directives_eq]
      exact .of_chars expansion.text start

/-- Documents that begin or end with a directive or a brace, and an empty one. -/
def bracedDocuments : List (String × String) :=
  [("/b/a", "{{include b}}\n\x7b {{include e}}"), ("/b/b", "{x}\n{{include e}}"), ("/b/e", "")]

def bracedExpansion : Expansion where
  text := "v: {x}\n   \n   \x7b |\x7b".toList
  referenced := [⟨"/b/a"⟩, ⟨"/b/b"⟩, ⟨"/b/e"⟩, ⟨"/b/e"⟩]

theorem resolve_fully_expands_braced :
    (Loader.ofStore (storeOf bracedDocuments)).Answers (storeOf bracedDocuments) ∧
    Resolves (Loader.ofStore (storeOf bracedDocuments)) ⟨"/"⟩ ⟨"/b"⟩ {} []
      "v: {{include a}}|\x7b".toList () ⟨(), bracedExpansion.referenced, .ok bracedExpansion⟩ ∧
    ¬ opening <:+: bracedExpansion.text ∧ directives bracedExpansion.text = [] ∧
      ∀ start, Resolves (Loader.ofStore (storeOf bracedDocuments)) ⟨"/"⟩ ⟨"/b"⟩ {} []
        bracedExpansion.text start ⟨start, [], .ok ⟨bracedExpansion.text, []⟩⟩ := by
  have steady := Loader.ofStore_answers (storeOf bracedDocuments)
  have resolved : Resolves (Loader.ofStore (storeOf bracedDocuments)) ⟨"/"⟩ ⟨"/b"⟩ {} []
      "v: {{include a}}|\x7b".toList () ⟨(), bracedExpansion.referenced, .ok bracedExpansion⟩ :=
    ⟨4, by rfl⟩
  have each : ∀ entry ∈ bracedDocuments, WellBraced entry.2.toList := by decide
  have bracedEach : ∀ path ∈ bracedExpansion.referenced, ∀ document,
      storeOf bracedDocuments path .utf8 = .ok document → WellBraced document := by
    intro path _ document answered
    unfold storeOf at answered
    split at answered
    next text found =>
      cases answered
      rcases List.lookup_eq_some_iff.mp found with ⟨front, back, listed, -⟩
      exact each (path.text, text) (by simp [listed])
    next => cases answered
  exact ⟨steady, resolved, resolve_fully_expands steady resolved rfl (by decide) bracedEach⟩

end YamlTypes.Include
