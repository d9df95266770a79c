import YamlTypes.Proofs.Include.Derivation
import YamlTypes.Proofs.Include.Pieces
import Mathlib.Algebra.Ring.Nat

/-!
Expansion in one pass.

`expand` indents a document after its own includes have been expanded, once at
each level. `emit` carries the indentation along instead and writes every
character once. The two agree because indenting twice is indenting by the sum,
so a document emitted at an indentation is its expansion, indented by it.
-/

set_option autoImplicit false

namespace YamlTypes.Include

def written (indent : Nat) (c : Char) : List Char :=
  if c = '\n' then c :: List.replicate indent ' ' else [c]

section
variable {α β : Type} (documents : Path → Except FileFault (List Char)) (base : Path)
  (write : α → Char → List β) (descend : α → Nat → α)

/-- One pass over pieces. What a document inherits stays the same throughout it; a directive
hands on what `descend` makes of it and of its column. -/
def passPieces (passText : α → List Char → Option (List β)) (inherited : α) :
    List Piece → Option (List β)
  | [] => some []
  | .char c :: rest => do
    let later ← passPieces passText inherited rest
    some (write inherited c ++ later)
  | .directive d :: rest => do
    let text ← (documents (target base d.operand)).toOption
    let here ← passText (descend inherited d.position.column) text
    let later ← passPieces passText inherited rest
    some (here ++ later)

def pass : Nat → α → List Char → Option (List β)
  | 0, _, _ => none
  | depth + 1, inherited, text =>
    passPieces documents base write descend (pass depth) inherited (pieces text)

end

/-- A text and the documents in it, written from left to right at an indentation. -/
def emit (documents : Path → Except FileFault (List Char)) (base : Path) (depth indent : Nat)
    (text : List Char) : Option (List Char) :=
  pass documents base written (· + ·) depth indent text

/-- A character of some document, with the columns of the directives that lead there, outermost
first. -/
structure Occurrence where
  char : Char
  columns : List Nat
  deriving DecidableEq, Repr

/-- A newline is followed by as many spaces as the columns add up to. -/
def Occurrence.text (o : Occurrence) : List Char := written o.columns.sum o.char

def occurrences (documents : Path → Except FileFault (List Char)) (base : Path) (depth : Nat)
    (columns : List Nat) (text : List Char) : Option (List Occurrence) :=
  pass documents base (fun columns c => [⟨c, columns⟩]) (fun columns column => columns ++ [column])
    depth columns text

section
variable {α β : Type} {documents : Path → Except FileFault (List Char)} {base : Path}
  {write : α → Char → List β} {descend : α → Nat → α}
  {passText : α → List Char → Option (List β)} {inherited : α}

theorem passPieces_char {c : Char} {rest : List Piece} {later : List β}
    (passed : passPieces documents base write descend passText inherited rest = some later) :
    passPieces documents base write descend passText inherited (.char c :: rest) =
      some (write inherited c ++ later) := by
  simp only [passPieces, passed, Option.bind_eq_bind, Option.bind_some]

theorem passPieces_directive {d : Directive} {rest : List Piece} {text : List Char}
    {here later : List β} (found : documents (target base d.operand) = .ok text)
    (opened : passText (descend inherited d.position.column) text = some here)
    (passed : passPieces documents base write descend passText inherited rest = some later) :
    passPieces documents base write descend passText inherited (.directive d :: rest) =
      some (here ++ later) := by
  simp only [passPieces, found, Except.toOption, opened, passed, Option.bind_eq_bind,
    Option.bind_some]

end

theorem reindent_append (column : Nat) (first second : List Char) :
    reindent column (first ++ second) = reindent column first ++ reindent column second :=
  List.flatMap_append

theorem reindent_singleton (column : Nat) (c : Char) : reindent column [c] = written column c := by
  simp [reindent, written]

theorem reindent_spaces (column count : Nat) :
    reindent column (List.replicate count ' ') = List.replicate count ' ' := by
  induction count with
  | zero => rfl
  | succ count inductionHypothesis =>
      rw [List.replicate_succ, ← List.singleton_append, reindent_append, inductionHypothesis]
      rfl

/-- Spaces put in by one indentation are left alone by the next. -/
theorem reindent_written (outer inner : Nat) (c : Char) :
    reindent outer (written inner c) = written (outer + inner) c := by
  unfold written
  split
  next newline =>
    subst newline
    rw [← List.singleton_append, reindent_append, reindent_spaces, reindent_singleton]
    simp only [written, if_true, List.cons_append,
      List.replicate_append_replicate]
  next other => simp [reindent, other]

theorem reindent_reindent (outer inner : Nat) (text : List Char) :
    reindent outer (reindent inner text) = reindent (outer + inner) text := by
  induction text with
  | nil => rfl
  | cons c rest inductionHypothesis =>
      rw [← List.singleton_append, reindent_append, reindent_append, reindent_append,
        inductionHypothesis, reindent_singleton, reindent_singleton, reindent_written]

theorem reindent_zero (text : List Char) : reindent 0 text = text := by
  induction text with
  | nil => rfl
  | cons c rest inductionHypothesis =>
      rw [← List.singleton_append, reindent_append, inductionHypothesis, reindent_singleton]
      simp [written]

section
variable {α α' β β' : Type} {documents : Path → Except FileFault (List Char)} {base : Path}
  {write : α → Char → List β} {descend : α → Nat → α}
  {write' : α' → Char → List β'} {descend' : α' → Nat → α'}
  (forget : α' → α) (render : β' → List β)
  (writes : ∀ inherited c,
    write (forget inherited) c = (write' inherited c).flatMap render)
  (descends : ∀ inherited column,
    descend (forget inherited) column = forget (descend' inherited column))

include writes descends in
theorem passPieces_map {passText : α → List Char → Option (List β)}
    {passText' : α' → List Char → Option (List β')}
    (passes : ∀ inherited text,
      passText (forget inherited) text = (passText' inherited text).map (·.flatMap render))
    (inherited : α') (ps : List Piece) :
    passPieces documents base write descend passText (forget inherited) ps =
      (passPieces documents base write' descend' passText' inherited ps).map
        (·.flatMap render) := by
  induction ps with
  | nil => rfl
  | cons p rest inductionHypothesis =>
      cases p with
      | char c =>
          simp only [passPieces, inductionHypothesis, writes]
          cases passPieces documents base write' descend' passText' inherited rest <;> simp
      | directive d =>
          simp only [passPieces, inductionHypothesis, descends, passes]
          cases (documents (target base d.operand)).toOption with
          | none => rfl
          | some text =>
              simp only [Option.bind_eq_bind, Option.bind_some]
              cases passText' (descend' inherited d.position.column) text with
              | none => rfl
              | some here =>
                  cases passPieces documents base write' descend' passText' inherited rest <;> simp

include writes descends in
/-- A pass that remembers more gives the same when what it gives is rendered. -/
theorem pass_map (depth : Nat) (inherited : α') (text : List Char) :
    pass documents base write descend depth (forget inherited) text =
      (pass documents base write' descend' depth inherited text).map (·.flatMap render) := by
  induction depth generalizing inherited text with
  | zero => rfl
  | succ depth inductionHypothesis =>
      exact passPieces_map forget render writes descends inductionHypothesis inherited (pieces text)

end

/-- What is emitted is every occurrence after the other. -/
theorem emit_eq_occurrences (documents : Path → Except FileFault (List Char)) (base : Path)
    (depth : Nat) (columns : List Nat) (text : List Char) :
    emit documents base depth columns.sum text =
      (occurrences documents base depth columns text).map (·.flatMap Occurrence.text) :=
  pass_map List.sum Occurrence.text (fun _ _ => (List.append_nil _).symm)
    (fun _ _ => by simp) depth columns text

section
variable {σ : Type} {loader : Loader σ} {base : Path} {settings : Settings}
  {answer : Path → Encoding → Except FileFault (List Char)}

/-- What an expansion gives, indented, is what one pass at that indentation writes. -/
theorem Expands.emits (steady : loader.Answers answer) {chain : List Path} {ps : List Piece}
    {state : σ} {run : Run σ} (derived : Expands loader base settings chain ps state run)
    {expansion : Expansion} (succeeded : run.result = .ok expansion) (indent : Nat) :
    ∃ depth, ∀ deeper ≥ depth,
      passPieces (answer · settings.encoding) base written (· + ·)
        (emit (answer · settings.encoding) base deeper) indent ps =
        some (reindent indent expansion.text) := by
  induction derived generalizing expansion indent with
  | nil =>
      cases succeeded
      exact ⟨0, fun _ _ => rfl⟩
  | char _ inductionHypothesis =>
      rcases Run.ok_of_after_ok succeeded with ⟨later, laterSucceeded, rfl⟩
      rcases inductionHypothesis laterSucceeded indent with ⟨depth, emitted⟩
      refine ⟨depth, fun deeper bound => ?_⟩
      rw [passPieces_char (emitted deeper bound), reindent_append, reindent_singleton]
  | refused => cases succeeded
  | unreadable => cases succeeded
  | failed => cases succeeded
  | @included chain d rest state text next inner expanded run opens _ finished _ innerHypothesis
      laterHypothesis =>
      rcases Run.ok_of_after_ok succeeded with ⟨later, laterSucceeded, rfl⟩
      rcases innerHypothesis finished (indent + d.position.column) with
        ⟨innerDepth, innerEmitted⟩
      rcases laterHypothesis laterSucceeded indent with ⟨laterDepth, laterEmitted⟩
      refine ⟨max (innerDepth + 1) laterDepth, fun deeper bound => ?_⟩
      have laterBound : laterDepth ≤ deeper := Nat.le_trans (Nat.le_max_right _ _) bound
      obtain ⟨less, rfl⟩ := Nat.exists_eq_add_of_le' (Nat.le_trans (Nat.le_max_left _ _) bound)
      rw [passPieces_directive (opens.answer_eq steady)
        (innerEmitted (less + innerDepth) (Nat.le_add_left _ _)) (laterEmitted _ laterBound),
        reindent_append, reindent_reindent]

/-- The text of an expansion is what one pass writes that starts at no indentation and is never
indented again. Each newline in it is followed by the sum of the columns that lead to its
document, and outside of directives no character is lost. -/
theorem resolve_text_eq_emit {directory root : Path} {text : List Char} {state : σ} {run : Run σ}
    {expansion : Expansion} (steady : loader.Answers answer)
    (resolved : Resolves loader directory root settings [] text state run)
    (succeeded : run.result = .ok expansion) :
    ∃ base, Path.absolute? directory root = some base ∧
      (∃ depth, ∀ deeper ≥ depth,
        emit (answer · settings.encoding) base deeper 0 text = some expansion.text ∧
        ∃ marks, occurrences (answer · settings.encoding) base deeper [] text = some marks ∧
          expansion.text = marks.flatMap Occurrence.text) ∧
      ∀ document, (pieces document).flatMap Piece.source = document := by
  cases based : Path.absolute? directory root with
  | none =>
      rw [resolves_iff_of_no_base based] at resolved
      rw [resolved] at succeeded
      cases succeeded
  | some base =>
      rw [resolves_iff_of_base based] at resolved
      rcases resolved.emits steady succeeded 0 with ⟨depth, emitted⟩
      rw [reindent_zero] at emitted
      refine ⟨base, rfl, ⟨depth + 1, fun deeper bound => ?_⟩, pieces_source⟩
      obtain ⟨less, rfl⟩ := Nat.exists_eq_add_of_le' bound
      have wholeEmitted : emit (answer · settings.encoding) base (less + (depth + 1)) 0 text =
          some expansion.text := emitted (less + depth) (Nat.le_add_left _ _)
      refine ⟨wholeEmitted, ?_⟩
      have marked := emit_eq_occurrences (answer · settings.encoding) base (less + (depth + 1))
        [] text
      rw [List.sum_nil, wholeEmitted] at marked
      rcases Option.map_eq_some_iff.mp marked.symm with ⟨marks, found, joined⟩
      exact ⟨marks, found, joined.symm⟩

end

/-- A document that includes another one stands at column 5, and then the other one by itself at
column 20 of the same line. -/
def nestedDocuments : List (String × String) :=
  [("/b/a", "a:\n  b: {{ include c }}\n"), ("/b/c", "c1\nc2")]

def nestedExpansion : Expansion where
  text := "top: a:\n       b: c1\n          c2\n     c1\n                    c2".toList
  referenced := [⟨"/b/a"⟩, ⟨"/b/c"⟩, ⟨"/b/c"⟩]

theorem resolve_text_eq_emit_nested :
    (Loader.ofStore (storeOf nestedDocuments)).Answers (storeOf nestedDocuments) ∧
    Resolves (Loader.ofStore (storeOf nestedDocuments)) ⟨"/"⟩ ⟨"/b"⟩ {} []
      "top: {{ include a }}{{ include c }}".toList ()
      ⟨(), nestedExpansion.referenced, .ok nestedExpansion⟩ ∧
    ∃ base, Path.absolute? ⟨"/"⟩ ⟨"/b"⟩ = some base ∧
      (∃ depth, ∀ deeper ≥ depth,
        emit (storeOf nestedDocuments · .utf8) base deeper 0
          "top: {{ include a }}{{ include c }}".toList = some nestedExpansion.text ∧
        ∃ marks, occurrences (storeOf nestedDocuments · .utf8) base deeper []
            "top: {{ include a }}{{ include c }}".toList = some marks ∧
          nestedExpansion.text = marks.flatMap Occurrence.text) ∧
      ∀ document, (pieces document).flatMap Piece.source = document := by
  have steady := Loader.ofStore_answers (storeOf nestedDocuments)
  have resolved : Resolves (Loader.ofStore (storeOf nestedDocuments)) ⟨"/"⟩ ⟨"/b"⟩ {} []
      "top: {{ include a }}{{ include c }}".toList ()
      ⟨(), nestedExpansion.referenced, .ok nestedExpansion⟩ := ⟨3, by rfl⟩
  exact ⟨steady, resolved, resolve_text_eq_emit steady resolved rfl⟩

end YamlTypes.Include
