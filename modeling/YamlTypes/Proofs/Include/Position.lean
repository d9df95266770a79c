import YamlTypes.Proofs.Include.Pieces

/-!
Where the directives of a text stand.

The place of a directive is where one comes to by advancing over the characters
before it, and what begins there is the directive itself. So its line is one
more than the newlines before it in its own document.
-/

set_option autoImplicit false

namespace YamlTypes.Include

def Position.after (p : Position) (text : List Char) : Position := text.foldl Position.advance p

@[simp] theorem Position.after_nil (p : Position) : p.after [] = p := rfl

@[simp] theorem Position.after_cons (p : Position) (c : Char) (rest : List Char) :
    p.after (c :: rest) = (p.advance c).after rest := rfl

theorem Position.after_append (p : Position) (first second : List Char) :
    p.after (first ++ second) = (p.after first).after second := List.foldl_append

theorem Position.advance_line (p : Position) (c : Char) :
    (p.advance c).line = p.line + [c].count '\n' := by
  unfold advance
  split <;> simp_all

theorem Position.after_line (p : Position) (text : List Char) :
    (p.after text).line = p.line + text.count '\n' := by
  induction text generalizing p with
  | nil => rfl
  | cons c rest inductionHypothesis =>
      rw [after_cons, inductionHypothesis, advance_line, Nat.add_assoc, ← List.count_append,
        List.singleton_append]

theorem Position.after_offset (p : Position) (text : List Char) :
    (p.after text).offset = p.offset + Text.Utf8.byteLength text := by
  induction text generalizing p with
  | nil => rfl
  | cons c rest inductionHypothesis =>
      have step : (p.advance c).offset = p.offset + c.utf8Size := by
        unfold advance
        split <;> rfl
      rw [after_cons, inductionHypothesis, step, Nat.add_assoc]
      rfl

theorem directive?_position {position : Position} {text : List Char} {d : Directive}
    (found : directive? position text = some d) : d.position = position := by
  simp only [directive?, Option.bind_eq_bind, Option.bind_eq_some_iff, Option.some.injEq] at found
  obtain ⟨_, _, _, _, rfl⟩ := found
  rfl

theorem exists_of_mem_piecesFrom {skipped : Nat} {position : Position} {text : List Char}
    {d : Directive} (member : .directive d ∈ piecesFrom skipped position text) :
    ∃ before rest, text = before ++ rest ∧ directive? (position.after before) rest = some d := by
  induction text generalizing skipped position with
  | nil => cases skipped <;> simp [piecesFrom] at member
  | cons c rest inductionHypothesis =>
      have later : ∀ skipped, .directive d ∈ piecesFrom skipped (position.advance c) rest →
          ∃ before after, c :: rest = before ++ after ∧
            directive? (position.after before) after = some d := by
        intro skipped member
        rcases inductionHypothesis member with ⟨before, after, rfl, found⟩
        exact ⟨c :: before, after, rfl, found⟩
      cases skipped with
      | succ skipped => exact later skipped member
      | zero =>
          simp only [piecesFrom] at member
          cases found : directive? position (c :: rest) with
          | none =>
              simp only [found, List.mem_cons, reduceCtorEq, false_or] at member
              exact later 0 member
          | some first =>
              simp only [found, List.mem_cons, Piece.directive.injEq] at member
              rcases member with rfl | member
              · exact ⟨[], c :: rest, rfl, found⟩
              · exact later _ member

theorem mem_directives_iff {text : List Char} {d : Directive} :
    d ∈ directives text ↔ .directive d ∈ pieces text := by
  simp only [directives, List.mem_filterMap]
  constructor
  · rintro ⟨piece, member, isDirective⟩
    cases piece with
    | char c => cases isDirective
    | directive found =>
        cases isDirective
        exact member
  · exact fun member => ⟨_, member, rfl⟩

theorem position_of_piecesFrom_eq {skipped : Nat} {position : Position} {text : List Char}
    {front back : List Piece} {d : Directive}
    (split : piecesFrom skipped position text = front ++ .directive d :: back) :
    d.position = position.after (text.take skipped ++ front.flatMap Piece.source) := by
  induction text generalizing skipped position front with
  | nil => cases skipped <;> simp [piecesFrom] at split
  | cons c rest inductionHypothesis =>
      cases skipped with
      | succ skipped => exact inductionHypothesis split
      | zero =>
          simp only [piecesFrom] at split
          cases found : directive? position (c :: rest) with
          | none =>
              simp only [found] at split
              cases front with
              | nil => cases (List.cons.inj split).1
              | cons piece front =>
                  obtain ⟨rfl, later⟩ := List.cons.inj split
                  exact inductionHypothesis later
          | some first =>
              simp only [found] at split
              cases front with
              | nil =>
                  cases (List.cons.inj split).1
                  exact directive?_position found
              | cons piece front =>
                  obtain ⟨rfl, later⟩ := List.cons.inj split
                  obtain ⟨length, taken⟩ := directive?_text found
                  have source : c :: rest.take (first.text.length - 1) = first.text := by
                    rw [taken, List.take_succ_cons, List.length_cons, Nat.add_sub_cancel,
                      List.length_take, ← List.take_eq_take_min]
                  have behind := inductionHypothesis later
                  rw [← Position.after_cons, ← List.cons_append, source] at behind
                  exact behind

/-- A directive is part of its document, and its line is counted from the beginning of that. -/
theorem line_of_mem_directives {text : List Char} {d : Directive} (member : d ∈ directives text) :
    ∃ before after, text = before ++ d.text ++ after ∧
      d.position.line = before.count '\n' + 1 := by
  rcases exists_of_mem_piecesFrom (mem_directives_iff.mp member) with ⟨before, rest, rfl, found⟩
  obtain ⟨length, taken⟩ := directive?_text found
  refine ⟨before, rest.drop (length + 1), ?_, ?_⟩
  · rw [taken, List.append_assoc, List.take_append_drop]
  · rw [directive?_position found, Position.after_line, Nat.add_comm]
    rfl

end YamlTypes.Include
