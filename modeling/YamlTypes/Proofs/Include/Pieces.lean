import YamlTypes.Include.Directive

/-!
The pieces of a text make up the text, in order and without overlap.
-/

set_option autoImplicit false

namespace YamlTypes.Include

def Piece.source : Piece → List Char
  | .char c => [c]
  | .directive d => d.text

/-- A directive that begins a text stands there with at least its closing braces. -/
theorem directive?_text {position : Position} {text : List Char} {d : Directive}
    (found : directive? position text = some d) :
    ∃ length, d.text = text.take (length + 1) := by
  simp only [directive?, Option.bind_eq_bind, Option.bind_eq_some_iff, Option.some.injEq] at found
  obtain ⟨rest, _, operand, _, rfl⟩ := found
  exact ⟨text.length - rest.length + operand.length + 1, rfl⟩

theorem piecesFrom_source (skipped : Nat) (position : Position) (text : List Char) :
    (piecesFrom skipped position text).flatMap Piece.source = text.drop skipped := by
  induction text generalizing skipped position with
  | nil => cases skipped <;> simp [piecesFrom]
  | cons c rest inductionHypothesis =>
      cases skipped with
      | succ skipped =>
          simp only [piecesFrom, List.drop_succ_cons]
          exact inductionHypothesis skipped _
      | zero =>
          simp only [piecesFrom]
          cases found : directive? position (c :: rest) with
          | none =>
              simp only [List.flatMap_cons, Piece.source, inductionHypothesis, List.drop_zero,
                List.singleton_append]
          | some d =>
              obtain ⟨length, taken⟩ := directive?_text found
              have consumed : rest.drop (d.text.length - 1) = rest.drop length := by
                rw [taken, List.take_succ_cons, List.length_cons, Nat.add_sub_cancel,
                  List.length_take, ← List.drop_eq_drop_min]
              simp only [List.flatMap_cons, Piece.source, inductionHypothesis, consumed]
              rw [taken, List.take_succ_cons, List.cons_append, List.take_append_drop,
                List.drop_zero]

/-- No character of a text is lost, moved or written twice when it is cut into pieces. -/
theorem pieces_source (text : List Char) : (pieces text).flatMap Piece.source = text :=
  piecesFrom_source 0 .start text

end YamlTypes.Include
