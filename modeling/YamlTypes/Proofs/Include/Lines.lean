import YamlTypes.Proofs.Include.Position

/-!
Directives and lines.

No directive reaches beyond its line, and whether one begins somewhere is
decided by that line. So the pieces of two texts with a newline between them are
those of the first, the newline, and those of the second at later places. Their
columns are the same as before.
-/

set_option autoImplicit false

namespace YamlTypes.Include

theorem isPrefixOf_append_newline {start : List Char} (oneLine : '\n' ∉ start)
    (text later : List Char) :
    start.isPrefixOf (text ++ '\n' :: later) = start.isPrefixOf text := by
  induction start generalizing text with
  | nil => simp
  | cons c rest inductionHypothesis =>
      rw [List.mem_cons, not_or] at oneLine
      cases text with
      | nil => simp [List.isPrefixOf, Ne.symm oneLine.1]
      | cons d text =>
          rw [List.cons_append, List.isPrefixOf_cons_cons, List.isPrefixOf_cons_cons,
            inductionHypothesis oneLine.2]

theorem endsWord_cons_cons (c d : Char) (rest : List Char) :
    endsWord (c :: d :: rest) = (c == '}' && d == '}' || isSpaceOrTab c) := by
  unfold endsWord
  split
  next same =>
    cases same
    rfl
  next other same =>
    cases same
    have unclosed : ¬ (c = '}' ∧ d = '}') := fun ⟨first, second⟩ => other _ first (by rw [second])
    simp [unclosed]
  next same => cases same

theorem endsWord_append_newline (text later : List Char) :
    endsWord (text ++ '\n' :: later) = endsWord text := by
  rcases text with _ | ⟨c, _ | ⟨d, rest⟩⟩
  · rfl
  · simp [endsWord]
  · rw [List.cons_append, List.cons_append, endsWord_cons_cons, endsWord_cons_cons]

theorem dropWhile_append_newline (text later : List Char) :
    (text ++ '\n' :: later).dropWhile isSpaceOrTab =
      text.dropWhile isSpaceOrTab ++ '\n' :: later := by
  have stays : ('\n' :: later).dropWhile isSpaceOrTab = '\n' :: later := rfl
  rw [List.dropWhile_append, stays]
  split
  next blank => rw [List.isEmpty_iff.mp blank, List.nil_append]
  next => rfl

theorem afterWord?_cons_cons (c d : Char) (rest : List Char) :
    afterWord? (c :: d :: rest) =
      if c = '{' ∧ d = '{' ∧ word.isPrefixOf (rest.dropWhile isSpaceOrTab) ∧
          endsWord ((rest.dropWhile isSpaceOrTab).drop word.length) then
        some ((rest.dropWhile isSpaceOrTab).drop word.length)
      else none := by
  unfold afterWord?
  split
  next same =>
    cases same
    simp only [Bool.and_eq_true, true_and]
  next other =>
    rw [if_neg]
    rintro ⟨rfl, rfl, _⟩
    exact other _ rfl

theorem afterWord?_append_newline (text later : List Char) :
    afterWord? (text ++ '\n' :: later) = (afterWord? text).map (· ++ '\n' :: later) := by
  rcases text with _ | ⟨c, _ | ⟨d, rest⟩⟩
  · rfl
  · simp [afterWord?]
  · have oneLine : '\n' ∉ word := by decide
    simp only [List.cons_append, afterWord?_cons_cons, dropWhile_append_newline,
      isPrefixOf_append_newline oneLine]
    by_cases found : word.isPrefixOf (rest.dropWhile isSpaceOrTab)
    · have long : word.length ≤ (rest.dropWhile isSpaceOrTab).length :=
        (List.isPrefixOf_iff_prefix.mp found).length_le
      simp only [List.drop_append_of_le_length long, endsWord_append_newline]
      split <;> rfl
    · simp only [found, Bool.false_eq_true, false_and, and_false, if_false, Option.map_none]

theorem beforeClose?_append_newline (text later : List Char) :
    beforeClose? (text ++ '\n' :: later) = beforeClose? text := by
  fun_induction beforeClose? text with
  | case1 => rfl
  | case2 => rfl
  | case3 => simp [beforeClose?]
  | case4 c rest noClose other inductionHypothesis =>
      rw [List.cons_append, beforeClose?, if_neg other, inductionHypothesis]
      intro tail first second
      cases rest <;> simp_all

theorem afterWord?_length {text rest : List Char} (found : afterWord? text = some rest) :
    rest.length ≤ text.length := by
  unfold afterWord? at found
  split at found
  next inside =>
    simp only at found
    split at found
    next =>
      cases found
      have shorter := (List.dropWhile_suffix isSpaceOrTab (l := inside)).length_le
      simp only [List.length_drop, List.length_cons]
      omega
    next => cases found
  next => cases found

theorem beforeClose?_length {text operand : List Char} (found : beforeClose? text = some operand) :
    operand.length + 2 ≤ text.length := by
  fun_induction beforeClose? text generalizing operand with
  | case1 => cases found
  | case2 =>
      cases found
      simp
  | case3 => cases found
  | case4 c rest _ _ inductionHypothesis =>
      rcases Option.map_eq_some_iff.mp found with ⟨inner, innerFound, rfl⟩
      have bound := inductionHypothesis innerFound
      simp only [List.length_cons]
      omega

/-- A newline after a text and what comes then make no difference to the directive that begins
it. -/
theorem directive?_append_newline (position : Position) (text later : List Char) :
    directive? position (text ++ '\n' :: later) = directive? position text := by
  unfold directive?
  rw [afterWord?_append_newline]
  cases word : afterWord? text with
  | none => rfl
  | some rest =>
      simp only [Option.map_some, Option.bind_eq_bind, Option.bind_some,
        beforeClose?_append_newline]
      cases close : beforeClose? rest with
      | none => rfl
      | some operand =>
          have within := afterWord?_length word
          have closed := beforeClose?_length close
          have same : (text ++ '\n' :: later).length - (rest ++ '\n' :: later).length =
              text.length - rest.length := by
            simp only [List.length_append]
            omega
          simp only [Option.bind_some, same]
          rw [List.take_append_of_le_length (by omega)]

theorem piecesFrom_append_newline {skipped : Nat} {text : List Char}
    (inside : skipped ≤ text.length) (position : Position) (later : List Char) :
    piecesFrom skipped position (text ++ '\n' :: later) =
      piecesFrom skipped position text ++
        .char '\n' :: piecesFrom 0 ((position.after text).advance '\n') later := by
  induction text generalizing skipped position with
  | nil =>
      obtain rfl := Nat.le_zero.mp inside
      have plain : directive? position ('\n' :: later) = none :=
        (directive?_append_newline position [] later).trans rfl
      simp only [List.nil_append, piecesFrom, plain, Position.after_nil]
  | cons c rest inductionHypothesis =>
      cases skipped with
      | succ skipped =>
          exact inductionHypothesis (Nat.le_of_succ_le_succ inside) (position.advance c)
      | zero =>
          have same := directive?_append_newline position (c :: rest) later
          rw [List.cons_append] at same
          simp only [List.cons_append, piecesFrom, same]
          cases found : directive? position (c :: rest) with
          | none =>
              rw [inductionHypothesis (Nat.zero_le _), List.cons_append, Position.after_cons]
          | some d =>
              obtain ⟨length, taken⟩ := directive?_text found
              have short : d.text.length - 1 ≤ rest.length := by
                rw [taken, List.length_take, List.length_cons]
                omega
              dsimp only
              rw [inductionHypothesis short, List.cons_append, Position.after_cons]

/-- The place so many bytes and lines further on. -/
def Position.moved (bytes lines : Nat) (p : Position) : Position :=
  ⟨p.offset + bytes, p.line + lines, p.column⟩

def Directive.moved (bytes lines : Nat) (d : Directive) : Directive :=
  { d with position := d.position.moved bytes lines }

theorem Directive.moved_operand (bytes lines : Nat) (d : Directive) :
    (d.moved bytes lines).operand = d.operand := rfl

def Piece.moved (bytes lines : Nat) : Piece → Piece
  | .char c => .char c
  | .directive d => .directive (d.moved bytes lines)

theorem Position.advance_moved (bytes lines : Nat) (p : Position) (c : Char) :
    (p.moved bytes lines).advance c = (p.advance c).moved bytes lines := by
  unfold advance moved
  split <;> simp only [Nat.add_right_comm]

theorem directive?_moved (bytes lines : Nat) (p : Position) (text : List Char) :
    directive? (p.moved bytes lines) text =
      (directive? p text).map (Directive.moved bytes lines) := by
  unfold directive?
  cases afterWord? text with
  | none => rfl
  | some rest =>
      simp only [Option.bind_eq_bind, Option.bind_some]
      cases beforeClose? rest <;> rfl

theorem piecesFrom_moved (bytes lines skipped : Nat) (p : Position) (text : List Char) :
    piecesFrom skipped (p.moved bytes lines) text =
      (piecesFrom skipped p text).map (Piece.moved bytes lines) := by
  induction text generalizing skipped p with
  | nil => cases skipped <;> rfl
  | cons c rest inductionHypothesis =>
      cases skipped with
      | succ skipped =>
          simp only [piecesFrom, Position.advance_moved]
          exact inductionHypothesis skipped _
      | zero =>
          simp only [piecesFrom, directive?_moved, Position.advance_moved]
          cases directive? p (c :: rest) with
          | none =>
              rw [inductionHypothesis]
              rfl
          | some d =>
              simp only [Option.map_some, inductionHypothesis]
              rfl

/-- The beginning of a line is like that of a text, further on. -/
theorem Position.after_newline (text : List Char) :
    ∃ bytes, (Position.start.after text).advance '\n' =
      Position.start.moved bytes (text.count '\n' + 1) := by
  have line := Position.after_line .start text
  refine ⟨((Position.start.after text).advance '\n').offset, ?_⟩
  unfold advance moved
  rw [if_pos rfl, line]
  simp only [start, Nat.zero_add, Position.mk.injEq, true_and, and_true]
  omega

/-- Between two texts with a newline between them no piece is lost or changed. -/
theorem pieces_append_newline (first second : List Char) :
    ∃ bytes, pieces (first ++ '\n' :: second) =
      pieces first ++
        .char '\n' :: (pieces second).map (Piece.moved bytes (first.count '\n' + 1)) := by
  rcases Position.after_newline first with ⟨bytes, begins⟩
  refine ⟨bytes, ?_⟩
  rw [pieces, piecesFrom_append_newline (Nat.zero_le _), begins, piecesFrom_moved]
  rfl

end YamlTypes.Include
