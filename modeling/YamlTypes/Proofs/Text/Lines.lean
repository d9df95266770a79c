import YamlTypes.Text.Blank

/-!
Texts cut at a separator, and without the blanks at their ends.

What is cut off holds no separator, and texts with a separator between them are
cut into the pieces of both. Trimming leaves the first character that is no
blank where it is.
-/

set_option autoImplicit false

namespace YamlTypes.Text

theorem splitOn_eq (separator : Char) (text : List Char) :
    splitOn separator text = text.splitOn separator := by
  induction text with
  | nil => rfl
  | cons c rest inductionHypothesis =>
      simp only [splitOn, inductionHypothesis, List.splitOn_cons_eq_if_modifyHead, beq_iff_eq]
      split
      next => rfl
      next =>
        cases split : rest.splitOn separator with
        | nil => exact absurd split (List.splitOn_ne_nil separator rest)
        | cons first others => rfl

theorem not_mem_of_mem_splitOn {separator : Char} {text segment : List Char}
    (member : segment ∈ splitOn separator text) : separator ∉ segment := by
  induction text generalizing segment with
  | nil => simp_all [splitOn]
  | cons c rest inductionHypothesis =>
      unfold splitOn at member
      split at member
      next =>
        rcases List.mem_cons.mp member with rfl | later
        · exact List.not_mem_nil
        · exact inductionHypothesis later
      next other =>
        split at member
        next split => exact absurd split (splitOn_ne_nil separator rest)
        next first others split =>
          rw [split] at inductionHypothesis
          rcases List.mem_cons.mp member with rfl | later
          · rw [List.mem_cons, not_or]
            exact ⟨Ne.symm other, inductionHypothesis List.mem_cons_self⟩
          · exact inductionHypothesis (List.mem_cons_of_mem _ later)

theorem splitOn_append (separator : Char) (first second : List Char) :
    splitOn separator (first ++ separator :: second) =
      splitOn separator first ++ splitOn separator second := by
  rw [splitOn_eq, splitOn_eq, splitOn_eq, List.splitOn_append_cons_self]

/-- Separators at the end cut off nothing but empty pieces. -/
theorem splitOn_append_separators {separator : Char} {separators : List Char}
    (only : ∀ c ∈ separators, c = separator) (text : List Char) :
    splitOn separator (text ++ separators) =
      splitOn separator text ++ List.replicate separators.length [] := by
  induction separators generalizing text with
  | nil => simp
  | cons c rest inductionHypothesis =>
      obtain rfl := only c List.mem_cons_self
      have later := inductionHypothesis (fun d member => only d (List.mem_cons_of_mem _ member)) []
      rw [List.nil_append] at later
      rw [splitOn_append, later, List.length_cons, List.replicate_succ]
      rfl

/-- Other characters than the separator are those of the pieces. -/
theorem mem_iff_exists_mem_splitOn {separator c : Char} (other : c ≠ separator)
    (text : List Char) : c ∈ text ↔ ∃ piece ∈ splitOn separator text, c ∈ piece := by
  rw [← List.mem_flatten, splitOn_eq]
  induction text with
  | nil => simp
  | cons d rest inductionHypothesis =>
      rw [List.mem_cons, inductionHypothesis, List.splitOn_cons_eq_if_modifyHead]
      split
      next same =>
        rw [List.flatten_cons, List.nil_append, ← beq_iff_eq.mp same]
        exact or_iff_right (beq_iff_eq.mp same ▸ other)
      next =>
        cases pieces : rest.splitOn separator with
        | nil => exact absurd pieces (List.splitOn_ne_nil separator rest)
        | cons first others => simp

theorem splitOn_of_not_mem {separator : Char} {text : List Char} (none : separator ∉ text) :
    splitOn separator text = [text] := by
  rw [splitOn_eq, List.splitOn_eq_singleton none]

/-- What stands before any separator becomes the beginning of the first piece. -/
theorem splitOn_append_of_not_mem {separator : Char} {front : List Char} (none : separator ∉ front)
    (rest : List Char) :
    ∃ first others, splitOn separator rest = first :: others ∧
      splitOn separator (front ++ rest) = (front ++ first) :: others := by
  induction front with
  | nil =>
      cases pieces : splitOn separator rest with
      | nil => exact absurd pieces (splitOn_ne_nil separator rest)
      | cons first others => exact ⟨first, others, rfl, pieces⟩
  | cons c front inductionHypothesis =>
      rw [List.mem_cons, not_or] at none
      rcases inductionHypothesis none.2 with ⟨first, others, pieces, behind⟩
      refine ⟨first, others, pieces, ?_⟩
      rw [List.cons_append, splitOn, if_neg (Ne.symm none.1), behind]
      rfl

theorem not_isBlank_head?_dropWhile {text : List Char} {c : Char}
    (first : c ∈ (text.dropWhile isBlank).head?) : isBlank c = false := by
  have stopped := List.head?_dropWhile_not isBlank text
  rw [Option.mem_def.mp first] at stopped
  exact stopped

theorem head?_trim (text : List Char) : (trim text).head? = (trimStart text).head? := by
  rw [trim, trimEnd]
  cases start : trimStart text with
  | nil => rfl
  | cons c rest =>
      have first : c ∈ (text.dropWhile isBlank).head? := by
        rw [← trimStart, start]
        rfl
      have kept := not_isBlank_head?_dropWhile first
      rw [List.reverse_cons, List.dropWhile_append]
      split
      next => simp [kept]
      next => simp

end YamlTypes.Text
