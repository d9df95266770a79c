import YamlTypes.FileTree

/-!
What writing a file does.

A file is written where its path leads, and never in the place of a directory.
So the directories on the way to any location stay what they are, and the path
leads to what has been written.
-/

set_option autoImplicit false

namespace YamlTypes

open Include (FileFault)

namespace FileTree

theorem lookup_cons_ite (l other : Location) (entry : Entry) (rest : List (Location × Entry)) :
    ((l, entry) :: rest).lookup other = if other = l then some entry else rest.lookup other := by
  rw [List.lookup_cons]
  by_cases found : other = l
  · rw [if_pos found, beq_iff_eq.mpr found]
  · rw [if_neg found, beq_eq_false_iff_ne.mpr found]

theorem lookup_setEntry (location other : Location) (entry : Entry)
    (entries : List (Location × Entry)) :
    (setEntry location entry entries).lookup other =
      if other = location then some entry else entries.lookup other := by
  induction entries with
  | nil => rw [setEntry, lookup_cons_ite, List.lookup_nil]
  | cons first rest inductionHypothesis =>
      obtain ⟨l, e⟩ := first
      unfold setEntry
      split
      next same =>
        subst same
        rw [lookup_cons_ite, lookup_cons_ite]
        split <;> rfl
      next different =>
        rw [lookup_cons_ite, lookup_cons_ite, inductionHypothesis]
        by_cases found : other = l
        · rw [if_pos found, if_pos found, if_neg (found ▸ different)]
        · rw [if_neg found, if_neg found]

theorem get?_set {tree : FileTree} {location other : Location} {entry : Entry}
    (below : location ≠ []) :
    (tree.set location entry).get? other =
      if other = location then some entry else tree.get? other := by
  unfold get? set
  by_cases root : other = []
  · rw [if_pos root, if_pos root, if_neg (root ▸ Ne.symm below)]
  · rw [if_neg root, if_neg root, lookup_setEntry]

theorem walk_append (tree : FileTree) (here : Location) (first second : List String) :
    tree.walk here (first ++ second) =
      (tree.walk here first).bind fun there => tree.walk there second := by
  induction first generalizing here with
  | nil => rfl
  | cons segment rest inductionHypothesis =>
      simp only [List.cons_append, walk]
      cases tree.step here segment with
      | error fault => rfl
      | ok there => exact inductionHypothesis there

theorem directory_of_step {tree : FileTree} {here there : Location} {segment : String}
    (stepped : tree.step here segment = .ok there) : tree.get? here = some .directory := by
  unfold step at stepped
  split at stepped
  next => cases stepped
  next => cases stepped
  next found => exact found

/-- Steps lead through directories, so what is set in the place of none does not stop them. -/
theorem step_set {tree : FileTree} {location here there : Location} {entry : Entry}
    {segment : String} (below : location ≠ []) (free : tree.get? location ≠ some .directory)
    (stepped : tree.step here segment = .ok there) :
    (tree.set location entry).step here segment = .ok there := by
  have other : here ≠ location := by
    rintro rfl
    exact free (directory_of_step stepped)
  rw [← stepped, step, step, get?_set below, if_neg other]

theorem walk_set {tree : FileTree} {location here there : Location} {entry : Entry}
    {segments : List String} (below : location ≠ [])
    (free : tree.get? location ≠ some .directory) (walked : tree.walk here segments = .ok there) :
    (tree.set location entry).walk here segments = .ok there := by
  induction segments generalizing here with
  | nil => exact walked
  | cons segment rest inductionHypothesis =>
      unfold walk at walked ⊢
      cases stepped : tree.step here segment with
      | error fault =>
          rw [stepped] at walked
          cases walked
      | ok middle =>
          rw [stepped] at walked
          rw [step_set below free stepped]
          exact inductionHypothesis walked

end FileTree

namespace Workspace

variable {w after : Workspace} {path : Path} {location : Location} {bytes : List UInt8}

theorem dropWhileEnd_eq_self {segments : List String} {unwanted : String → Bool}
    (same : ¬(segments.reverse.dropWhile unwanted).reverse.length < segments.length) :
    (segments.reverse.dropWhile unwanted).reverse = segments := by
  have suffix : segments.reverse.dropWhile unwanted <:+ segments.reverse :=
    List.dropWhile_suffix unwanted
  rw [List.length_reverse, Nat.not_lt] at same
  rw [suffix.eq_of_length_le (by rwa [List.length_reverse]), List.reverse_reverse]

theorem locate_of_writable (free : w.writable path = .ok location) :
    w.locate path = .ok location ∧ w.tree.get? location ≠ some .directory := by
  unfold writable at free
  unfold locate
  split at free
  next => cases free
  next good =>
    simp only at free
    split at free
    next => cases free
    next parent walked =>
      split at free
      next => cases free
      next there stepped =>
        split at free
        next => cases free
        next file =>
          cases free
          rw [not_or, not_or, not_or] at file
          rcases file with ⟨whole, named, -, free⟩
          refine ⟨?_, free⟩
          -- No slash stands at the end, so the last segment is the name that was looked up.
          rw [dropWhileEnd_eq_self whole] at walked named stepped
          cases last : (FileTree.segments path).getLast? with
          | none =>
              rw [last] at named
              exact absurd rfl named
          | some name =>
              rw [last, Option.getD_some] at stepped
              rcases List.getLast?_eq_some_iff.mp last with ⟨front, split⟩
              rw [split, List.dropLast_concat] at walked
              rw [split, FileTree.walk_append, walked]
              simp only [Except.bind, FileTree.walk, stepped]

theorem read_of_write (written : w.write path bytes = .ok after) :
    after.read path = .ok bytes := by
  unfold write at written
  cases free : w.writable path with
  | error fault =>
      rw [free] at written
      cases written
  | ok location =>
      rw [free] at written
      cases written
      rcases locate_of_writable free with ⟨located, file⟩
      have below : location ≠ [] := by
        rintro rfl
        exact file rfl
      have found : (Workspace.mk (w.tree.set location (.file bytes)) w.directory).locate path =
          .ok location := by
        unfold locate at located ⊢
        split at located
        next => cases located
        next => exact FileTree.walk_set below file located
      simp only [read, found, FileTree.get?_set below, if_true]

end Workspace

end YamlTypes
