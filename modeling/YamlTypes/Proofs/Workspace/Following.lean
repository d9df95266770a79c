import YamlTypes.Proofs.Path.Names
import YamlTypes.Proofs.Workspace.Writing

/-!
Following segments.

Every step leads on from a directory. An empty segment and a point lead nowhere,
so they only ask that a directory is there, and empty segments at the end ask
nothing else. A path leads where its segments do, if it can be used at all.
-/

set_option autoImplicit false

namespace YamlTypes

namespace FileTree

variable {tree : FileTree} {here there : Location} {segment : String}

theorem step_still (still : segment = "" ∨ segment = ".")
    (found : tree.get? here = some .directory) : tree.step here segment = .ok here := by
  unfold step
  rw [found]
  exact if_pos still

theorem step_bind_step (still : segment = "" ∨ segment = ".") (next : String) :
    ((tree.step here segment).bind fun there => tree.step there next) = tree.step here next := by
  cases found : tree.get? here with
  | none => simp only [step, found, Except.bind]
  | some entry =>
      cases entry with
      | file bytes => simp only [step, found, Except.bind]
      | directory => rw [step_still still found, Except.bind]

theorem step_eq_ok_iff (ordinary : Path.Ordinary segment) :
    tree.step here segment = .ok there ↔
      tree.get? here = some .directory ∧ segment.utf8ByteSize ≤ maxName ∧
        there = here ++ [segment] := by
  unfold step
  cases tree.get? here with
  | none => simp
  | some entry =>
      cases entry with
      | file bytes => simp
      | directory =>
          have named : ¬(segment = "" ∨ segment = ".") :=
            not_or.mpr ⟨ordinary.nonempty, ordinary.notHere⟩
          simp only [if_neg named, if_neg ordinary.notParent, true_and]
          by_cases long : maxName < segment.utf8ByteSize
          · rw [if_pos long]
            exact iff_of_false nofun fun parts => absurd parts.1 (Nat.not_le.mpr long)
          · rw [if_neg long, Except.ok.injEq, and_iff_right (Nat.not_lt.mp long), eq_comm]

theorem walk_singleton (tree : FileTree) (here : Location) (segment : String) :
    tree.walk here [segment] = tree.step here segment := by
  unfold walk
  cases tree.step here segment <;> rfl

theorem walk_cons (tree : FileTree) (here : Location) (segment : String) (rest : List String) :
    tree.walk here (segment :: rest) =
      (tree.step here segment).bind fun there => tree.walk there rest := by
  rw [← List.singleton_append, walk_append, walk_singleton]

theorem walk_replicate (count : Nat) (found : tree.get? here = some .directory) :
    tree.walk here (List.replicate count "") = .ok here := by
  induction count with
  | zero => rfl
  | succ count inductionHypothesis =>
      rw [List.replicate_succ, walk_cons, step_still (.inl rfl) found]
      exact inductionHypothesis

theorem eq_of_walk_replicate {count : Nat}
    (walked : tree.walk here (List.replicate count "") = .ok there) : here = there := by
  cases count with
  | zero => exact Except.ok.inj walked
  | succ count =>
      have found : tree.get? here = some .directory := by
        rw [List.replicate_succ, walk_cons] at walked
        cases stepped : tree.step here "" with
        | error fault =>
            rw [stepped] at walked
            cases walked
        | ok middle => exact directory_of_step stepped
      rw [walk_replicate _ found] at walked
      exact Except.ok.inj walked

theorem directory_of_walk {segments : List String}
    (walked : tree.walk here segments = .ok there) (found : tree.get? there = some .directory) :
    tree.get? here = some .directory := by
  cases segments with
  | nil => rwa [Except.ok.inj walked]
  | cons segment rest =>
      rw [walk_cons] at walked
      cases stepped : tree.step here segment with
      | error fault =>
          rw [stepped] at walked
          cases walked
      | ok middle => exact directory_of_step stepped

theorem badPath?_eq_none_iff {path : Path} :
    badPath? path = none ↔
      '\x00' ∉ path.text.toList ∧ path.text ≠ "" ∧ path.text.utf8ByteSize < pathLimit := by
  unfold badPath?
  by_cases nul : '\x00' ∈ path.text.toList
  · simp [nul]
  · by_cases empty : path.text = ""
    · simp [empty]
    · by_cases long : pathLimit ≤ path.text.utf8ByteSize
      · simp [nul, empty, long]
      · simp [nul, empty, Nat.lt_of_not_le long, long]

end FileTree

namespace Workspace

variable {w : Workspace} {path : Path} {location : Location}

/-- Where the segments of a path lead, whether or not the path can be used. -/
def follow (w : Workspace) (path : Path) : Except Include.FileFault Location :=
  w.tree.walk (w.origin path) (FileTree.segments path)

theorem locate_eq_ok_iff :
    w.locate path = .ok location ↔
      FileTree.badPath? path = none ∧ w.follow path = .ok location := by
  unfold locate follow
  cases FileTree.badPath? path with
  | none => simp
  | some fault => simp

theorem isFile_iff :
    w.isFile path = true ↔
      ∃ location bytes, w.locate path = .ok location ∧
        w.tree.get? location = some (.file bytes) := by
  unfold isFile entry?
  cases w.locate path with
  | error fault => simp
  | ok location =>
      cases found : w.tree.get? location with
      | none => simp [found]
      | some entry => cases entry <;> simp [found]

end Workspace

end YamlTypes
