import Mathlib.Data.List.Basic
import YamlTypes.Proofs.Discovery.Found
import YamlTypes.Proofs.Workspace.Frame

/-!
What a search does not see.

A search that has reached its directory reaches it again where more files are
there. It looks for names of YAML files only, so it finds nothing new where a
file of another name has been written.
-/

set_option autoImplicit false

namespace YamlTypes.Discovery

variable {w later : Workspace} {directory path at_ next reached : Path}

structure Grows (w later : Workspace) : Prop where
  sameDirectories : w.SameDirectories later
  kept : ∀ location, (w.tree.get? location).isSome = true →
    (later.tree.get? location).isSome = true

namespace Grows

theorem entry? (grows : Grows w later) (found : (w.entry? path).isSome = true) :
    (later.entry? path).isSome = true := by
  unfold Workspace.entry? at found ⊢
  cases located : w.locate path with
  | error fault =>
      rw [located] at found
      cases found
  | ok location =>
      rw [located] at found
      rw [grows.sameDirectories.locate located]
      exact grows.kept location found

theorem advance? (grows : Grows w later) {segment : String}
    (advanced : Discovery.advance? w at_ segment = some next) :
    Discovery.advance? later at_ segment = some next := by
  unfold Discovery.advance? at advanced ⊢
  dsimp only at advanced ⊢
  rw [grows.sameDirectories.isDirectory]
  by_cases wildcard : hasWildcard segment = true
  · rw [if_pos wildcard] at advanced ⊢
    split at advanced
    next found => rw [if_pos ⟨found.1, found.2.1, grows.entry? found.2.2⟩, advanced]
    next => cases advanced
  · rw [if_neg wildcard] at advanced ⊢
    by_cases points : segment = "." ∨ segment = ".."
    · rw [if_pos points] at advanced ⊢
      exact advanced
    · rw [if_neg points] at advanced ⊢
      split at advanced
      next found => rw [if_pos (grows.entry? found), advanced]
      next => cases advanced

theorem foldlM (grows : Grows w later) {segments : List String}
    (advanced : segments.foldlM (Discovery.advance? w) at_ = some reached) :
    segments.foldlM (Discovery.advance? later) at_ = some reached := by
  induction segments generalizing at_ with
  | nil =>
      rw [List.foldlM_nil] at advanced ⊢
      exact advanced
  | cons segment rest inductionHypothesis =>
      rw [List.foldlM_cons] at advanced ⊢
      cases one : Discovery.advance? w at_ segment with
      | none =>
          rw [one] at advanced
          cases advanced
      | some next =>
          rw [one, Option.bind_eq_bind, Option.bind_some] at advanced
          rw [grows.advance? one, Option.bind_eq_bind, Option.bind_some]
          exact inductionHypothesis advanced

theorem reach? (grows : Grows w later) (found : Discovery.reach? w directory = some reached) :
    Discovery.reach? later directory = some reached :=
  grows.foldlM found

end Grows

/-- A search that finds something finds the same where no name of a YAML file is new. -/
theorem find_congr (grows : Grows w later)
    (listed : ∀ location, yamlFilesBelow later location = yamlFilesBelow w location)
    (files : ∀ path : Path, isYamlName path.text = true → later.isFile path = w.isFile path)
    {patterns : List Pattern} (found : find w directory patterns ≠ []) :
    find later directory patterns = find w directory patterns := by
  unfold find at found ⊢
  dsimp only at found ⊢
  generalize (if directory.text = "" then (⟨"."⟩ : Path) else directory) = start at found ⊢
  cases arrived : reach? w start with
  | none =>
      rw [arrived] at found
      exact absurd rfl found
  | some reached =>
      rw [arrived] at found
      rw [grows.reach? arrived]
      cases located : w.locate reached with
      | error fault =>
          simp only [located] at found
          exact absurd rfl found
      | ok location =>
          simp only [located, grows.sameDirectories.locate located, listed]
          congr 2
          apply List.filterMap_congr
          intro names below
          rcases exists_last_of_mem_yamlFilesBelow below with ⟨front, last, rfl, yaml⟩
          rcases exists_text_foldl reached front last with ⟨outer, ends⟩
          have named : isYamlName ((front ++ [last]).foldl child reached).text = true := by
            rw [ends]
            exact isYamlName_append yaml outer
          rw [files _ named]

theorem yamlFilesBelow_set {place : Location} (notYaml : place.getLast?.any isYamlName = false)
    (bytes : List UInt8) (location : Location) :
    yamlFilesBelow { w with tree := w.tree.set place (.file bytes) } location =
      yamlFilesBelow w location := by
  unfold yamlFilesBelow Workspace.below
  rw [List.filterMap_filterMap, List.filterMap_filterMap]
  apply FileTree.filterMap_setEntry
  intro entry
  dsimp only
  by_cases below : location.isPrefixOf place ∧ place ≠ location
  · rw [if_pos below, Option.bind_some]
    cases entry with
    | directory => rfl
    | file content =>
        rcases List.isPrefixOf_iff_prefix.mp below.1 with ⟨rest, rfl⟩
        rcases List.eq_nil_or_concat' rest with rfl | ⟨front, last, rfl⟩
        · exact absurd (List.append_nil location) below.2
        · rw [← List.append_assoc, List.getLast?_concat] at notYaml
          rw [List.drop_left]
          simp only [List.getLast?_concat, notYaml, Bool.not_false, Bool.or_true, if_true]
  · rw [if_neg below, Option.bind_none]

end YamlTypes.Discovery
