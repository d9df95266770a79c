import Mathlib.Data.List.Lex
import Mathlib.Data.Prod.Lex
import Mathlib.Data.String.Basic
import YamlTypes.Proofs.Discovery.Found

/-!
The order of found files.

Component-wise order is the lexicographic order of lists, once every component has
a rank. So equal paths stand next to each other in a sorted list, and no file is
found twice.
-/

set_option autoImplicit false

namespace YamlTypes.Discovery

open YamlTypes.Path

def rank : Component → ℕ ×ₗ String
  | .root => toLex (0, "")
  | .here => toLex (1, "")
  | .parent => toLex (2, "")
  | .name s => toLex (3, s)

theorem rank_injective : Function.Injective rank := by
  intro c d same
  cases c <;> cases d <;> simp_all [rank]

theorem componentLE_iff (c d : Component) : componentLE c d = true ↔ rank c ≤ rank d := by
  cases c <;> cases d <;> simp [componentLE, rank, Prod.Lex.toLex_le_toLex]

theorem cons_le_cons_iff {α : Type} [LinearOrder α] (a b : α) (first second : List α) :
    a :: first ≤ b :: second ↔ a < b ∨ a = b ∧ first ≤ second := by
  rw [← not_lt, List.cons_lt_cons_iff, not_or, not_lt, not_and, not_lt, le_iff_lt_or_eq]
  constructor
  · rintro ⟨less | rfl, tail⟩
    · exact .inl less
    · exact .inr ⟨rfl, tail rfl⟩
  · rintro (less | ⟨rfl, tail⟩)
    · exact ⟨.inl less, fun same => absurd same less.ne'⟩
    · exact ⟨.inr rfl, fun _ => tail⟩

theorem componentsLE_iff (first second : List Component) :
    componentsLE first second = true ↔ first.map rank ≤ second.map rank := by
  induction first generalizing second with
  | nil =>
      rw [List.map_nil, ← not_lt]
      exact iff_of_true rfl (List.not_lt_nil _)
  | cons c cs inductionHypothesis =>
      cases second with
      | nil =>
          rw [List.map_nil, List.map_cons, ← not_lt]
          exact iff_of_false Bool.false_ne_true (not_not_intro (List.nil_lt_cons _ _))
      | cons d ds =>
          rw [List.map_cons, List.map_cons, cons_le_cons_iff, componentsLE]
          by_cases same : c = d
          · subst same
            rw [if_pos rfl, inductionHypothesis]
            simp only [lt_self_iff_false, false_or, true_and]
          · have different : rank c ≠ rank d := rank_injective.ne same
            rw [if_neg same, componentLE_iff, lt_iff_le_and_ne]
            simp only [different, ne_eq, not_false_eq_true, and_true, false_and, or_false]

theorem pathLE_iff (a b : Path) :
    pathLE a b = true ↔ a.components.map rank ≤ b.components.map rank :=
  componentsLE_iff _ _

theorem components_eq_of_pathLE {a b : Path} (first : pathLE a b = true)
    (second : pathLE b a = true) : a.components = b.components := by
  rw [pathLE_iff] at first second
  exact List.map_injective_iff.mpr rank_injective (le_antisymm first second)

def Precedes (a b : Path) : Prop := pathLE a b = true ∧ a.components ≠ b.components

theorem dedup_precedes {paths : List Path} (sorted : paths.Pairwise fun a b => pathLE a b = true) :
    (dedup paths).Pairwise Precedes := by
  induction paths using dedup.induct with
  | case1 a b rest same inductionHypothesis =>
      rw [dedup, if_pos same]
      apply inductionHypothesis
      exact sorted.sublist ((List.sublist_cons_self b rest).cons_cons a)
  | case2 a b rest different inductionHypothesis =>
      obtain ⟨before, sortedRest⟩ := List.pairwise_cons.mp sorted
      rw [dedup, if_neg different]
      refine List.pairwise_cons.mpr ⟨?_, inductionHypothesis sortedRest⟩
      intro path member
      have kept := mem_of_mem_dedup member
      refine ⟨before path kept, ?_⟩
      rcases List.mem_cons.mp kept with rfl | later
      · exact different
      · intro same
        -- What lies between two equal paths of a sorted list is equal to both.
        have between := (List.pairwise_cons.mp sortedRest).1 path later
        rw [pathLE, ← same] at between
        exact different (components_eq_of_pathLE (before b List.mem_cons_self) between)
  | case3 paths short =>
      cases paths with
      | nil =>
          rw [dedup]
          · exact .nil
          · exact short
      | cons path rest =>
          cases rest with
          | nil =>
              rw [dedup]
              · exact List.pairwise_singleton _ _
              · exact short
          | cons next rest => exact absurd rfl (short path next rest)

theorem find_precedes (w : Workspace) (directory : Path) (patterns : List Pattern) :
    (find w directory patterns).Pairwise Precedes := by
  unfold find
  extract_lets start
  split
  next => exact .nil
  next =>
    split
    next => exact .nil
    next =>
      apply dedup_precedes
      apply List.pairwise_mergeSort
      · intro a b c first second
        rw [pathLE_iff] at first second ⊢
        exact le_trans first second
      · intro a b
        rw [Bool.or_eq_true, pathLE_iff, pathLE_iff]
        exact le_total _ _

end YamlTypes.Discovery
