import YamlTypes.Proofs.Yaml.Tree
import YamlTypes.Yaml.Decode

/-!
The names of keys.

A scalar is written as the merge key only if it is the merge key. Of all other
scalars only numbers need a look at their digits.
-/

set_option autoImplicit false

namespace YamlTypes.Yaml

namespace Number

open YamlTypes.Number (DecimalStyle signText zeros)

theorem notMem_toDigits (n : Nat) : '<' ∉ Nat.toDigits 10 n := fun member =>
  absurd (Nat.isDigit_of_mem_toDigits (by decide) (by decide) member) (by decide)

theorem notMem_toString (n : Nat) : '<' ∉ (toString n).toList := by
  change '<' ∉ (String.ofList (Nat.toDigits 10 n)).toList
  rw [String.toList_ofList]
  exact notMem_toDigits n

theorem notMem_zeros (count : Nat) : '<' ∉ (zeros count).toList := by
  rw [zeros, String.toList_ofList]
  exact fun member => absurd (List.eq_of_mem_replicate member) (by decide)

theorem notMem_layout (x : YamlTypes.Number.Decimal) : '<' ∉ (style.layout x).toList := by
  have taken : ∀ count, '<' ∉ (Nat.toDigits 10 x.digits).take count :=
    fun count member => notMem_toDigits _ (List.mem_of_mem_take member)
  have dropped : ∀ count, '<' ∉ (Nat.toDigits 10 x.digits).drop count :=
    fun count member => notMem_toDigits _ (List.mem_of_mem_drop member)
  unfold DecimalStyle.layout
  dsimp only
  split
  next =>
    simp only [String.toList_append, String.toList_ofList, List.mem_append, not_or]
    refine ⟨⟨⟨⟨taken 1, ?_⟩, by decide⟩, ?_⟩, notMem_toString _⟩
    · split
      next => decide
      next =>
        simp only [String.toList_append, String.toList_ofList, List.mem_append, not_or]
        exact ⟨by decide, dropped 1⟩
    · split
      next => decide
      next => split <;> decide
  next =>
    split
    next =>
      simp only [String.toList_append, String.toList_ofList, List.mem_append, not_or]
      exact ⟨⟨notMem_toDigits _, notMem_zeros _⟩, by decide⟩
    next =>
      split
      next =>
        simp only [String.toList_append, String.toList_ofList, List.mem_append, not_or]
        exact ⟨⟨taken _, by decide⟩, dropped _⟩
      next =>
        simp only [String.toList_append, String.toList_ofList, List.mem_append, not_or]
        exact ⟨⟨by decide, notMem_zeros _⟩, notMem_toDigits _⟩

theorem notMem_text (n : Number) : '<' ∉ n.text.toList := by
  have sign : ∀ negative, '<' ∉ (signText negative).toList := by decide
  match n with
  | .int (.ofNat m) => exact notMem_toString m
  | .int (.negSucc m) =>
      change '<' ∉ ("-" ++ toString (m + 1)).toList
      rw [String.toList_append, List.mem_append, not_or]
      exact ⟨by decide, notMem_toString _⟩
  | .float .notANumber => decide
  | .float (.infinite negative) =>
      change '<' ∉ (signText negative ++ ".inf").toList
      rw [String.toList_append, List.mem_append, not_or]
      exact ⟨sign negative, by decide⟩
  | .float (.finite negative place) =>
      rw [text, DecimalStyle.text, String.toList_append, List.mem_append, not_or]
      refine ⟨sign negative, ?_⟩
      split
      next => decide
      next => exact notMem_layout _

end Number

namespace Node

theorem eq_of_isMergeKey {key : Node} (isMerge : isMergeKey key = true) : key = .string "<<" := by
  cases key with
  | string s => rw [beq_iff_eq.mp isMerge]
  | null | bool _ | number _ | sequence _ | mapping _ | tagged _ _ => cases isMerge

theorem same_mergeKey {key merge : Node} (isMerge : isMergeKey merge = true) :
    key.same merge = isMergeKey key := by
  rw [eq_of_isMergeKey isMerge]
  cases key <;> rfl

/-- Only a merge key is written like one. -/
theorem keyName?_ne_of_isScalar {key : Node} (scalar : key.isScalar = true)
    (other : isMergeKey key = false) : key.keyName? ≠ some "<<" := by
  cases key with
  | null => decide
  | bool b => cases b <;> decide
  | number n =>
      intro same
      have angle : '<' ∈ n.text.toList := by
        rw [Option.some.inj same]
        decide
      exact n.notMem_text angle
  | string s =>
      intro same
      rw [Option.some.inj same] at other
      cases other
  | sequence _ | mapping _ | tagged _ _ => cases scalar

end Node

end YamlTypes.Yaml
