import YamlTypes.Path
import YamlTypes.Proofs.Text.Lines

/-!
The names of normal paths.

Normalizing leaves ordinary names only: none is empty, none is a dot or two, and
none holds a slash. An absolute path stays absolute, and so does every path that
is joined to one.
-/

set_option autoImplicit false

namespace YamlTypes

namespace Path

/-- A name that an entry of a directory can have. -/
structure Ordinary (name : String) : Prop where
  nonempty : name ≠ ""
  notHere : name ≠ "."
  notParent : name ≠ ".."
  noSlash : '/' ∉ name.toList

instance (name : String) : Decidable (Ordinary name) :=
  decidable_of_iff (name ≠ "" ∧ name ≠ "." ∧ name ≠ ".." ∧ '/' ∉ name.toList)
    ⟨fun parts => ⟨parts.1, parts.2.1, parts.2.2.1, parts.2.2.2⟩,
      fun ordinary => ⟨ordinary.nonempty, ordinary.notHere, ordinary.notParent, ordinary.noSlash⟩⟩

theorem Ordinary.of_component? {first : Bool} {segment : List Char} {name : String}
    (noSlash : '/' ∉ segment) (isName : component? first segment = some (.name name)) :
    Ordinary name := by
  unfold component? at isName
  split at isName
  next => cases isName
  next nonempty =>
    split at isName
    next => cases first <;> cases isName
    next notHere =>
      split at isName
      next => cases isName
      next notParent =>
        cases isName
        refine ⟨?_, ?_, ?_, by rwa [String.toList_ofList]⟩ <;> intro same <;>
          have chars := congrArg String.toList same <;> rw [String.toList_ofList] at chars
        · exact nonempty chars
        · exact notHere chars
        · exact notParent chars

theorem Ordinary.of_mem_components {path : Path} {name : String}
    (member : .name name ∈ path.components) : Ordinary name := by
  unfold components at member
  split at member
  next => cases member
  next first rest split =>
    have apart : ∀ segment ∈ first :: rest, '/' ∉ segment := by
      intro segment part
      rw [← split] at part
      exact Text.not_mem_of_mem_splitOn part
    rcases List.mem_append.mp member with head | later
    · split at head
      next => simp at head
      next =>
        rw [Option.mem_toList] at head
        exact .of_component? (apart first List.mem_cons_self) head
    · rcases List.mem_filterMap.mp later with ⟨segment, part, isName⟩
      exact .of_component? (apart segment (List.mem_cons_of_mem _ part)) isName

/-- Nothing but names of the components, and those that were there before, comes out of them. -/
theorem mem_of_mem_resolveComponents {name : String} {names : List String}
    {components : List Component} (member : name ∈ resolveComponents names components) :
    name ∈ names ∨ .name name ∈ components := by
  induction components generalizing names with
  | nil => exact .inl member
  | cons c rest inductionHypothesis =>
      cases c with
      | root =>
          rcases inductionHypothesis member with before | later
          · cases before
          · exact .inr (List.mem_cons_of_mem _ later)
      | here =>
          exact (inductionHypothesis member).imp_right (List.mem_cons_of_mem _)
      | parent =>
          exact (inductionHypothesis member).imp List.mem_of_mem_drop (List.mem_cons_of_mem _)
      | name s =>
          rcases inductionHypothesis member with before | later
          · rcases List.mem_cons.mp before with rfl | earlier
            · exact .inr List.mem_cons_self
            · exact .inl earlier
          · exact .inr (List.mem_cons_of_mem _ later)

theorem Ordinary.of_mem_names {path : Path} {name : String} (member : name ∈ path.names) :
    Ordinary name := by
  rcases mem_of_mem_resolveComponents (List.mem_reverse.mp member) with none | component
  · cases none
  · exact .of_mem_components component

theorem isAbsolute_iff {path : Path} :
    path.isAbsolute = true ↔ ∃ rest, path.text.toList = '/' :: rest := by
  unfold isAbsolute
  cases path.text.toList with
  | nil => simp
  | cons c rest => simp only [List.head?_cons, Option.some_beq_some, beq_iff_eq, List.cons.injEq,
      exists_and_left, exists_eq', and_true]

theorem ofNames_isAbsolute (names : List String) : (ofNames true names).isAbsolute = true :=
  isAbsolute_iff.mpr ⟨(String.intercalate "/" names).toList, by
    rw [ofNames, if_pos rfl, String.toList_append]
    rfl⟩

theorem join_isAbsolute {base : Path} (absolute : base.isAbsolute = true) (operand : Path) :
    (base.join operand).isAbsolute = true := by
  rcases isAbsolute_iff.mp absolute with ⟨rest, begins⟩
  have nonempty : base.text ≠ "" := by
    intro empty
    rw [empty] at begins
    cases begins
  unfold join
  split
  next => assumption
  next =>
    split
    next => exact isAbsolute_iff.mpr ⟨_, by rw [String.toList_append, begins]; rfl⟩
    next => exact isAbsolute_iff.mpr ⟨_, by
      rw [String.toList_append, String.toList_append, begins]
      rfl⟩

theorem normalize_of_isAbsolute {path : Path} (absolute : path.isAbsolute = true) :
    path.normalize = ofNames true path.names := by
  rw [normalize, absolute]

theorem absolute?_eq_some {directory path base : Path} (absolute : directory.isAbsolute = true)
    (based : absolute? directory path = some base) : base.isAbsolute = true := by
  unfold absolute? at based
  split at based
  next => cases based
  next =>
    cases based
    rw [normalize_of_isAbsolute (join_isAbsolute absolute path)]
    exact ofNames_isAbsolute _

end Path

end YamlTypes
