import YamlTypes.Proofs.Discovery.Order
import YamlTypes.Proofs.Workspace.Place

/-!
The places of found files.

All files that are found below a directory are found under the same base: the
directory, or the directory twice if it is spelled with a point at its start. So
the place of a found file tells the names that lead to it, and no two found files
have the same place.
-/

set_option autoImplicit false

namespace YamlTypes

open YamlTypes.Path

namespace Discovery

variable {w : Workspace} {directory path at_ reached : Path} {names : List String}
  {patterns : List Pattern}

/-- A point at the start is all of the path. -/
def Plain (path : Path) : Prop := .here ∈ path.components → isHere path = true

theorem here_mem_child (plain : Plain at_) (given : at_.text ≠ "") {segment : String}
    (noSlash : '/' ∉ segment.toList) (point : .here ∈ (child at_ segment).components) :
    child at_ segment = ⟨"."⟩ ∧ segment = "." := by
  unfold child at point ⊢
  by_cases here : isHere at_ = true
  · rw [if_pos here] at point ⊢
    rw [here_mem_segment_iff noSlash] at point
    exact ⟨congrArg Path.mk point, point⟩
  · rw [if_neg here] at point
    rw [here_mem_join_iff given (isAbsolute_segment noSlash)] at point
    exact absurd (plain point) here

theorem Plain.child (plain : Plain at_) (given : at_.text ≠ "") {segment : String}
    (noSlash : '/' ∉ segment.toList) : Plain (child at_ segment) := by
  intro point
  rw [(here_mem_child plain given noSlash point).1]
  decide

theorem plain_of_foldlM {segments : List String} (noSlash : ∀ s ∈ segments, '/' ∉ s.toList)
    (plain : Plain at_) (given : at_.text ≠ "")
    (advanced : segments.foldlM (advance? w) at_ = some reached) : Plain reached := by
  induction segments generalizing at_ with
  | nil =>
      obtain rfl : at_ = reached := Option.some.inj advanced
      exact plain
  | cons segment rest inductionHypothesis =>
      rw [List.foldlM_cons, Option.bind_eq_bind, Option.bind_eq_some_iff] at advanced
      rcases advanced with ⟨next, one, advanced⟩
      rcases of_advance? one with ⟨rfl, nonempty⟩
      apply inductionHypothesis _ _ nonempty advanced
      · intro s member
        exact noSlash s (List.mem_cons_of_mem _ member)
      · exact plain.child given (noSlash segment List.mem_cons_self)

theorem plain_of_reach? (found : reach? w directory = some reached) : Plain reached := by
  unfold reach? at found
  apply plain_of_foldlM (directorySegments_noSlash directory) _ _ found
  · split <;> intro point <;> revert point <;> decide
  · split <;> decide

theorem plain_of_foldl (ordinary : ∀ name ∈ names, Ordinary name) (plain : Plain at_)
    (given : at_.text ≠ "") : Plain (names.foldl Discovery.child at_) := by
  induction names generalizing at_ with
  | nil => exact plain
  | cons name rest inductionHypothesis =>
      have first := ordinary name List.mem_cons_self
      have alone : ∀ n ∈ [name], Ordinary n := by
        intro n member
        rwa [List.mem_singleton.mp member]
      apply inductionHypothesis _ (plain.child given first.noSlash)
      · exact (steps_of_foldl alone given).1
      · intro n member
        exact ordinary n (List.mem_cons_of_mem _ member)

/-- Below a directory no point is left at the start of a path. -/
theorem here_notMem_foldl (nonempty : names ≠ []) (ordinary : ∀ name ∈ names, Ordinary name)
    (plain : Plain at_) (given : at_.text ≠ "") :
    .here ∉ (names.foldl Discovery.child at_).components := by
  rcases List.eq_nil_or_concat' names with rfl | ⟨front, last, rfl⟩
  · exact absurd rfl nonempty
  · have before : ∀ name ∈ front, Ordinary name :=
      fun name member => ordinary name (List.mem_append_left _ member)
    have name := ordinary last (List.mem_append_right _ List.mem_cons_self)
    rw [List.foldl_append]
    intro point
    exact name.notHere (here_mem_child (plain_of_foldl before plain given)
      (steps_of_foldl before given).1 name.noSlash point).2

theorem after?_append (start rest : List Component) : after? start (start ++ rest) = some rest := by
  induction start with
  | nil => rfl
  | cons c start inductionHypothesis =>
      rw [List.cons_append, after?, if_pos rfl, inductionHypothesis]

/-- A path is its own below a directory with a point at the start, and otherwise the names that
lead there. -/
theorem relativeTo_of_plain (steps : path.steps = directory.steps ++ names.map .name)
    (plain : .here ∉ path.components) :
    relativeTo directory path =
      if .here ∈ directory.components then path else ofNames false names := by
  unfold relativeTo
  by_cases point : .here ∈ directory.components
  · rw [if_pos point]
    split
    next rest begins =>
      rw [eq_append_of_after? begins] at plain
      exact absurd (List.mem_append_left _ point) plain
    next => rfl
  · have named : (names.map Component.name).filter (· ≠ .here) = names.map .name := by
      rw [List.filter_eq_self]
      intro c member
      rcases List.mem_map.mp member with ⟨name, -, rfl⟩
      rfl
    rw [if_neg point, ← steps_eq_components point, ← steps_eq_components plain, steps,
      after?_append]
    simp only [resolveNames_of_steps named]

/-- Where found files stand, and the names that lead to them from there. -/
theorem exists_base (given : directory.text ≠ "") (found : reach? w directory = some reached) :
    ∃ base : List Component, ∀ names : List String, names ≠ [] →
      (∀ name ∈ names, Ordinary name) →
        (directory.join (relativeTo directory (names.foldl child reached))).steps =
          base ++ names.map .name := by
  rcases steps_of_reach? found with ⟨nonempty, reachedSteps⟩
  have steps : ∀ names : List String, (∀ name ∈ names, Ordinary name) →
      (names.foldl child reached).steps = directory.steps ++ names.map .name := by
    intro names ordinary
    rw [(steps_of_foldl ordinary nonempty).2, reachedSteps]
  by_cases point : .here ∈ directory.components
  · refine ⟨directory.steps ++ directory.steps, ?_⟩
    intro names notNil ordinary
    have plain := here_notMem_foldl notNil ordinary (plain_of_reach? found) nonempty
    have relative : (names.foldl child reached).isAbsolute = false := by
      rw [Bool.eq_false_iff, ne_eq, isAbsolute_iff_root_mem, steps names ordinary,
        List.mem_append, not_or]
      constructor
      · rw [← isAbsolute_iff_root_mem, isAbsolute_of_here_mem point]
        exact Bool.false_ne_true
      · intro member
        rcases List.mem_map.mp member with ⟨name, -, isRoot⟩
        cases isRoot
    rw [relativeTo_of_plain (steps names ordinary) plain, if_pos point,
      steps_join given relative, steps names ordinary, List.append_assoc]
  · refine ⟨directory.steps, ?_⟩
    intro names notNil ordinary
    have plain := here_notMem_foldl notNil ordinary (plain_of_reach? found) nonempty
    rcases ofNames_steps notNil ordinary with ⟨relative, named⟩
    rw [relativeTo_of_plain (steps names ordinary) plain, if_neg point,
      steps_join given relative, named]

theorem Lists.same_start {again : Path} {location there : Location} {others : List String}
    {more : List Pattern} (lists : Lists w directory patterns reached location names)
    (also : Lists w directory more again there others) : reached = again ∧ location = there := by
  obtain rfl : reached = again := Option.some.inj (lists.arrives.symm.trans also.arrives)
  exact ⟨rfl, Except.ok.inj (lists.located.symm.trans also.located)⟩

/-- The place of a found file tells the names that lead to it. -/
theorem Lists.names_eq (named : w.tree.Named) {location : Location} {others : List String}
    (lists : Lists w directory patterns reached location names)
    (also : Lists w directory patterns reached location others)
    (same : w.place ((start directory).join (relativeName directory reached names)) =
      w.place ((start directory).join (relativeName directory reached others))) :
    names = others := by
  obtain ⟨base, steps⟩ := exists_base (start_text_ne directory) lists.arrives
  have place : ∀ {names : List String}, Lists w directory patterns reached location names →
      w.place ((start directory).join (relativeName directory reached names)) =
        (resolveComponents w.directory.reverse base).reverse ++ names := by
    intro names lists
    obtain ⟨ordinary, front, last, rfl, -⟩ := names_of_mem_yamlFilesBelow named lists.below
    exact Workspace.place_of_steps (steps _ (List.concat_ne_nil _ _) ordinary)
  rw [place lists, place also] at same
  exact List.append_cancel_left same

theorem eq_of_place_eq (named : w.tree.Named) {first second : Path}
    (isFirst : first ∈ find w directory patterns) (isSecond : second ∈ find w directory patterns)
    (same : w.place first = w.place second) : first = second := by
  obtain ⟨reached, location, names, lists, rfl⟩ := exists_lists_of_mem_find isFirst
  obtain ⟨_, _, others, also, rfl⟩ := exists_lists_of_mem_find isSecond
  obtain ⟨rfl, rfl⟩ := lists.same_start also
  rw [lists.names_eq named also same]

theorem find_places (named : w.tree.Named) :
    (find w directory patterns).Pairwise fun first second => w.place first ≠ w.place second := by
  apply (find_precedes w directory patterns).imp_of_mem
  intro first second isFirst isSecond precedes same
  apply precedes.2
  rw [eq_of_place_eq named isFirst isSecond same]

end Discovery

end YamlTypes
