import Mathlib.Data.List.Basic
import YamlTypes.Proofs.Path.Names

/-!
The components of joined paths.

A point that begins a path leads nowhere, so what a path leads through are its
other components. Those of a joined path are the ones of its parts, one after
the other, whatever slashes stand between. Ordinary names between slashes are
components again.
-/

set_option autoImplicit false

namespace YamlTypes

namespace Path

/-- The components of a path without a point at its beginning. -/
def steps (path : Path) : List Component := path.components.filter (· ≠ .here)

def textSteps (text : List Char) : List Component :=
  (Text.splitOn '/' text).filterMap (component? false)

@[simp] theorem textSteps_nil : textSteps [] = [] := rfl

theorem textSteps_append (first second : List Char) :
    textSteps (first ++ '/' :: second) = textSteps first ++ textSteps second := by
  rw [textSteps, Text.splitOn_append, List.filterMap_append, textSteps, textSteps]

theorem textSteps_segment {segment : List Char} (noSlash : '/' ∉ segment) :
    textSteps segment = (component? false segment).toList := by
  rw [textSteps, Text.splitOn_of_not_mem noSlash, List.filterMap_cons, List.filterMap_nil]
  cases component? false segment <;> rfl

theorem textSteps_append_slashes {slashes : List Char} (only : ∀ c ∈ slashes, c = '/')
    (text : List Char) : textSteps (text ++ slashes) = textSteps text := by
  induction slashes generalizing text with
  | nil => rw [List.append_nil]
  | cons c rest inductionHypothesis =>
      obtain rfl := only c List.mem_cons_self
      have later := inductionHypothesis (fun c member => only c (List.mem_cons_of_mem _ member)) []
      rw [List.nil_append, textSteps_nil] at later
      rw [textSteps_append, later, List.append_nil]

/-- A text is what remains of it without the slashes at its end, and then these. -/
theorem exists_slashes (text : List Char) :
    ∃ slashes : List Char, (∀ c ∈ slashes, c = '/') ∧
      text = (text.reverse.dropWhile (· == '/')).reverse ++ slashes := by
  refine ⟨(text.reverse.takeWhile (· == '/')).reverse, ?_, ?_⟩
  · intro c member
    have satisfied := List.all_eq_true.mp List.all_takeWhile c (List.mem_reverse.mp member)
    exact beq_iff_eq.mp satisfied
  · rw [← List.reverse_append, List.takeWhile_append_dropWhile, List.reverse_reverse]

theorem textSteps_trimmed (text : List Char) :
    textSteps (text.reverse.dropWhile (· == '/')).reverse = textSteps text := by
  rcases exists_slashes text with ⟨slashes, only, parts⟩
  conv_rhs => rw [parts]
  exact (textSteps_append_slashes only _).symm

theorem component?_filter (first : Bool) (segment : List Char) :
    (component? first segment).toList.filter (· ≠ .here) = (component? false segment).toList := by
  unfold component?
  split
  next => rfl
  next =>
    split
    next => cases first <;> rfl
    next => split <;> rfl

theorem steps_eq (path : Path) :
    path.steps = (if path.isAbsolute then [.root] else []) ++ textSteps path.text.toList := by
  have kept : ∀ segments : List (List Char),
      (segments.filterMap (component? false)).filter (· ≠ .here) =
        segments.filterMap (component? false) := by
    intro segments
    refine List.filter_eq_self.mpr fun c member => ?_
    rcases List.mem_filterMap.mp member with ⟨segment, -, is⟩
    have same := component?_filter false segment
    rw [is] at same
    exact List.filter_eq_self.mp same c List.mem_cons_self
  unfold steps components textSteps
  cases split : Text.splitOn '/' path.text.toList with
  | nil => exact absurd split (Text.splitOn_ne_nil _ _)
  | cons first rest =>
      simp only [List.filter_append, kept, List.filterMap_cons]
      by_cases absolute : path.isAbsolute = true
      · rcases isAbsolute_iff.mp absolute with ⟨later, begins⟩
        rw [begins, Text.splitOn, if_pos rfl] at split
        obtain ⟨rfl, -⟩ := List.cons.inj split
        rw [if_pos absolute, if_pos absolute]
        rfl
      · rw [if_neg absolute, if_neg absolute, component?_filter, List.nil_append]
        cases component? false first <;> rfl

theorem isAbsolute_segment {segment : String} (noSlash : '/' ∉ segment.toList) :
    (⟨segment⟩ : Path).isAbsolute = false := by
  rw [Bool.eq_false_iff]
  intro absolute
  rcases isAbsolute_iff.mp absolute with ⟨rest, begins⟩
  exact noSlash (begins ▸ List.mem_cons_self)

theorem steps_segment {segment : String} (noSlash : '/' ∉ segment.toList) :
    (⟨segment⟩ : Path).steps = (component? false segment.toList).toList := by
  rw [steps_eq, isAbsolute_segment noSlash, if_neg Bool.false_ne_true, List.nil_append,
    textSteps_segment noSlash]

theorem component?_of_ne {name : String} (nonempty : name ≠ "") (notHere : name ≠ ".")
    (notParent : name ≠ "..") (first : Bool) :
    component? first name.toList = some (.name name) := by
  have other : ∀ text : String, name ≠ text → ¬name.toList = text.toList :=
    fun text different same => different (String.toList_inj.mp same)
  have chars : ¬name.toList = [] := other "" nonempty
  have noPoint : ¬name.toList = ['.'] := other "." notHere
  have noPoints : ¬name.toList = ['.', '.'] := other ".." notParent
  rw [component?, if_neg chars, if_neg noPoint, if_neg noPoints, String.ofList_toList]

theorem Ordinary.component? {name : String} (ordinary : Ordinary name) (first : Bool) :
    Path.component? first name.toList = some (.name name) :=
  component?_of_ne ordinary.nonempty ordinary.notHere ordinary.notParent first

theorem Ordinary.steps {name : String} (ordinary : Ordinary name) :
    (⟨name⟩ : Path).steps = [.name name] := by
  rw [steps_segment ordinary.noSlash, ordinary.component?, Option.toList_some]

theorem exists_text_join (base operand : Path) :
    ∃ front, (base.join operand).text = front ++ operand.text := by
  unfold join
  split
  next => exact ⟨"", by simp⟩
  next =>
    split
    next => exact ⟨"", by simp⟩
    next =>
      split
      next => exact ⟨_, rfl⟩
      next => exact ⟨_, rfl⟩

theorem isAbsolute_append {base : Path} (given : base.text ≠ "") (text : String) :
    (⟨base.text ++ text⟩ : Path).isAbsolute = base.isAbsolute := by
  unfold isAbsolute
  rw [String.toList_append]
  cases chars : base.text.toList with
  | nil => exact absurd (String.toList_eq_nil_iff.mp chars) given
  | cons c rest => rfl

theorem isAbsolute_join {base operand : Path} (given : base.text ≠ "")
    (relative : operand.isAbsolute = false) :
    (base.join operand).isAbsolute = base.isAbsolute := by
  rw [join, if_neg (by simp [relative]), if_neg given]
  split
  next => exact isAbsolute_append given _
  next =>
    rw [String.append_assoc]
    exact isAbsolute_append given _

theorem steps_join {base operand : Path} (given : base.text ≠ "")
    (relative : operand.isAbsolute = false) :
    (base.join operand).steps = base.steps ++ operand.steps := by
  have behind : textSteps (base.join operand).text.toList =
      textSteps base.text.toList ++ textSteps operand.text.toList := by
    rw [join, if_neg (by simp [relative]), if_neg given]
    split
    next slash =>
      rcases List.getLast?_eq_some_iff.mp slash with ⟨front, whole⟩
      rw [String.toList_append, whole, List.append_assoc, List.singleton_append,
        textSteps_append, textSteps_append, textSteps_nil, List.append_nil]
    next =>
      rw [String.append_assoc, String.toList_append, String.toList_append]
      exact textSteps_append _ _
  rw [steps_eq, isAbsolute_join given relative, behind, steps_eq operand, relative,
    if_neg Bool.false_ne_true, List.nil_append, steps_eq base, List.append_assoc]

theorem resolveComponents_append (names : List String) (first second : List Component) :
    resolveComponents names (first ++ second) =
      resolveComponents (resolveComponents names first) second := by
  induction first generalizing names with
  | nil => rfl
  | cons c rest inductionHypothesis =>
      cases c <;> simp only [List.cons_append, resolveComponents, inductionHypothesis]

theorem resolveComponents_names (before names : List String) :
    resolveComponents before (names.map .name) = names.reverse ++ before := by
  induction names generalizing before with
  | nil => rfl
  | cons name rest inductionHypothesis =>
      rw [List.map_cons, resolveComponents, inductionHypothesis, List.reverse_cons,
        List.append_assoc, List.singleton_append]

theorem component?_ne_here (segment : List Char) : component? false segment ≠ some .here := by
  unfold component?
  split
  next => exact nofun
  next =>
    split
    next => exact nofun
    next => split <;> exact nofun

theorem component?_ne_root (first : Bool) (segment : List Char) :
    component? first segment ≠ some .root := by
  unfold component?
  split
  next => exact nofun
  next =>
    split
    next => cases first <;> exact nofun
    next => split <;> exact nofun

theorem component?_eq_here_iff (segment : List Char) :
    component? true segment = some .here ↔ segment = ['.'] := by
  unfold component?
  by_cases empty : segment = []
  · subst empty
    exact iff_of_false nofun nofun
  · rw [if_neg empty]
    by_cases point : segment = ['.']
    · rw [if_pos point]
      exact iff_of_true rfl point
    · rw [if_neg point]
      apply iff_of_false _ point
      split <;> exact nofun

/-- A point counts where it is all of the first segment. -/
theorem here_mem_components_iff {path : Path} :
    .here ∈ path.components ↔ (Text.splitOn '/' path.text.toList).head? = some ['.'] := by
  unfold components
  cases split : Text.splitOn '/' path.text.toList with
  | nil => exact absurd split (Text.splitOn_ne_nil _ _)
  | cons first rest =>
      have later : Component.here ∉ rest.filterMap (component? false) := by
        intro member
        rcases List.mem_filterMap.mp member with ⟨segment, -, isHere⟩
        exact component?_ne_here segment isHere
      rw [List.mem_append, or_iff_left later, List.head?_cons, Option.some_inj]
      by_cases absolute : path.isAbsolute = true
      · rcases isAbsolute_iff.mp absolute with ⟨_, begins⟩
        rw [begins, Text.splitOn, if_pos rfl] at split
        obtain ⟨rfl, -⟩ := List.cons.inj split
        have noRoot : Component.here ∉ [Component.root] := by decide
        have noPoint : ([] : List Char) ≠ ['.'] := by decide
        rw [if_pos absolute]
        exact iff_of_false noRoot noPoint
      · rw [if_neg absolute, Option.mem_toList]
        exact component?_eq_here_iff first

theorem isAbsolute_of_here_mem {path : Path} (point : .here ∈ path.components) :
    path.isAbsolute = false := by
  rw [Bool.eq_false_iff]
  intro absolute
  rcases isAbsolute_iff.mp absolute with ⟨rest, begins⟩
  rw [here_mem_components_iff, begins, Text.splitOn, if_pos rfl] at point
  cases point

theorem isAbsolute_iff_root_mem {path : Path} :
    path.isAbsolute = true ↔ .root ∈ path.steps := by
  have later : Component.root ∉ textSteps path.text.toList := by
    intro member
    rcases List.mem_filterMap.mp member with ⟨segment, -, isRoot⟩
    exact component?_ne_root false segment isRoot
  rw [steps_eq, List.mem_append, or_iff_left later]
  by_cases absolute : path.isAbsolute = true
  · rw [if_pos absolute]
    exact iff_of_true absolute List.mem_cons_self
  · rw [if_neg absolute]
    exact iff_of_false absolute List.not_mem_nil

theorem steps_eq_components {path : Path} (plain : .here ∉ path.components) :
    path.steps = path.components := by
  rw [steps, List.filter_eq_self]
  intro c member
  rw [decide_eq_true_eq]
  rintro rfl
  exact plain member

theorem head?_splitOn_join {base operand : Path} (given : base.text ≠ "")
    (relative : operand.isAbsolute = false) :
    (Text.splitOn '/' (base.join operand).text.toList).head? =
      (Text.splitOn '/' base.text.toList).head? := by
  have behind : ∀ first second : List Char, (Text.splitOn '/' (first ++ '/' :: second)).head? =
      (Text.splitOn '/' first).head? := by
    intro first second
    rw [Text.splitOn_append, List.head?_append_of_ne_nil _ (Text.splitOn_ne_nil _ _)]
  rw [join, if_neg (by simp [relative]), if_neg given]
  split
  next slash =>
    rcases List.getLast?_eq_some_iff.mp slash with ⟨front, whole⟩
    rw [String.toList_append, whole, List.append_assoc, List.singleton_append, behind, behind]
  next =>
    rw [String.append_assoc, String.toList_append, String.toList_append]
    exact behind _ _

theorem here_mem_join_iff {base operand : Path} (given : base.text ≠ "")
    (relative : operand.isAbsolute = false) :
    .here ∈ (base.join operand).components ↔ .here ∈ base.components := by
  rw [here_mem_components_iff, here_mem_components_iff, head?_splitOn_join given relative]

theorem here_mem_segment_iff {segment : String} (noSlash : '/' ∉ segment.toList) :
    .here ∈ (⟨segment⟩ : Path).components ↔ segment = "." := by
  rw [here_mem_components_iff, Text.splitOn_of_not_mem noSlash, List.head?_cons, Option.some_inj]
  change segment.toList = ".".toList ↔ segment = "."
  exact String.toList_inj

theorem splitOn_intercalate {names : List String} (nonempty : names ≠ [])
    (ordinary : ∀ name ∈ names, Ordinary name) :
    Text.splitOn '/' (String.intercalate "/" names).toList = names.map String.toList := by
  have apart : ∀ part ∈ names.map String.toList, '/' ∉ part := by
    intro part member
    rcases List.mem_map.mp member with ⟨name, inNames, rfl⟩
    exact (ordinary name inNames).noSlash
  rw [String.toList_intercalate, Text.splitOn_eq]
  exact List.splitOn_intercalate '/' apart (by simpa using nonempty)

theorem textSteps_intercalate {names : List String} (ordinary : ∀ name ∈ names, Ordinary name) :
    textSteps (String.intercalate "/" names).toList = names.map .name := by
  by_cases empty : names = []
  · subst empty
    rfl
  · rw [textSteps, splitOn_intercalate empty ordinary, List.filterMap_map, ← List.filterMap_eq_map]
    apply List.filterMap_congr
    intro name inNames
    exact (ordinary name inNames).component? false

theorem ofNames_steps {names : List String} (nonempty : names ≠ [])
    (ordinary : ∀ name ∈ names, Ordinary name) :
    (ofNames false names).isAbsolute = false ∧ (ofNames false names).steps = names.map .name := by
  have text : (ofNames false names).text = String.intercalate "/" names := String.empty_append
  have relative : (ofNames false names).isAbsolute = false := by
    rw [Bool.eq_false_iff]
    intro absolute
    rcases isAbsolute_iff.mp absolute with ⟨rest, begins⟩
    have split := splitOn_intercalate nonempty ordinary
    rw [← text, begins, Text.splitOn, if_pos rfl] at split
    have empty : [] ∈ names.map String.toList := split ▸ List.mem_cons_self
    rcases List.mem_map.mp empty with ⟨name, inNames, isEmpty⟩
    exact (ordinary name inNames).nonempty (String.toList_eq_nil_iff.mp isEmpty)
  refine ⟨relative, ?_⟩
  rw [steps_eq, relative, if_neg Bool.false_ne_true, List.nil_append, text,
    textSteps_intercalate ordinary]

end Path

end YamlTypes
