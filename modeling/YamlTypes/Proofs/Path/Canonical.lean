import Mathlib.Logic.Relation
import YamlTypes.Proofs.Path.Steps

/-!
Canonical paths and spellings of one path.

A canonical path is absolute and spells out ordinary names only, so it is its own
normal form, from wherever it is seen. An operand may be respelled between its
components: by a point, by more slashes, or by a detour into a directory and out of
it again. All its spellings lead to the same canonical path.
-/

set_option autoImplicit false

namespace YamlTypes.Path

/-- An absolute path of ordinary names, with one slash in front of each and none behind. -/
structure Canonical (path : Path) : Prop where
  spelled : path.text = "/" ++ String.intercalate "/" path.names
  components : path.components = .root :: path.names.map .name
  ordinary : ∀ name ∈ path.names, Ordinary name

/-- A text ends between two components of a path: behind a slash, or where a relative path
begins. -/
def Boundary (front rest : List Char) : Prop :=
  front.getLast? = some '/' ∨ front = [] ∧ rest.head? ≠ some '/'

/-- One change to the spelling of an operand, in a place between its components. -/
inductive Respelled : List Char → List Char → Prop
  | point {front rest : List Char} : Boundary front rest →
      Respelled (front ++ rest) (front ++ ['.', '/'] ++ rest)
  | slash {front rest : List Char} : front.getLast? = some '/' →
      Respelled (front ++ rest) (front ++ ['/'] ++ rest)
  | trailing {text : List Char} : text ≠ [] → Respelled text (text ++ ['/'])
  | detour {front rest : List Char} {name : String} : Boundary front rest → Ordinary name →
      Respelled (front ++ rest) (front ++ (name.toList ++ ['/', '.', '.', '/']) ++ rest)

theorem resolveComponents_filter (names : List String) (components : List Component) :
    resolveComponents names (components.filter (· ≠ .here)) =
      resolveComponents names components := by
  induction components generalizing names with
  | nil => rfl
  | cons c rest inductionHypothesis =>
      cases c with
      | here => exact inductionHypothesis names
      | root => exact inductionHypothesis []
      | parent => exact inductionHypothesis (names.drop 1)
      | name s => exact inductionHypothesis (s :: names)

/-- The root does not depend on what came before it. -/
theorem resolveComponents_root (names : List String) (before rest : List Component) :
    resolveComponents names (before ++ .root :: rest) = resolveComponents [] rest := by
  rw [resolveComponents_append, resolveComponents]

theorem names_eq (path : Path) : path.names = (resolveComponents [] path.steps).reverse := by
  rw [names, steps, resolveComponents_filter]

theorem components_of_isAbsolute {path : Path} (absolute : path.isAbsolute = true) :
    path.components = path.steps := by
  symm
  apply steps_eq_components
  rw [here_mem_components_iff]
  rcases isAbsolute_iff.mp absolute with ⟨rest, begins⟩
  rw [begins, Text.splitOn, if_pos rfl, List.head?_cons]
  exact fun same => List.cons_ne_nil _ _ (Option.some.inj same).symm

section
variable {names : List String}

theorem steps_ofNames (ordinary : ∀ name ∈ names, Ordinary name) :
    (ofNames true names).steps = .root :: names.map .name := by
  have text : (ofNames true names).text.toList =
      [] ++ '/' :: (String.intercalate "/" names).toList := by
    rw [ofNames, if_pos rfl, String.toList_append]
    rfl
  rw [steps_eq, if_pos (ofNames_isAbsolute names), text, textSteps_append,
    textSteps_intercalate ordinary]
  rfl

theorem names_ofNames (ordinary : ∀ name ∈ names, Ordinary name) :
    (ofNames true names).names = names := by
  rw [names_eq, steps_ofNames ordinary, resolveComponents, resolveComponents_names,
    List.append_nil, List.reverse_reverse]

theorem canonical_ofNames (ordinary : ∀ name ∈ names, Ordinary name) :
    Canonical (ofNames true names) := by
  have itself := names_ofNames ordinary
  constructor
  · rw [itself]
    rfl
  · rw [itself, components_of_isAbsolute (ofNames_isAbsolute names), steps_ofNames ordinary]
  · rwa [itself]

end

theorem canonical_normalize {path : Path} (absolute : path.isAbsolute = true) :
    Canonical path.normalize := by
  rw [normalize_of_isAbsolute absolute]
  exact canonical_ofNames fun _ member => .of_mem_names member

namespace Canonical

variable {path : Path}

theorem eq_ofNames (canonical : Canonical path) : path = ofNames true path.names := by
  have text : path.text = (ofNames true path.names).text := canonical.spelled
  exact Path.mk.injEq _ _ ▸ text

theorem isAbsolute (canonical : Canonical path) : path.isAbsolute = true := by
  rw [canonical.eq_ofNames]
  exact ofNames_isAbsolute _

theorem normalize (canonical : Canonical path) : path.normalize = path := by
  rw [normalize_of_isAbsolute canonical.isAbsolute, ← canonical.eq_ofNames]

end Canonical

theorem steps_ofList (text : List Char) :
    (⟨String.ofList text⟩ : Path).steps =
      (if text.head? = some '/' then [.root] else []) ++ textSteps text := by
  rw [steps_eq, isAbsolute, String.toList_ofList]
  simp only [beq_iff_eq]

/-- What is put in at a boundary, up to a slash, adds its own components. -/
theorem steps_insert {front rest body : List Char} (boundary : Boundary front rest)
    (nonempty : body ≠ []) (relative : body.head? ≠ some '/') :
    ∃ before, (⟨String.ofList (front ++ rest)⟩ : Path).steps = before ++ textSteps rest ∧
      (⟨String.ofList (front ++ (body ++ ['/']) ++ rest)⟩ : Path).steps =
        before ++ textSteps body ++ textSteps rest := by
  rcases boundary with slash | ⟨rfl, begins⟩
  · rcases List.getLast?_eq_some_iff.mp slash with ⟨outer, rfl⟩
    refine ⟨(if (outer ++ ['/']).head? = some '/' then [.root] else []) ++ textSteps outer, ?_, ?_⟩
    · rw [steps_ofList, List.append_assoc outer, List.singleton_append, textSteps_append,
        ← List.append_assoc]
      cases outer <;> rfl
    · have whole : outer ++ ['/'] ++ (body ++ ['/']) ++ rest =
          outer ++ '/' :: (body ++ '/' :: rest) := by
        simp only [List.append_assoc, List.cons_append, List.nil_append]
      rw [steps_ofList, whole, textSteps_append, textSteps_append]
      simp only [← List.append_assoc]
      cases outer <;> rfl
  · refine ⟨[], ?_, ?_⟩
    · rw [steps_ofList, List.nil_append, if_neg begins]
    · have whole : [] ++ (body ++ ['/']) ++ rest = body ++ '/' :: rest := by
        rw [List.nil_append, List.append_assoc, List.singleton_append]
      have first : (body ++ '/' :: rest).head? ≠ some '/' := by
        rwa [List.head?_append_of_ne_nil _ nonempty]
      rw [steps_ofList, whole, if_neg first, textSteps_append, List.nil_append, List.nil_append]

/-- A respelled operand leads the same way from everywhere. -/
theorem Respelled.resolveComponents {first second : List Char} (respelled : Respelled first second)
    (names : List String) :
    resolveComponents names (⟨String.ofList second⟩ : Path).steps =
      resolveComponents names (⟨String.ofList first⟩ : Path).steps := by
  cases respelled with
  | @point front rest boundary =>
      rcases steps_insert boundary (List.cons_ne_nil '.' []) (by decide) with
        ⟨before, plain, pointed⟩
      rw [List.singleton_append] at pointed
      rw [plain, pointed]
      have nothing : textSteps ['.'] = [] := rfl
      rw [nothing, List.append_nil]
  | @slash front rest ends =>
      rcases List.getLast?_eq_some_iff.mp ends with ⟨outer, rfl⟩
      have plain : outer ++ ['/'] ++ rest = outer ++ '/' :: rest := by simp
      have doubled :
          outer ++ ['/'] ++ ['/'] ++ rest = outer ++ '/' :: ([] ++ '/' :: rest) := by simp
      rw [plain, doubled, steps_ofList, steps_ofList, textSteps_append, textSteps_append,
        textSteps_append, textSteps_nil, List.nil_append]
      cases outer <;> rfl
  | trailing nonempty =>
      have only : ∀ c ∈ ['/'], c = '/' := fun c member => List.mem_singleton.mp member
      rw [steps_ofList, steps_ofList, textSteps_append_slashes only,
        List.head?_append_of_ne_nil _ nonempty]
  | @detour front rest name boundary ordinary =>
      have nonempty : name.toList ++ ['/', '.', '.'] ≠ [] := by simp
      have relative : (name.toList ++ ['/', '.', '.']).head? ≠ some '/' := by
        rw [List.head?_append_of_ne_nil _ (by simpa using ordinary.nonempty)]
        intro slash
        exact ordinary.noSlash (List.mem_of_mem_head? slash)
      rcases steps_insert boundary nonempty relative with ⟨before, plain, around⟩
      have whole :
          name.toList ++ ['/', '.', '.'] ++ ['/'] = name.toList ++ ['/', '.', '.', '/'] := by
        simp
      -- The name is taken back at once.
      have back : textSteps (name.toList ++ ['/', '.', '.']) = [.name name, .parent] := by
        rw [textSteps_append, textSteps_segment ordinary.noSlash, ordinary.component?]
        rfl
      rw [whole] at around
      rw [around, plain, back, List.append_assoc, resolveComponents_append,
        resolveComponents_append names before]
      rfl

end YamlTypes.Path
