import YamlTypes.Discovery
import YamlTypes.Generation
import YamlTypes.Proofs.Path.Steps

/-!
The places that paths lead to.

If a path can be followed at all, its components alone tell where it leads. The
declaration of a YAML file has its place beside the file, under a name that is no
name of a YAML file. Two declarations have the same place only if their sources
have.
-/

set_option autoImplicit false

namespace YamlTypes

namespace Path

theorem component?_of_length {segment : List Char} (long : 2 < segment.length) (first : Bool) :
    component? first segment = some (.name (String.ofList segment)) := by
  have other : ∀ short : List Char, short.length ≤ 2 → segment ≠ short := by
    rintro short bounded rfl
    exact absurd long (Nat.not_lt.mpr bounded)
  rw [component?, if_neg (other [] (by decide)), if_neg (other ['.'] (by decide)),
    if_neg (other ['.', '.'] (by decide))]

/-- What follows a text without a slash belongs to the last component. -/
theorem exists_steps_of_append (text : List Char) :
    ∃ (before : List Component) (last : List Char), '/' ∉ last ∧ ∀ tail, '/' ∉ tail →
      ∀ path : Path, path.text.toList = text ++ tail →
        path.steps = before ++ (component? false (last ++ tail)).toList := by
  have alike : ∀ tail, '/' ∉ tail → ∀ path : Path, path.text.toList = text ++ tail →
      path.isAbsolute = (text.head? == some '/') := by
    intro tail noSlash path whole
    rw [isAbsolute, whole]
    cases text with
    | nil =>
        cases tail with
        | nil => rfl
        | cons c rest =>
            rw [List.mem_cons, not_or] at noSlash
            simpa using Ne.symm noSlash.1
    | cons c rest => rfl
  by_cases slash : '/' ∈ text.reverse
  · rcases List.eq_append_cons_of_mem slash with ⟨last, front, split, noSlash⟩
    have parts : text = front.reverse ++ '/' :: last.reverse := by
      rw [← List.reverse_reverse text, split, List.reverse_append, List.reverse_cons,
        List.append_assoc, List.singleton_append]
    refine ⟨(if text.head? == some '/' then [.root] else []) ++ textSteps front.reverse,
      last.reverse, by rwa [List.mem_reverse], ?_⟩
    intro tail tailBare path whole
    have bare : '/' ∉ last.reverse ++ tail := by
      rw [List.mem_append, List.mem_reverse, not_or]
      exact ⟨noSlash, tailBare⟩
    rw [steps_eq, alike tail tailBare path whole, whole, List.append_assoc,
      ← textSteps_segment bare, ← textSteps_append]
    rw [parts, List.append_assoc, List.cons_append]
  · rw [List.mem_reverse] at slash
    refine ⟨[], text, slash, ?_⟩
    intro tail tailBare path whole
    have bare : '/' ∉ text ++ tail := by
      rw [List.mem_append, not_or]
      exact ⟨slash, tailBare⟩
    have relative : ¬(text.head? == some '/') = true := by
      intro begins
      exact slash (List.mem_of_mem_head? (beq_iff_eq.mp begins))
    rw [steps_eq, alike tail tailBare path whole, if_neg relative, whole, textSteps_segment bare]

end Path

open YamlTypes.Path

namespace Workspace

variable {w : Workspace} {path : Path} {location : Location}

/-- Where the components of a path lead to if nothing stands in the way. -/
def place (w : Workspace) (path : Path) : Location :=
  (resolveComponents w.directory.reverse path.steps).reverse

theorem place_of_steps {steps : List Component} {names : List String}
    (split : path.steps = steps ++ names.map .name) :
    w.place path = (resolveComponents w.directory.reverse steps).reverse ++ names := by
  rw [place, split, resolveComponents_append, resolveComponents_names, List.reverse_append,
    List.reverse_reverse]

theorem step_eq_ok {tree : FileTree} {here there : Location} {segment : String}
    (stepped : tree.step here segment = .ok there) :
    there.reverse =
      resolveComponents here.reverse (component? false segment.toList).toList := by
  unfold FileTree.step at stepped
  split at stepped
  next => cases stepped
  next => cases stepped
  next =>
    split at stepped
    next nowhere =>
      cases stepped
      rcases nowhere with rfl | rfl <;> rfl
    next somewhere =>
      rw [not_or] at somewhere
      split at stepped
      next up =>
        cases stepped
        subst up
        rw [← List.tail_reverse, ← List.drop_one]
        rfl
      next down =>
        rw [component?_of_ne somewhere.1 somewhere.2 down]
        split at stepped
        next => cases stepped
        next =>
          cases stepped
          rw [List.reverse_append]
          rfl

theorem walk_eq_ok {tree : FileTree} {here there : Location} {segments : List String}
    (walked : tree.walk here segments = .ok there) :
    there.reverse = resolveComponents here.reverse
      (segments.filterMap fun segment => component? false segment.toList) := by
  induction segments generalizing here with
  | nil =>
      obtain rfl : here = there := Except.ok.inj walked
      rfl
  | cons segment rest inductionHypothesis =>
      unfold FileTree.walk at walked
      cases stepped : tree.step here segment with
      | error fault =>
          rw [stepped] at walked
          cases walked
      | ok middle =>
          rw [stepped] at walked
          rw [inductionHypothesis walked, step_eq_ok stepped, ← resolveComponents_append,
            List.filterMap_cons]
          cases component? false segment.toList <;> rfl

theorem locate_eq_place (located : w.locate path = .ok location) : location = w.place path := by
  unfold locate at located
  split at located
  next => cases located
  next =>
    have parts : (FileTree.segments path).filterMap (fun s => component? false s.toList) =
        textSteps path.text.toList := by
      rw [FileTree.segments, List.filterMap_map, textSteps]
      apply congrArg (List.filterMap · _)
      funext segment
      rw [Function.comp_apply, String.toList_ofList]
    have walked := walk_eq_ok located
    rw [parts] at walked
    rw [place, ← List.reverse_eq_iff, walked, steps_eq, origin]
    by_cases absolute : path.isAbsolute = true
    · rw [if_pos absolute, if_pos absolute]
      rfl
    · rw [if_neg absolute, if_neg absolute, List.nil_append]

end Workspace

namespace Declaration

open Discovery (isYamlName endsIn)

def beside (source : Path) : Path := ⟨pathText source.text⟩

theorem isYamlName_append_suffix (name : String) : isYamlName (name ++ suffix) = false := by
  have other : ∀ ending : String, ending.toList.getLast? = some 'l' →
      endsIn ending (name ++ suffix) = false := by
    intro ending last
    rw [endsIn, Bool.eq_false_iff, ne_eq, List.isSuffixOf_iff_suffix, String.toList_append]
    rintro ⟨front, whole⟩
    have ends := congrArg List.getLast? whole
    have lastOfSuffix : suffix.toList.getLast? = some 's' := by decide
    rw [List.getLast?_append, last, List.getLast?_append, lastOfSuffix] at ends
    exact absurd (Option.some.inj ends) (by decide)
  rw [isYamlName, other ".yaml" rfl, other ".yml" rfl, Bool.or_false]

/-- A declaration stands beside its source and has the name of it with an ending. -/
theorem exists_steps_beside {source : Path} (yaml : isYamlName source.text = true) :
    ∃ (before : List Component) (name : String), isYamlName name = true ∧
      source.steps = before ++ [.name name] ∧
        (beside source).steps = before ++ [.name (name ++ suffix)] := by
  have ends : ∃ ending : String, 2 < ending.toList.length ∧ '/' ∉ ending.toList ∧
      (∀ name, endsIn ending name = true → isYamlName name = true) ∧
        ending.toList <:+ source.text.toList := by
    unfold isYamlName endsIn at yaml
    rw [Bool.or_eq_true, List.isSuffixOf_iff_suffix, List.isSuffixOf_iff_suffix] at yaml
    rcases yaml with long | short
    · exact ⟨".yaml", by decide, by decide, fun name found => by rw [isYamlName, found]; rfl, long⟩
    · refine ⟨".yml", by decide, by decide, fun name found => ?_, short⟩
      rw [isYamlName, found, Bool.or_true]
  rcases ends with ⟨ending, long, noSlash, yamlEnding, front, whole⟩
  rcases exists_steps_of_append front with ⟨before, last, -, steps⟩
  refine ⟨before, String.ofList (last ++ ending.toList), ?_, ?_, ?_⟩
  · apply yamlEnding
    rw [endsIn, List.isSuffixOf_iff_suffix, String.toList_ofList]
    exact List.suffix_append _ _
  · rw [steps _ noSlash source whole.symm, component?_of_length]
    · rfl
    · rw [List.length_append]
      omega
  · have bare : '/' ∉ ending.toList ++ suffix.toList := by
      rw [List.mem_append, not_or]
      exact ⟨noSlash, by decide⟩
    have text : (beside source).text.toList = front ++ (ending.toList ++ suffix.toList) := by
      rw [beside, pathText, String.toList_append, ← whole, List.append_assoc]
    rw [steps _ bare _ text, component?_of_length]
    · rw [← List.append_assoc, String.ofList_append, String.ofList_toList]
      rfl
    · rw [List.length_append, List.length_append]
      omega

variable {w : Workspace} {source other : Path}

theorem exists_place_beside (yaml : isYamlName source.text = true) (w : Workspace) :
    ∃ (parent : Location) (name : String), isYamlName name = true ∧
      w.place source = parent ++ [name] ∧ w.place (beside source) = parent ++ [name ++ suffix] := by
  rcases exists_steps_beside yaml with ⟨before, name, isYaml, steps, stepsBeside⟩
  exact ⟨_, name, isYaml, Workspace.place_of_steps steps, Workspace.place_of_steps stepsBeside⟩

theorem isYamlName_place (yaml : isYamlName source.text = true) :
    (w.place source).getLast?.any isYamlName = true := by
  rcases exists_place_beside yaml w with ⟨parent, name, isYaml, there, -⟩
  rw [there, List.getLast?_concat, Option.any_some, isYaml]

theorem isYamlName_place_beside (yaml : isYamlName source.text = true) :
    (w.place (beside source)).getLast?.any isYamlName = false := by
  rcases exists_place_beside yaml w with ⟨parent, name, -, -, there⟩
  rw [there, List.getLast?_concat, Option.any_some, isYamlName_append_suffix]

theorem place_eq_of_place_beside (yaml : isYamlName source.text = true)
    (otherYaml : isYamlName other.text = true)
    (same : w.place (beside source) = w.place (beside other)) :
    w.place source = w.place other := by
  rcases exists_place_beside yaml w with ⟨parent, name, -, there, besideThere⟩
  rcases exists_place_beside otherYaml w with ⟨otherParent, otherName, -, elsewhere, besideElse⟩
  rw [besideThere, besideElse] at same
  rcases List.append_inj' same rfl with ⟨parents, names⟩
  obtain rfl : name = otherName := (String.append_left_inj suffix).mp (List.cons.inj names).1
  rw [there, elsewhere, parents]

end Declaration

end YamlTypes
