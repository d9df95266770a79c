import YamlTypes.Discovery
import YamlTypes.Proofs.Path.Steps

/-!
The names of found files.

A directory is reached under a path that leads through the same components, and
every entry below it adds its name. So a found path ends in the name of the file
that it was found for, even where it is written anew from its components.
-/

set_option autoImplicit false

namespace YamlTypes

def FileTree.Named (tree : FileTree) : Prop :=
  ∀ entry ∈ tree.entries, ∀ name ∈ entry.1, Path.Ordinary name

instance (tree : FileTree) : Decidable tree.Named :=
  inferInstanceAs (Decidable (∀ entry ∈ tree.entries, ∀ name ∈ entry.1, Path.Ordinary name))

namespace Discovery

open YamlTypes.Path

variable {w : Workspace} {directory path at_ next reached : Path} {names : List String}

theorem isYamlName_append {name : String} (yaml : isYamlName name = true) (front : String) :
    isYamlName (front ++ name) = true := by
  have ends : ∀ ending : String,
      endsIn ending name = true → endsIn ending (front ++ name) = true := by
    intro ending found
    unfold endsIn at found ⊢
    rw [List.isSuffixOf_iff_suffix] at found ⊢
    rw [String.toList_append]
    exact found.trans (List.suffix_append _ _)
  unfold isYamlName at yaml ⊢
  rw [Bool.or_eq_true] at yaml ⊢
  exact yaml.imp (ends _) (ends _)

theorem exists_text_child (at_ : Path) (segment : String) :
    ∃ front, (child at_ segment).text = front ++ segment := by
  unfold child
  split
  next => exact ⟨"", by simp⟩
  next => exact exists_text_join at_ ⟨segment⟩

theorem steps_child (given : at_.text ≠ "") {segment : String} (noSlash : '/' ∉ segment.toList) :
    (child at_ segment).steps = at_.steps ++ (component? false segment.toList).toList := by
  unfold child
  split
  next here =>
    have point : at_.components = [.here] := beq_iff_eq.mp here
    rw [steps_segment noSlash, Path.steps, point]
    rfl
  next => rw [steps_join given (isAbsolute_segment noSlash), steps_segment noSlash]

theorem text_ne_of_entry? (found : (w.entry? path).isSome = true) : path.text ≠ "" := by
  intro empty
  have bad : w.entry? path = none := by
    obtain ⟨text⟩ := path
    obtain rfl : text = "" := empty
    rfl
  rw [bad] at found
  cases found

theorem advance?_cases {segment : String} (advanced : advance? w at_ segment = some next) :
    next = child at_ segment ∧
      (segment = "." ∨ segment = ".." ∨ (w.entry? next).isSome = true) ∧
        (hasWildcard segment = true → startsWithPoint segment = false) := by
  unfold advance? at advanced
  dsimp only at advanced
  split at advanced
  next =>
    split at advanced
    next found =>
      cases advanced
      exact ⟨rfl, .inr (.inr found.2.2), fun _ => by simpa using found.2.1⟩
    next => cases advanced
  next literal =>
    split at advanced
    next points =>
      split at advanced
      next =>
        cases advanced
        exact ⟨rfl, points.imp_right .inl, fun wildcard => absurd wildcard literal⟩
      next => cases advanced
    next =>
      split at advanced
      next found =>
        cases advanced
        exact ⟨rfl, .inr (.inr found), fun wildcard => absurd wildcard literal⟩
      next => cases advanced

theorem of_advance? {segment : String} (advanced : advance? w at_ segment = some next) :
    next = child at_ segment ∧ next.text ≠ "" := by
  rcases advance?_cases advanced with ⟨rfl, points, -⟩
  refine ⟨rfl, ?_⟩
  rcases exists_text_child at_ segment with ⟨front, ends⟩
  rcases points with rfl | rfl | found
  · rw [ends, ne_eq, String.append_eq_empty_iff]
    exact fun empty => absurd empty.2 (by decide)
  · rw [ends, ne_eq, String.append_eq_empty_iff]
    exact fun empty => absurd empty.2 (by decide)
  · exact text_ne_of_entry? found

theorem steps_of_foldlM {segments : List String} (noSlash : ∀ s ∈ segments, '/' ∉ s.toList)
    (given : at_.text ≠ "") (advanced : segments.foldlM (advance? w) at_ = some reached) :
    reached.text ≠ "" ∧
      reached.steps = at_.steps ++ segments.filterMap fun s => component? false s.toList := by
  induction segments generalizing at_ with
  | nil =>
      obtain rfl : at_ = reached := Option.some.inj advanced
      exact ⟨given, (List.append_nil _).symm⟩
  | cons segment rest inductionHypothesis =>
      rw [List.foldlM_cons, Option.bind_eq_bind, Option.bind_eq_some_iff] at advanced
      rcases advanced with ⟨next, one, advanced⟩
      rcases of_advance? one with ⟨rfl, nonempty⟩
      rcases inductionHypothesis (fun s member => noSlash s (List.mem_cons_of_mem _ member))
        nonempty advanced with ⟨there, steps⟩
      refine ⟨there, ?_⟩
      rw [steps, steps_child given (noSlash segment List.mem_cons_self), List.append_assoc,
        List.filterMap_cons]
      cases component? false segment.toList <;> rfl

theorem textSteps_drop_one {text rest : List Char} (begins : text <+: '/' :: rest) :
    textSteps (text.drop 1) = textSteps text := by
  cases text with
  | nil => rfl
  | cons c later =>
      obtain rfl := (List.cons_prefix_cons.mp begins).1
      exact (textSteps_append [] later).symm

/-- The segments of a directory have its components. -/
theorem directorySegments_steps (directory : Path) :
    directory.steps = (if directory.isAbsolute then [.root] else []) ++
      (directorySegments directory).filterMap fun s => component? false s.toList := by
  have ofList : ∀ text : List Char,
      ((Text.splitOn '/' text).map String.ofList).filterMap (fun s => component? false s.toList) =
        textSteps text := by
    intro text
    rw [List.filterMap_map, textSteps]
    exact congrArg (List.filterMap · _) (funext fun segment => by
      rw [Function.comp_apply, String.toList_ofList])
  have listed : ∀ relative : List Char,
      (if relative.isEmpty then [] else (Text.splitOn '/' relative).map String.ofList).filterMap
        (fun s => component? false s.toList) = textSteps relative := by
    intro relative
    cases relative with
    | nil => rfl
    | cons c rest => exact ofList _
  rw [steps_eq, directorySegments, listed, ← textSteps_trimmed]
  split
  next absolute =>
    rcases isAbsolute_iff.mp absolute with ⟨rest, begins⟩
    have front : (directory.text.toList.reverse.dropWhile (· == '/')).reverse <+: '/' :: rest := by
      rw [← List.reverse_suffix, List.reverse_reverse, ← begins]
      exact List.dropWhile_suffix _
    rw [textSteps_drop_one front]
  next => rfl

theorem directorySegments_noSlash (directory : Path) :
    ∀ s ∈ directorySegments directory, '/' ∉ s.toList := by
  intro s member
  rw [directorySegments] at member
  generalize (if directory.isAbsolute then _ else _ : List Char) = relative at member
  split at member
  next => cases member
  next =>
    rcases List.mem_map.mp member with ⟨segment, part, rfl⟩
    rw [String.toList_ofList]
    exact Text.not_mem_of_mem_splitOn part

theorem steps_of_reach? (found : reach? w directory = some reached) :
    reached.text ≠ "" ∧ reached.steps = directory.steps := by
  have start : (if directory.isAbsolute then (⟨"/"⟩ : Path) else ⟨"."⟩).text ≠ "" := by
    split <;> decide
  rcases steps_of_foldlM (directorySegments_noSlash directory) start found with ⟨given, steps⟩
  refine ⟨given, ?_⟩
  rw [steps, directorySegments_steps directory]
  split <;> rfl

theorem steps_of_foldl (ordinary : ∀ name ∈ names, Ordinary name) (given : at_.text ≠ "") :
    (names.foldl child at_).text ≠ "" ∧
      (names.foldl child at_).steps = at_.steps ++ names.map .name := by
  induction names generalizing at_ with
  | nil => exact ⟨given, (List.append_nil _).symm⟩
  | cons name rest inductionHypothesis =>
      have first := ordinary name List.mem_cons_self
      have nonempty : (child at_ name).text ≠ "" := by
        intro empty
        rcases exists_text_child at_ name with ⟨front, ends⟩
        rw [ends, String.append_eq_empty_iff] at empty
        exact first.nonempty empty.2
      rcases inductionHypothesis (fun n member => ordinary n (List.mem_cons_of_mem _ member))
        nonempty with ⟨there, steps⟩
      refine ⟨there, ?_⟩
      rw [List.foldl_cons, steps, steps_child given first.noSlash,
        ← steps_segment first.noSlash, first.steps, List.append_assoc]
      rfl

theorem eq_append_of_after? {start whole rest : List Component}
    (begins : after? start whole = some rest) : whole = start ++ rest := by
  induction start generalizing whole with
  | nil => exact Option.some.inj begins
  | cons c start inductionHypothesis =>
      cases whole with
      | nil => cases begins
      | cons d whole =>
          unfold after? at begins
          split at begins
          next same => rw [same, inductionHypothesis begins, List.cons_append]
          next => cases begins

theorem resolveNames_of_steps {components : List Component}
    (only : components.filter (· ≠ .here) = names.map .name) :
    relativeTo.resolveNames components = names := by
  have skipped : relativeTo.resolveNames components =
      relativeTo.resolveNames (components.filter (· ≠ .here)) := by
    unfold relativeTo.resolveNames
    rw [List.filterMap_filter]
    exact congrArg (List.filterMap · _) (funext fun c => by cases c <;> rfl)
  rw [skipped, only, relativeTo.resolveNames, List.filterMap_map]
  exact List.filterMap_some

/-- A path below a directory is its own, or the names that lead to it from there. -/
theorem relativeTo_eq (steps : path.steps = directory.steps ++ names.map .name) :
    relativeTo directory path = path ∨ relativeTo directory path = ofNames false names := by
  unfold relativeTo
  split
  next rest begins =>
    refine .inr ?_
    have parts := congrArg (List.filter (· ≠ .here)) (eq_append_of_after? begins)
    rw [List.filter_append] at parts
    change path.steps = directory.steps ++ _ at parts
    rw [steps] at parts
    rw [resolveNames_of_steps (List.append_cancel_left parts).symm]
  next => exact .inl rfl

theorem exists_text_ofNames (names : List String) (last : String) :
    ∃ front, (ofNames false (names ++ [last])).text = front ++ last := by
  cases names with
  | nil => exact ⟨"", by rfl⟩
  | cons name rest =>
      refine ⟨"" ++ String.intercalate "/" (name :: rest) ++ "/", ?_⟩
      rw [ofNames,
        String.intercalate_append_of_ne_nil (List.cons_ne_nil _ _) (List.cons_ne_nil _ _)]
      rfl

theorem mem_of_mem_dedup {paths : List Path} (member : path ∈ dedup paths) : path ∈ paths := by
  induction paths using dedup.induct with
  | case1 a b rest same inductionHypothesis =>
      rw [dedup, if_pos same] at member
      rcases List.mem_cons.mp (inductionHypothesis member) with rfl | later
      · exact List.mem_cons_self
      · exact List.mem_cons_of_mem _ (List.mem_cons_of_mem _ later)
  | case2 a b rest different inductionHypothesis =>
      rw [dedup, if_neg different] at member
      rcases List.mem_cons.mp member with rfl | later
      · exact List.mem_cons_self
      · exact List.mem_cons_of_mem _ (inductionHypothesis later)
  | case3 paths short =>
      rw [dedup] at member
      · exact member
      · exact short

/-- A name on the way to the file hides it, or the file has no name of a YAML file. -/
theorem mem_yamlFilesBelow_iff {location : Location} :
    names ∈ yamlFilesBelow w location ↔
      ∃ bytes, (location ++ names, .file bytes) ∈ w.tree.entries ∧
        (∀ name ∈ names, startsWithPoint name = false) ∧ names.getLast?.any isYamlName = true := by
  have seen : ∀ found : List String,
      (found.any startsWithPoint || !(found.getLast?.any isYamlName)) = false ↔
        (∀ name ∈ found, startsWithPoint name = false) ∧
          found.getLast?.any isYamlName = true := by
    intro found
    rw [Bool.or_eq_false_iff, List.any_eq_false, Bool.not_eq_false']
    simp only [Bool.not_eq_true]
  unfold yamlFilesBelow Workspace.below
  rw [List.filterMap_filterMap, List.mem_filterMap]
  constructor
  · rintro ⟨⟨whole, entry⟩, listed, kept⟩
    dsimp only at kept
    split at kept
    next below =>
      rw [Option.bind_some] at kept
      cases entry with
      | directory => cases kept
      | file bytes =>
          dsimp only at kept
          split at kept
          next => cases kept
          next good =>
            obtain rfl := Option.some.inj kept
            rcases List.isPrefixOf_iff_prefix.mp below.1 with ⟨rest, rfl⟩
            rw [List.drop_left] at good ⊢
            exact ⟨bytes, listed, (seen rest).mp (Bool.eq_false_iff.mpr good)⟩
    next => cases kept
  · rintro ⟨bytes, listed, good⟩
    refine ⟨_, listed, ?_⟩
    have below : location.isPrefixOf (location ++ names) = true ∧ location ++ names ≠ location := by
      refine ⟨List.isPrefixOf_iff_prefix.mpr (List.prefix_append _ _), ?_⟩
      intro same
      rw [List.append_right_eq_self.mp same] at good
      cases good.2
    dsimp only
    rw [if_pos below, Option.bind_some, List.drop_left]
    dsimp only
    rw [(seen names).mpr good, if_neg Bool.false_ne_true]

theorem exists_last_of_mem_yamlFilesBelow {location : Location}
    (member : names ∈ yamlFilesBelow w location) :
    ∃ front last, names = front ++ [last] ∧ isYamlName last = true := by
  rcases mem_yamlFilesBelow_iff.mp member with ⟨bytes, -, -, yaml⟩
  rcases List.eq_nil_or_concat' names with rfl | ⟨front, last, rfl⟩
  · cases yaml
  · rw [List.getLast?_concat, Option.any_some] at yaml
    exact ⟨front, last, rfl, yaml⟩

theorem names_of_mem_yamlFilesBelow {location : Location} (named : w.tree.Named)
    (member : names ∈ yamlFilesBelow w location) :
    (∀ name ∈ names, Ordinary name) ∧
      ∃ front last, names = front ++ [last] ∧ isYamlName last = true := by
  rcases mem_yamlFilesBelow_iff.mp member with ⟨bytes, listed, -⟩
  exact ⟨fun name part => named _ listed name (List.mem_append_right _ part),
    exists_last_of_mem_yamlFilesBelow member⟩

theorem exists_text_foldl (at_ : Path) (names : List String) (last : String) :
    ∃ front, ((names ++ [last]).foldl child at_).text = front ++ last := by
  rw [List.foldl_append]
  exact exists_text_child _ last

def start (directory : Path) : Path := if directory.text = "" then ⟨"."⟩ else directory

theorem start_text_ne (directory : Path) : (start directory).text ≠ "" := by
  unfold start
  split
  next => decide
  next given => exact given

def slashed (path : Path) : String := path.text.map fun c => if c = '\\' then '/' else c

def relativeName (directory reached : Path) (names : List String) : Path :=
  relativeTo (start directory) (names.foldl child reached)

/-- A search that has reached its directory lists the file that these names lead to. -/
structure Lists (w : Workspace) (directory : Path) (patterns : List Pattern) (reached : Path)
    (location : Location) (names : List String) : Prop where
  arrives : reach? w (start directory) = some reached
  located : w.locate reached = .ok location
  below : names ∈ yamlFilesBelow w location
  isFile : w.isFile (names.foldl child reached) = true
  free : excludes patterns (slashed (relativeName directory reached names)) = false

theorem exists_lists_of_mem_find {patterns : List Pattern}
    (member : path ∈ find w directory patterns) :
    ∃ reached location names, Lists w directory patterns reached location names ∧
      path = (start directory).join (relativeName directory reached names) := by
  unfold find at member
  extract_lets directory at member
  split at member
  next => cases member
  next reached found =>
    split at member
    next => cases member
    next location located =>
      have sorted := List.mem_mergeSort.mp (mem_of_mem_dedup member)
      obtain ⟨names, below, kept⟩ := List.mem_filterMap.mp sorted
      dsimp only at kept
      split at kept
      next => cases kept
      next isFile =>
        split at kept
        next => cases kept
        next free =>
          cases kept
          exact ⟨reached, location, names, ⟨found, located, below, by simpa using isFile,
            Bool.eq_false_iff.mpr free⟩, rfl⟩

theorem Lists.exists_text {patterns : List Pattern} {location : Location} {front : List String}
    {last : String} (lists : Lists w directory patterns reached location (front ++ [last]))
    (ordinary : ∀ name ∈ front ++ [last], Ordinary name) :
    ∃ before, (relativeName directory reached (front ++ [last])).text = before ++ last := by
  obtain ⟨given, steps⟩ := steps_of_reach? lists.arrives
  have there := (steps_of_foldl ordinary given).2
  rw [steps] at there
  -- The path may be written anew from its names, and then only the last one is left of it.
  obtain own | renamed := relativeTo_eq there
  · rw [relativeName, own]
    exact exists_text_foldl reached front last
  · rw [relativeName, renamed]
    exact exists_text_ofNames front last

theorem isYamlName_of_mem_find (named : w.tree.Named) {patterns : List Pattern}
    (member : path ∈ find w directory patterns) : isYamlName path.text = true := by
  obtain ⟨reached, location, names, lists, rfl⟩ := exists_lists_of_mem_find member
  obtain ⟨ordinary, front, last, rfl, yaml⟩ := names_of_mem_yamlFilesBelow named lists.below
  obtain ⟨before, relative⟩ := lists.exists_text ordinary
  obtain ⟨outer, whole⟩ := exists_text_join (start directory)
    (relativeName directory reached (front ++ [last]))
  rw [whole, relative]
  exact isYamlName_append (isYamlName_append yaml before) outer

end Discovery

end YamlTypes
