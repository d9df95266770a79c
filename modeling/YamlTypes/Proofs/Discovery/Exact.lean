import Mathlib.Data.List.Induction
import Mathlib.Data.List.Sort
import YamlTypes.Proofs.Discovery.Reached

/-!
What a search finds.

In a tree whose entries stand in directories, a search finds exactly the YAML
files that lie below its directory, are not hidden and can be asked for. Each is
tried against the patterns under the names that lead there, and returned under
the directory with these names behind it. Only a directory that is spelled with a
point and with something behind it is taken for a part of those names as well.
-/

set_option autoImplicit false

namespace YamlTypes

open YamlTypes.Path

/-- Trees of named entries that stand in directories, one at each location. -/
structure FileTree.Proper (tree : FileTree) : Prop where
  named : tree.Named
  distinct : (tree.entries.map Prod.fst).Nodup
  inDirectory : ∀ entry ∈ tree.entries, tree.get? entry.1.dropLast = some .directory

namespace FileTree

variable {tree : FileTree} {location : Location} {entry : Entry}

theorem mem_entries_of_get? (below : location ≠ []) (found : tree.get? location = some entry) :
    (location, entry) ∈ tree.entries := by
  unfold get? at found
  rw [if_neg below] at found
  rcases List.lookup_eq_some_iff.mp found with ⟨before, after, split, -⟩
  rw [split]
  exact List.mem_append_right _ List.mem_cons_self

theorem Proper.get?_eq_some (proper : tree.Proper) (below : location ≠ [])
    (listed : (location, entry) ∈ tree.entries) : tree.get? location = some entry := by
  rcases List.mem_iff_append.mp listed with ⟨before, after, split⟩
  have distinct := proper.distinct
  rw [split, List.map_append, List.map_cons] at distinct
  unfold get?
  rw [if_neg below, List.lookup_eq_some_iff]
  refine ⟨before, after, split, fun other earlier => ?_⟩
  have apart := (List.nodup_append.mp distinct).2.2 other.1 (List.mem_map_of_mem earlier)
    location List.mem_cons_self
  exact bne_iff_ne.mpr (Ne.symm apart)

theorem Proper.directory_of_get? (proper : tree.Proper) {names : List String} (below : names ≠ [])
    (found : tree.get? (location ++ names) = some entry) :
    tree.get? location = some .directory := by
  induction names using List.reverseRecOn generalizing entry with
  | nil => exact absurd rfl below
  | append_singleton front last inductionHypothesis =>
      have notRoot : location ++ (front ++ [last]) ≠ [] := by simp
      have around := proper.inDirectory _ (mem_entries_of_get? notRoot found)
      rw [← List.append_assoc, List.dropLast_concat] at around
      cases front with
      | nil => rwa [List.append_nil] at around
      | cons name rest => exact inductionHypothesis (List.cons_ne_nil _ _) around

/-- Names lead to an entry if none of them is too long. -/
theorem Proper.walk_eq_ok_iff (proper : tree.Proper) {names : List String} {there : Location}
    (ordinary : ∀ name ∈ names, Ordinary name)
    (found : tree.get? (location ++ names) = some entry) :
    tree.walk location names = .ok there ↔
      (∀ name ∈ names, name.utf8ByteSize ≤ maxName) ∧ there = location ++ names := by
  induction names generalizing location with
  | nil =>
      rw [List.append_nil, and_iff_right nofun, walk, Except.ok.injEq, eq_comm]
  | cons name rest inductionHypothesis =>
      have inside := proper.directory_of_get? (List.cons_ne_nil _ _) found
      have further : tree.get? (location ++ [name] ++ rest) = some entry := by
        rwa [List.append_assoc, List.singleton_append]
      have others := inductionHypothesis
        (fun n member => ordinary n (List.mem_cons_of_mem _ member)) further
      have isName := ordinary name List.mem_cons_self
      rw [List.append_assoc, List.singleton_append] at others
      rw [walk_cons, List.forall_mem_cons, and_assoc, ← others]
      constructor
      · intro walked
        cases first : tree.step location name with
        | error fault =>
            rw [first] at walked
            cases walked
        | ok middle =>
            rw [first] at walked
            rcases (step_eq_ok_iff isName).mp first with ⟨-, short, rfl⟩
            exact ⟨short, walked⟩
      · rintro ⟨short, walked⟩
        rw [(step_eq_ok_iff isName).mpr ⟨inside, short, rfl⟩]
        exact walked

end FileTree

namespace Discovery

variable {w : Workspace} {directory path : Path} {names : List String} {patterns : List Pattern}

theorem exists_mem_dedup {paths : List Path} (member : path ∈ paths) :
    ∃ kept ∈ dedup paths, kept.components = path.components := by
  induction paths using dedup.induct generalizing path with
  | case1 a b rest same inductionHypothesis =>
      rw [dedup, if_pos same]
      rcases List.mem_cons.mp member with rfl | others
      · exact inductionHypothesis List.mem_cons_self
      · rcases List.mem_cons.mp others with rfl | later
        · rcases inductionHypothesis List.mem_cons_self with ⟨kept, listed, alike⟩
          exact ⟨kept, listed, alike.trans same⟩
        · exact inductionHypothesis (List.mem_cons_of_mem _ later)
  | case2 a b rest different inductionHypothesis =>
      rw [dedup, if_neg different]
      rcases List.mem_cons.mp member with rfl | others
      · exact ⟨_, List.mem_cons_self, rfl⟩
      · rcases inductionHypothesis others with ⟨kept, listed, same⟩
        exact ⟨kept, List.mem_cons_of_mem _ listed, same⟩
  | case3 paths short =>
      rw [dedup]
      · exact ⟨path, member, rfl⟩
      · exact short

theorem find_eq {reached : Path} {location : Location}
    (found : reach? w (start directory) = some reached)
    (located : w.locate reached = .ok location) :
    find w directory patterns = dedup (((yamlFilesBelow w location).filterMap fun names =>
      if !w.isFile (names.foldl child reached) then none
      else if excludes patterns (slashed (relativeName directory reached names)) then none
      else some ((start directory).join (relativeName directory reached names))).mergeSort
        pathLE) := by
  unfold start at found
  unfold find
  dsimp only
  rw [found]
  dsimp only
  rw [located]
  rfl

theorem Lists.exists_mem {reached : Path} {location : Location}
    (lists : Lists w directory patterns reached location names) :
    ∃ kept ∈ find w directory patterns, kept.components =
      ((start directory).join (relativeName directory reached names)).components := by
  rw [find_eq lists.arrives lists.located]
  apply exists_mem_dedup
  rw [List.mem_mergeSort, List.mem_filterMap]
  refine ⟨names, lists.below, ?_⟩
  rw [lists.isFile, lists.free, Bool.not_true, if_neg Bool.false_ne_true,
    if_neg Bool.false_ne_true]

theorem mem_find_iff (named : w.tree.Named) :
    path ∈ find w directory patterns ↔
      ∃ reached location names, Lists w directory patterns reached location names ∧
        path = (start directory).join (relativeName directory reached names) := by
  constructor
  · exact exists_lists_of_mem_find
  · rintro ⟨reached, location, names, lists, rfl⟩
    -- What is kept has the same components, and those belong to the same names.
    obtain ⟨kept, isFound, same⟩ := lists.exists_mem
    obtain ⟨_, _, others, also, rfl⟩ := exists_lists_of_mem_find isFound
    obtain ⟨rfl, rfl⟩ := lists.same_start also
    have places : w.place ((start directory).join (relativeName directory reached others)) =
        w.place ((start directory).join (relativeName directory reached names)) := by
      rw [Workspace.place, steps, same]
      rfl
    rwa [also.names_eq named lists places] at isFound

def YamlFileBelow (w : Workspace) (directory : Path) (names : List String) : Prop :=
  ∃ location bytes, w.locate directory = .ok location ∧
    w.tree.get? (location ++ names) = some (.file bytes) ∧
    (∀ name ∈ names, startsWithPoint name = false) ∧ names.getLast?.any isYamlName = true

theorem mem_yamlFilesBelow_iff_get? (proper : w.tree.Proper) {location : Location} :
    names ∈ yamlFilesBelow w location ↔
      ∃ bytes, w.tree.get? (location ++ names) = some (.file bytes) ∧
        (∀ name ∈ names, startsWithPoint name = false) ∧ names.getLast?.any isYamlName = true := by
  rw [mem_yamlFilesBelow_iff]
  apply exists_congr
  intro bytes
  apply and_congr_left
  rintro ⟨-, yaml⟩
  have below : location ++ names ≠ [] := by
    intro nothing
    rw [(List.append_eq_nil_iff.mp nothing).2] at yaml
    cases yaml
  exact ⟨proper.get?_eq_some below, FileTree.mem_entries_of_get? below⟩

theorem YamlFileBelow.ordinary (file : YamlFileBelow w directory names) (named : w.tree.Named) :
    names ≠ [] ∧ ∀ name ∈ names, Ordinary name := by
  rcases file with ⟨location, bytes, -, found, -, yaml⟩
  have nonempty : names ≠ [] := by
    rintro rfl
    cases yaml
  refine ⟨nonempty, fun name member => ?_⟩
  have below : location ++ names ≠ [] := List.append_ne_nil_of_right_ne_nil _ nonempty
  exact named _ (FileTree.mem_entries_of_get? below found) name (List.mem_append_right _ member)

/-- A search that begins at a point and goes on knows its files by the segments of the directory as
well. -/
def relative (directory : Path) (names : List String) : Path :=
  if .here ∈ directory.components then (directorySegments directory ++ names).foldl child ⟨"."⟩
  else ofNames false names

theorem relativeTo_eq_relative {reached : Path} (found : reach? w directory = some reached)
    (spelled : reached = (directorySegments directory).foldl child (origin directory))
    (nonempty : names ≠ []) (ordinary : ∀ name ∈ names, Ordinary name) :
    relativeTo directory (names.foldl child reached) = relative directory names := by
  rcases steps_of_reach? found with ⟨given, steps⟩
  have below := (steps_of_foldl ordinary given).2
  rw [steps] at below
  rw [relativeTo_of_plain below
    (here_notMem_foldl nonempty ordinary (plain_of_reach? found) given), relative]
  by_cases point : .here ∈ directory.components
  · rw [if_pos point, if_pos point, spelled, origin, isAbsolute_of_here_mem point,
      if_neg Bool.false_ne_true, List.foldl_append]
  · rw [if_neg point, if_neg point]

def asked (directory : Path) (names : List String) : Path :=
  (directorySegments directory ++ names).foldl child (origin directory)

/-- Neither the path that is asked for nor a name on it is too long. -/
structure Addressable (directory : Path) (names : List String) : Prop where
  noNul : '\x00' ∉ (asked directory names).text.toList
  short : (asked directory names).text.utf8ByteSize < FileTree.pathLimit
  shortNames : ∀ name ∈ names, name.utf8ByteSize ≤ FileTree.maxName

theorem isFile_iff_addressable (proper : w.tree.Proper) {reached : Path} {location : Location}
    {bytes : List UInt8} (way : OnTheWay reached)
    (spelled : reached = (directorySegments directory).foldl child (origin directory))
    (located : w.locate reached = .ok location) (ordinary : ∀ name ∈ names, Ordinary name)
    (file : w.tree.get? (location ++ names) = some (.file bytes)) :
    w.isFile (names.foldl child reached) = true ↔ Addressable directory names := by
  have given : (names.foldl child reached).text ≠ "" := (steps_of_foldl ordinary way.given).1
  have whole : asked directory names = names.foldl child reached := by
    rw [asked, List.foldl_append, ← spelled]
  have followed : w.follow (names.foldl child reached) = w.tree.walk location names := by
    rw [follow_foldl way ordinary, (Workspace.locate_eq_ok_iff.mp located).2]
    rfl
  simp only [Workspace.isFile_iff, Workspace.locate_eq_ok_iff, FileTree.badPath?_eq_none_iff,
    followed, proper.walk_eq_ok_iff ordinary file]
  constructor
  · rintro ⟨there, _, ⟨⟨noNul, -, short⟩, shortNames, -⟩, -⟩
    rw [← whole] at noNul short
    exact ⟨noNul, short, shortNames⟩
  · rintro ⟨noNul, short, shortNames⟩
    rw [whole] at noNul short
    exact ⟨_, bytes, ⟨⟨noNul, given, short⟩, shortNames, rfl⟩, file⟩

/-- A search finds the YAML files below its directory if it reaches the directory at all. -/
theorem mem_find_iff_yamlFileBelow (proper : w.tree.Proper) (reaches : Reaches (start directory))
    (short : (start directory).text.utf8ByteSize < FileTree.pathLimit) :
    path ∈ find w directory patterns ↔
      ∃ names, YamlFileBelow w (start directory) names ∧ Addressable (start directory) names ∧
        excludes patterns (slashed (relative (start directory) names)) = false ∧
        path = (start directory).join (relative (start directory) names) := by
  have given := start_text_ne directory
  rw [mem_find_iff proper.named]
  constructor
  · rintro ⟨reached, location, names, lists, rfl⟩
    obtain ⟨bytes, file, seen, yaml⟩ := (mem_yamlFilesBelow_iff_get? proper).mp lists.below
    have nonempty : names ≠ [] := by
      rintro rfl
      cases yaml
    obtain ⟨way, spelled, there⟩ := locate_of_reach? given short lists.arrives lists.located
      (proper.directory_of_get? nonempty file)
    have isBelow : YamlFileBelow w (start directory) names :=
      ⟨location, bytes, there, file, seen, yaml⟩
    have ordinary := (isBelow.ordinary proper.named).2
    have addressable :=
      (isFile_iff_addressable proper way spelled lists.located ordinary file).mp lists.isFile
    have same : relativeName directory reached names = relative (start directory) names :=
      relativeTo_eq_relative lists.arrives spelled nonempty ordinary
    rw [same]
    exact ⟨names, isBelow, addressable, same ▸ lists.free, rfl⟩
  · rintro ⟨names, isBelow, addressable, free, rfl⟩
    rcases isBelow.ordinary proper.named with ⟨nonempty, ordinary⟩
    rcases isBelow with ⟨location, bytes, there, file, seen, yaml⟩
    have isDirectory := proper.directory_of_get? nonempty file
    rcases reaches.reach? given short there isDirectory with ⟨reached, found, located⟩
    rcases locate_of_reach? given short found located isDirectory with ⟨way, spelled, -⟩
    have isFile := (isFile_iff_addressable proper way spelled located ordinary file).mpr addressable
    have below := (mem_yamlFilesBelow_iff_get? proper).mpr ⟨bytes, file, seen, yaml⟩
    rw [← relativeTo_eq_relative found spelled nonempty ordinary] at free ⊢
    exact ⟨reached, location, names, ⟨found, located, below, isFile, free⟩, rfl⟩

/-- If a point stands at the start of a directory, there is nothing but points. -/
def Direct (directory : Path) : Prop :=
  .here ∈ directory.components → ∀ s ∈ directorySegments directory, s = "."

theorem child_ofNames {front : List String} {name : String} (nonempty : front ≠ [])
    (ordinary : ∀ n ∈ front, Ordinary n) (next : Ordinary name) :
    child (ofNames false front) name = ofNames false (front ++ [name]) := by
  have text :
      (ofNames false (front ++ [name])).text = (ofNames false front).text ++ "/" ++ name := by
    rw [ofNames, ofNames, if_neg Bool.false_ne_true, String.empty_append, String.empty_append,
      String.intercalate_append_of_ne_nil nonempty (List.cons_ne_nil _ _)]
    rfl
  rcases ofNames_steps nonempty ordinary with ⟨-, steps⟩
  have elsewhere : ¬isHere (ofNames false front) = true := by
    intro here
    rw [Path.steps, beq_iff_eq.mp here] at steps
    exact nonempty (List.map_eq_nil_iff.mp steps.symm)
  rcases List.eq_nil_or_concat' front with rfl | ⟨before, last, rfl⟩
  · exact absurd rfl nonempty
  · have lastName := ordinary last (List.mem_append_right _ List.mem_cons_self)
    rcases exists_text_ofNames before last with ⟨outer, ends⟩
    have given : (ofNames false (before ++ [last])).text ≠ "" := by
      rw [ends, ne_eq, String.append_eq_empty_iff]
      exact fun empty => lastName.nonempty empty.2
    have noSlash : (ofNames false (before ++ [last])).text.toList.getLast? ≠ some '/' := by
      intro slash
      have chars : last.toList ≠ [] := by
        rw [ne_eq, String.toList_eq_nil_iff]
        exact lastName.nonempty
      rw [ends, String.toList_append, List.getLast?_append_of_ne_nil _ chars] at slash
      exact lastName.noSlash (List.mem_of_mem_getLast? slash)
    rw [child, if_neg elsewhere, join, isAbsolute_segment next.noSlash, if_neg Bool.false_ne_true,
      if_neg given, if_neg noSlash, ← text]

theorem foldl_child_ofNames {front : List String} (nonempty : front ≠ [])
    (ordinary : ∀ name ∈ front ++ names, Ordinary name) :
    names.foldl child (ofNames false front) = ofNames false (front ++ names) := by
  induction names generalizing front with
  | nil => rw [List.foldl_nil, List.append_nil]
  | cons name rest inductionHypothesis =>
      have before : ∀ n ∈ front, Ordinary n := fun n member =>
        ordinary n (List.mem_append_left _ member)
      have next : Ordinary name := ordinary name (List.mem_append_right _ List.mem_cons_self)
      have whole : front ++ name :: rest = front ++ [name] ++ rest := by simp
      rw [whole] at ordinary ⊢
      rw [List.foldl_cons, child_ofNames nonempty before next,
        inductionHypothesis (List.concat_ne_nil _ _) ordinary]

theorem foldl_child_points {segments : List String} (points : ∀ s ∈ segments, s = ".") :
    segments.foldl child ⟨"."⟩ = ⟨"."⟩ := by
  induction segments with
  | nil => rfl
  | cons segment rest inductionHypothesis =>
      obtain rfl := points segment List.mem_cons_self
      exact inductionHypothesis fun s member => points s (List.mem_cons_of_mem _ member)

theorem Direct.relative_eq (direct : Direct directory) (nonempty : names ≠ [])
    (ordinary : ∀ name ∈ names, Ordinary name) :
    relative directory names = ofNames false names := by
  unfold relative
  by_cases point : .here ∈ directory.components
  · rw [if_pos point, List.foldl_append, foldl_child_points (direct point)]
    cases names with
    | nil => exact absurd rfl nonempty
    | cons name rest =>
        have first : child ⟨"."⟩ name = ofNames false [name] := rfl
        rw [List.foldl_cons, first]
        exact foldl_child_ofNames (List.cons_ne_nil _ _) ordinary
  · rw [if_neg point]

theorem relative_eq_of_not_direct (indirect : ¬Direct directory) (names : List String) :
    relative directory names = (directorySegments directory ++ names).foldl child ⟨"."⟩ := by
  unfold Direct at indirect
  rw [Classical.not_imp] at indirect
  exact if_pos indirect.1

instance : Std.Antisymm Precedes where
  antisymm _ _ first second := absurd (components_eq_of_pathLE first.1 second.1) first.2

theorem find_sublist (named : w.tree.Named) {others : List Pattern} (more : patterns ⊆ others) :
    (find w directory others).Sublist (find w directory patterns) := by
  have distinct : (find w directory others).Nodup :=
    (find_precedes w directory others).imp fun precedes same =>
      precedes.2 (congrArg components same)
  have kept : find w directory others ⊆ find w directory patterns := by
    intro path member
    rw [mem_find_iff named] at member ⊢
    obtain ⟨reached, location, names, lists, is⟩ := member
    have free := lists.free
    rw [excludes, List.any_eq_false] at free
    refine ⟨reached, location, names, { lists with free := ?_ }, is⟩
    rw [excludes, List.any_eq_false]
    exact fun pattern listed => free pattern (more listed)
  exact List.sublist_of_subperm_of_pairwise (List.subperm_of_subset distinct kept)
    (find_precedes w directory others) (find_precedes w directory patterns)

theorem find_eq_nil (away : ¬Reaches (start directory)) : find w directory patterns = [] := by
  rw [List.eq_nil_iff_forall_not_mem]
  intro path member
  obtain ⟨_, _, _, lists, -⟩ := exists_lists_of_mem_find member
  exact away (reaches_of_reach? lists.arrives)

/-- A search finds, in strict order, exactly the YAML files below its directory that can be asked
for and that no pattern matches, each under the names that lead there from the directory. A
directory that is spelled with a point and something behind it counts as a part of these names, and
one that hides a pattern behind a point, or leaves nothing behind the points at its start, is not
searched. -/
theorem find_exact (w : Workspace) (proper : w.tree.Proper) (directory : Path) :
    (∀ patterns, (find w directory patterns).Pairwise Precedes) ∧
    (∀ patterns others, patterns ⊆ others →
      (find w directory others).Sublist (find w directory patterns)) ∧
    (Reaches (start directory) → (start directory).text.utf8ByteSize < FileTree.pathLimit →
      Direct (start directory) → ∀ patterns path, path ∈ find w directory patterns ↔
        ∃ names, YamlFileBelow w (start directory) names ∧ Addressable (start directory) names ∧
          excludes patterns (slashed (ofNames false names)) = false ∧
          path = (start directory).join (ofNames false names)) ∧
    (Reaches (start directory) → (start directory).text.utf8ByteSize < FileTree.pathLimit →
      ¬Direct (start directory) → ∀ patterns path, path ∈ find w directory patterns ↔
        ∃ names, YamlFileBelow w (start directory) names ∧ Addressable (start directory) names ∧
          excludes patterns (slashed
            ((directorySegments (start directory) ++ names).foldl child ⟨"."⟩)) = false ∧
          path = (start directory).join
            ((directorySegments (start directory) ++ names).foldl child ⟨"."⟩)) ∧
    (¬Reaches (start directory) → ∀ patterns, find w directory patterns = []) := by
  refine ⟨find_precedes w directory, fun _ _ more => find_sublist proper.named more, ?_, ?_,
    fun away _ => find_eq_nil away⟩
  · intro reaches short direct patterns path
    rw [mem_find_iff_yamlFileBelow proper reaches short]
    apply exists_congr
    intro names
    apply and_congr_right
    intro file
    rcases file.ordinary proper.named with ⟨nonempty, ordinary⟩
    rw [direct.relative_eq nonempty ordinary]
  · intro reaches short indirect patterns path
    rw [mem_find_iff_yamlFileBelow proper reaches short]
    simp only [relative_eq_of_not_direct indirect]

def shelvedFile : Workspace where
  tree := ⟨[(["b"], .directory), (["b", "x"], .directory), (["b", "x", "a.yaml"], .file [])]⟩
  directory := ["b"]

theorem shelvedFile_proper : shelvedFile.tree.Proper := ⟨by decide, by decide, by decide⟩

theorem find_exact_shelvedFile :
    ⟨"x/a.yaml"⟩ ∈ find shelvedFile ⟨"x"⟩ [] ∧ ⟨"./x/x/a.yaml"⟩ ∈ find shelvedFile ⟨"./x"⟩ [] ∧
      find shelvedFile ⟨".x*"⟩ [] = [] := by
  refine ⟨?_, ?_, ?_⟩
  · have reaches : Reaches (start ⟨"x"⟩) := ⟨by decide, by decide⟩
    have direct : Direct (start ⟨"x"⟩) := by
      unfold Direct
      decide
    rw [(find_exact shelvedFile shelvedFile_proper ⟨"x"⟩).2.2.1 reaches (by decide) direct]
    exact ⟨["a.yaml"], ⟨["b", "x"], [], rfl, rfl, by decide, by decide⟩,
      ⟨by decide, by decide, by decide⟩, rfl, by decide⟩
  · have reaches : Reaches (start ⟨"./x"⟩) := ⟨by decide, by decide⟩
    have indirect : ¬Direct (start ⟨"./x"⟩) := by
      unfold Direct
      decide
    rw [(find_exact shelvedFile shelvedFile_proper ⟨"./x"⟩).2.2.2.1 reaches (by decide) indirect]
    exact ⟨["a.yaml"], ⟨["b", "x"], [], rfl, rfl, by decide, by decide⟩,
      ⟨by decide, by decide, by decide⟩, rfl, by decide⟩
  · have hidden : ".x*" ∈ directorySegments (start ⟨".x*"⟩) := by decide
    have away : ¬Reaches (start ⟨".x*"⟩) := by
      intro reaches
      exact absurd (reaches.clear ".x*" hidden) (by decide)
    exact (find_exact shelvedFile shelvedFile_proper ⟨".x*"⟩).2.2.2.2 away []

/-- The point at the start is not seen, and so the directory stands in the path twice. -/
theorem find_doubled :
    YamlFileBelow shelvedFile ⟨"./x"⟩ ["a.yaml"] ∧
      (⟨"./x"⟩ : Path).join (ofNames false ["a.yaml"]) = ⟨"./x/a.yaml"⟩ ∧
      find shelvedFile ⟨"./x"⟩ [] = [⟨"./x/x/a.yaml"⟩] := by
  refine ⟨⟨["b", "x"], [], rfl, rfl, by decide, by decide⟩, by decide, ?_⟩
  have sorted : find shelvedFile ⟨"./x"⟩ [] = dedup ([⟨"./x/x/a.yaml"⟩].mergeSort pathLE) := rfl
  rw [sorted, List.mergeSort_singleton, dedup]
  intro a b rest same
  cases same

end Discovery

end YamlTypes
