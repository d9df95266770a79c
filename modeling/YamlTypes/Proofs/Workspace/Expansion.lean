import YamlTypes.Generation
import YamlTypes.Proofs.Include.Termination
import YamlTypes.Proofs.Include.Unguarded
import YamlTypes.Proofs.Path.Steps
import YamlTypes.Proofs.Workspace.Following

/-!
Expansion over the files of a workspace.

A normal path that leads to a file spells out where the file is, so no file is
reached under two of them. There are no more documents than entries in the tree,
and the depth to which a workspace expands its texts is enough for every run
that ends.
-/

set_option autoImplicit false

namespace YamlTypes

namespace FileTree

theorem walk_ordinary {tree : FileTree} {here there : Location} {names : List String}
    (ordinary : ∀ name ∈ names, Path.Ordinary name) (walked : tree.walk here names = .ok there) :
    there = here ++ names := by
  induction names generalizing here with
  | nil =>
      rw [List.append_nil]
      exact (Except.ok.inj walked).symm
  | cons name rest inductionHypothesis =>
      unfold walk at walked
      cases stepped : tree.step here name with
      | error fault => simp [stepped] at walked
      | ok middle =>
          simp only [stepped] at walked
          obtain rfl := ((step_eq_ok_iff (ordinary name List.mem_cons_self)).mp stepped).2.2
          rw [inductionHypothesis (fun n member => ordinary n (List.mem_cons_of_mem _ member))
            walked, List.append_assoc, List.singleton_append]

theorem walk_root (tree : FileTree) (names : List String) :
    tree.walk [] ("" :: names) = tree.walk [] names := by
  simp [walk, step, get?]

theorem segments_ofNames {names : List String} (nonempty : names ≠ [])
    (ordinary : ∀ name ∈ names, Path.Ordinary name) :
    segments (Path.ofNames true names) = "" :: names := by
  have chars : (Path.ofNames true names).text.toList =
      '/' :: (String.intercalate "/" names).toList := by
    rw [Path.ofNames, if_pos rfl, String.toList_append]
    rfl
  rw [segments, chars, Text.splitOn, if_pos rfl, Path.splitOn_intercalate nonempty ordinary]
  simp

theorem mem_of_get? {tree : FileTree} {location : Location} {bytes : List UInt8}
    (found : tree.get? location = some (.file bytes)) : location ∈ tree.entries.map Prod.fst := by
  unfold get? at found
  split at found
  next => cases found
  next =>
    rw [List.lookup_eq_some_iff] at found
    obtain ⟨before, after, split, _⟩ := found
    simp [split]

end FileTree

namespace Workspace

def filePaths (w : Workspace) : Finset Path :=
  (w.tree.entries.map fun entry => Path.ofNames true entry.1).toFinset

theorem filePaths_card_le (w : Workspace) : w.filePaths.card ≤ w.tree.entries.length := by
  have bound := List.toFinset_card_le (w.tree.entries.map fun entry => Path.ofNames true entry.1)
  rwa [List.length_map] at bound

theorem directoryPath_isAbsolute (w : Workspace) : w.directoryPath.isAbsolute = true :=
  Path.ofNames_isAbsolute _

theorem locate_ofNames {w : Workspace} {names : List String} {location : Location}
    (ordinary : ∀ name ∈ names, Path.Ordinary name)
    (located : w.locate (Path.ofNames true names) = .ok location) : location = names := by
  unfold locate at located
  split at located
  next => cases located
  next =>
    rw [origin, if_pos (Path.ofNames_isAbsolute names)] at located
    by_cases empty : names = []
    · subst empty
      have rootSegments : FileTree.segments (Path.ofNames true []) = ["", ""] := by decide
      rw [rootSegments, FileTree.walk_root, FileTree.walk_root] at located
      exact (Except.ok.inj located).symm
    · rw [FileTree.segments_ofNames empty ordinary, FileTree.walk_root] at located
      simpa using FileTree.walk_ordinary ordinary located

theorem mem_filePaths_of_readText {w : Workspace} {names : List String} {encoding : Encoding}
    {text : List Char} (ordinary : ∀ name ∈ names, Path.Ordinary name)
    (readable : w.readText (Path.ofNames true names) encoding = .ok text) :
    Path.ofNames true names ∈ w.filePaths := by
  unfold readText read at readable
  split at readable
  next => cases readable
  next location located =>
    obtain rfl := locate_ofNames ordinary located
    split at readable
    next => cases readable
    next => cases readable
    next bytes found =>
      rcases List.mem_map.mp (FileTree.mem_of_get? found) with ⟨entry, member, same⟩
      rw [filePaths, List.mem_toFinset, List.mem_map]
      exact ⟨entry, member, by rw [same]⟩

theorem loader_answers (w : Workspace) : w.loader.Answers w.readText :=
  Include.Loader.ofStore_answers _

theorem loader_confined {w : Workspace} {base : Path} (absolute : base.isAbsolute = true)
    (encoding : Encoding) : w.loader.Confined base encoding w.filePaths () := by
  intro later _ operand text loaded
  have named : Include.target base operand =
      Path.ofNames true (base.join ⟨String.ofList operand⟩).names :=
    Path.normalize_of_isAbsolute (Path.join_isAbsolute absolute _)
  rw [w.loader_answers, named] at loaded
  rw [named]
  exact mem_filePaths_of_readText (fun _ member => .of_mem_names member) loaded

end Workspace

namespace Include

/-- A run over unchanging documents that ends nests no deeper than there are documents. Without a
guard the chain that it begins with must not hold a document that it includes. -/
theorem Expands.expand_of_confined {σ : Type} {loader : Loader σ} {base : Path}
    {settings : Settings} {answer : Path → Encoding → Except FileFault (List Char)}
    (steady : loader.Answers answer) {paths : Finset Path} {chain : List Path} {text : List Char}
    {state : σ} {run : Run σ} (confined : loader.Confined base settings.encoding paths state)
    (within : ChainWithin paths chain)
    (derived : Expands loader base settings chain (pieces text) state run)
    (outlasts : settings.cycles = .unchecked →
      Outlasts loader base settings.encoding answer chain run.loads.length) {depth : Nat}
    (enough : paths.card < depth + chain.length) :
    expand loader base settings depth chain text state = some run := by
  obtain ⟨encoding, cycles⟩ := settings
  have nests : ∀ guarded,
      Expands loader base ⟨encoding, .detect⟩ chain (pieces text) state guarded →
        expand loader base ⟨encoding, .detect⟩ depth chain text state = some guarded := by
    intro guarded guardedDerived
    have detect : (Settings.mk encoding .detect).cycles = .detect := rfl
    rcases exists_expand detect within enough text confined with ⟨found, expanded⟩
    rw [guardedDerived.unique (.of_expand expanded), expanded]
  cases cycles with
  | detect => exact nests run derived
  | unchecked =>
      have guarded := derived.detect steady (outlasts rfl)
      exact expand_unchecked (nests run guarded) derived.acyclic_of_unchecked

end Include

namespace Workspace

/-- A workspace expands a text in a chain as every run below the root does, if one ends. -/
theorem expandIn_of_resolves {w : Workspace} {root : Path} {settings : Include.Settings}
    {chain : List Path} {text : List Char} {run : Include.Run Unit}
    (within : Include.ChainWithin w.filePaths chain)
    (outlasts : ∀ base, Path.absolute? w.directoryPath root = some base →
      settings.cycles = .unchecked →
        Include.Outlasts w.loader base settings.encoding w.readText chain run.loads.length)
    (resolved : Include.Resolves w.loader w.directoryPath root settings chain text () run) :
    w.expandIn chain text root settings = run.result := by
  have ends : Include.resolve w.loader w.directoryPath root settings (w.tree.entries.length + 2)
      chain text () = some run := by
    cases based : Path.absolute? w.directoryPath root with
    | none =>
        rw [Include.resolve_of_no_base based]
        rw [Include.resolves_iff_of_no_base based] at resolved
        rw [resolved]
    | some base =>
        rw [Include.resolve_of_base based]
        rw [Include.resolves_iff_of_base based] at resolved
        have absolute := Path.absolute?_eq_some w.directoryPath_isAbsolute based
        have bound := w.filePaths_card_le
        exact resolved.expand_of_confined w.loader_answers (loader_confined absolute _) within
          (outlasts base based) (by omega)
  rw [expandIn, ends]

theorem expand_of_resolves {w : Workspace} {root : Path} {settings : Include.Settings}
    {text : List Char} {run : Include.Run Unit}
    (resolved : Include.Resolves w.loader w.directoryPath root settings [] text () run) :
    w.expand text root settings = run.result :=
  expandIn_of_resolves (.nil _) (by simp [Include.Outlasts]) resolved

/-- What a workspace expands comes from a run, unless it never ends. -/
theorem resolves_of_expandIn {w : Workspace} {root : Path} {settings : Include.Settings}
    {chain : List Path} {text : List Char}
    {result : Except Include.Failure Include.Expansion}
    (expanded : w.expandIn chain text root settings = result) (ended : result ≠ .error .endless) :
    ∃ run, Include.Resolves w.loader w.directoryPath root settings chain text () run ∧
      run.result = result := by
  unfold expandIn at expanded
  split at expanded
  next => exact absurd expanded.symm ended
  next run resolved => exact ⟨run, ⟨_, resolved⟩, expanded⟩

end Workspace

end YamlTypes
