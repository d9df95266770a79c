import YamlTypes.Proofs.Include.OwnChain
import YamlTypes.Proofs.Workspace.Expansion

/-!
Documents given by path and by text.

The document of a file may be expanded as the first of its chain, or as a text
that stands nowhere. The results are the same, except that the reported chains
differ where the document includes itself. So giving only the text hides no
cycle.
-/

set_option autoImplicit false

namespace YamlTypes.Workspace

open Include (Settings Failure Expansion Expands Resolves Links Faultless ChainWithin)
open Relation (TransGen)

variable {w : Workspace} {path root file base : Path} {encoding : Encoding} {settings : Settings}
  {text : List Char}

theorem absolute?_ordinary (placed : Path.absolute? w.directoryPath path = some file) :
    ∃ names : List String, file = Path.ofNames true names ∧
      ∀ name ∈ names, Path.Ordinary name := by
  unfold Path.absolute? at placed
  split at placed
  next => cases placed
  next =>
    cases placed
    have absolute := Path.join_isAbsolute w.directoryPath_isAbsolute path
    exact ⟨_, Path.normalize_of_isAbsolute absolute, fun name member => .of_mem_names member⟩

theorem own_within (placed : Path.absolute? w.directoryPath path = some file)
    (readable : w.readText file encoding = .ok text) : ChainWithin w.filePaths [file] where
  distinct := List.nodup_singleton file
  confined := by
    intro member inChain
    obtain ⟨names, rfl, ordinary⟩ := absolute?_ordinary placed
    rw [List.mem_singleton.mp inChain]
    exact mem_filePaths_of_readText ordinary readable

theorem expandFile_of_base (based : Path.absolute? w.directoryPath root = some base)
    (readable : w.readText path settings.encoding = .ok text)
    (placed : Path.absolute? w.directoryPath path = some file) :
    w.expandFile path root settings = w.expandIn [file] text root settings := by
  have given : root.text ≠ "" := by
    intro empty
    rw [Path.absolute?, if_pos empty] at based
    cases based
  simp only [expandFile, if_neg given, readable, placed]

theorem expandFile_of_no_base (rootless : Path.absolute? w.directoryPath root = none) :
    w.expandFile path root settings = .error (.unreadable root .emptyPath) := by
  have missing : root.text = "" := by
    unfold Path.absolute? at rootless
    split at rootless
    next empty => exact empty
    next => cases rootless
  rw [expandFile, if_pos missing]

/-- Without a guard the two expansions are the same, or neither ends. -/
theorem expandIn_own_unchecked (based : Path.absolute? w.directoryPath root = some base)
    (placed : Path.absolute? w.directoryPath path = some file)
    (readable : w.readText file encoding = .ok text) :
    w.expandIn [file] text root ⟨encoding, .unchecked⟩ =
      w.expand text root ⟨encoding, .unchecked⟩ := by
  have alone : ∀ run, Expands w.loader base ⟨encoding, .unchecked⟩ [] (Include.pieces text) () run →
      w.expandIn [file] text root ⟨encoding, .unchecked⟩ =
        w.expand text root ⟨encoding, .unchecked⟩ := by
    intro run derived
    have seeded := (Include.resolves_iff_of_base based).mpr (derived.unchecked_in [file])
    have nowhere := (Include.resolves_iff_of_base based).mpr derived
    rw [expand_of_resolves nowhere]
    refine expandIn_of_resolves (own_within placed readable) (fun other sameBase _ => ?_) seeded
    obtain rfl := Option.some.inj (based.symm.trans sameBase)
    exact derived.outlasts_own w.loader_answers readable
  by_cases ends : w.expand text root ⟨encoding, .unchecked⟩ = .error .endless
  · by_cases seededEnds : w.expandIn [file] text root ⟨encoding, .unchecked⟩ = .error .endless
    · rw [ends, seededEnds]
    · rcases resolves_of_expandIn rfl seededEnds with ⟨run, resolved, _⟩
      rw [Include.resolves_iff_of_base based] at resolved
      exact alone run (resolved.unchecked_in [])
  · rcases resolves_of_expandIn rfl ends with ⟨run, resolved, _⟩
    exact alone run ((Include.resolves_iff_of_base based).mp resolved)

/-- Where cycles are detected, the expansion of a text in a chain of the workspace's files ends. -/
theorem exists_expands_detect (based : Path.absolute? w.directoryPath root = some base)
    {chain : List Path} (within : ChainWithin w.filePaths chain) :
    ∃ run, Expands w.loader base ⟨encoding, .detect⟩ chain (Include.pieces text) () run ∧
      w.expandIn chain text root ⟨encoding, .detect⟩ = run.result := by
  have absolute := Path.absolute?_eq_some w.directoryPath_isAbsolute based
  have bound := w.filePaths_card_le
  have enough : w.filePaths.card < w.tree.entries.length + 2 + chain.length := by omega
  have detect : (Settings.mk encoding .detect).cycles = .detect := rfl
  rcases Include.exists_expand detect within enough text (loader_confined absolute encoding) with
    ⟨run, expanded⟩
  refine ⟨run, .of_expand expanded, ?_⟩
  rw [expandIn, Include.resolve_of_base based, expanded]

theorem expandIn_own_detect (based : Path.absolute? w.directoryPath root = some base)
    (placed : Path.absolute? w.directoryPath path = some file)
    (readable : w.readText file encoding = .ok text) :
    w.expandIn [file] text root ⟨encoding, .detect⟩ = w.expand text root ⟨encoding, .detect⟩ ∨
      (∃ chain, w.expandIn [file] text root ⟨encoding, .detect⟩ = .error (.cycle chain)) ∧
      ∃ chain, w.expand text root ⟨encoding, .detect⟩ = .error (.cycle chain) := by
  rcases exists_expands_detect based (own_within placed readable) with
    ⟨seeded, seededDerived, seededResult⟩
  rcases exists_expands_detect based (.nil w.filePaths) with ⟨alone, aloneDerived, aloneResult⟩
  rw [expand, seededResult, aloneResult]
  by_cases aloneCyclic : ∃ chain, alone.result = .error (.cycle chain)
  · by_cases seededCyclic : ∃ chain, seeded.result = .error (.cycle chain)
    · exact .inr ⟨seededCyclic, aloneCyclic⟩
    · rw [not_exists] at seededCyclic
      have same := (Expands.own_chain_iff w.loader_answers readable seededCyclic).mp seededDerived
      exact .inl (congrArg _ (same.unique aloneDerived))
  · rw [not_exists] at aloneCyclic
    have same := (Expands.own_chain_iff w.loader_answers readable aloneCyclic).mpr aloneDerived
    exact .inl (congrArg _ (seededDerived.unique same))

/-- Given by path or by its text alone, a document is expanded to the same result, or cycles are
detected and both report one. A document that includes itself is expanded in neither way, and if
none of the directives that it leads to is faulty, a cycle is reported for its text alone. -/
theorem expandFile_agrees (given : w.readText path settings.encoding = .ok text)
    (placed : Path.absolute? w.directoryPath path = some file)
    (readable : w.readText file settings.encoding = .ok text) :
    (w.expandFile path root settings = w.expand text root settings ∨
      settings.cycles = .detect ∧
        (∃ chain, w.expandFile path root settings = .error (.cycle chain)) ∧
        ∃ chain, w.expand text root settings = .error (.cycle chain)) ∧
    ∀ base, Path.absolute? w.directoryPath root = some base → settings.cycles = .detect →
      TransGen (Links (w.readText · settings.encoding) base) file file →
        (∃ failure, w.expand text root settings = .error failure) ∧
        (∃ failure, w.expandFile path root settings = .error failure) ∧
        (Faultless (w.readText · settings.encoding) base text →
          ∃ chain, w.expand text root settings = .error (.cycle chain)) := by
  have agree : w.expandFile path root settings = w.expand text root settings ∨
      settings.cycles = .detect ∧
        (∃ chain, w.expandFile path root settings = .error (.cycle chain)) ∧
        ∃ chain, w.expand text root settings = .error (.cycle chain) := by
    cases based : Path.absolute? w.directoryPath root with
    | none =>
        have rootless : Resolves w.loader w.directoryPath root settings [] text ()
            ⟨(), [], .error (.unreadable root .emptyPath)⟩ :=
          (Include.resolves_iff_of_no_base based).mpr rfl
        rw [expandFile_of_no_base based, expand_of_resolves rootless]
        exact .inl rfl
    | some base =>
        rw [expandFile_of_base based given placed]
        obtain ⟨encoding, cycles⟩ := settings
        cases cycles with
        | detect => exact (expandIn_own_detect based placed readable).imp_right (⟨rfl, ·⟩)
        | unchecked => exact .inl (expandIn_own_unchecked based placed readable)
  refine ⟨agree, fun base based detect returns => ?_⟩
  obtain ⟨encoding, cycles⟩ := settings
  obtain rfl : cycles = .detect := detect
  obtain ⟨run, derived, result⟩ : ∃ run,
      Expands w.loader base ⟨encoding, .detect⟩ [] (Include.pieces text) () run ∧
        w.expand text root ⟨encoding, .detect⟩ = run.result :=
    exists_expands_detect based (.nil w.filePaths)
  have cyclic := Include.reachesCycle_of_returns readable returns
  cases finished : run.result with
  | ok expansion =>
      have completed : Include.Completed w.loader base ⟨encoding, .detect⟩ [] text :=
        ⟨(), run, expansion, derived, finished⟩
      exact absurd cyclic (completed.not_reachesCycle w.loader_answers rfl)
  | error failure =>
      have alone : w.expand text root ⟨encoding, .detect⟩ = .error failure := result.trans finished
      refine ⟨⟨failure, alone⟩, ?_, fun faultless => ?_⟩
      · rcases agree with same | ⟨_, ⟨chain, reported⟩, _⟩
        · exact ⟨failure, same.trans alone⟩
        · exact ⟨_, reported⟩
      · rcases derived.cycle_of_available w.loader_answers faultless.here
          (fun path next included found => faultless.follow included found) finished with
          ⟨chain, rfl⟩
        exact ⟨chain, alone⟩

def mutualFiles : Workspace where
  tree := ⟨[(["b"], .directory), (["b", "c"], .directory),
    (["b", "c", "x.yaml"], .file "{{ include y }}".toUTF8.data.toList),
    (["b", "c", "y"], .file "{{ include ./x.yaml }}".toUTF8.data.toList)]⟩
  directory := ["b"]

theorem mutualFiles_readText :
    mutualFiles.readText ⟨"/b/c/x.yaml"⟩ .utf8 = .ok "{{ include y }}".toList ∧
    mutualFiles.readText ⟨"/b/c/y"⟩ .utf8 = .ok "{{ include ./x.yaml }}".toList := ⟨rfl, rfl⟩

theorem mutualFiles_includes (next : Path) :
    (Include.Includes ⟨"/b/c"⟩ "{{ include y }}".toList next ↔ next = ⟨"/b/c/y"⟩) ∧
    (Include.Includes ⟨"/b/c"⟩ "{{ include ./x.yaml }}".toList next ↔ next = ⟨"/b/c/x.yaml"⟩) := by
  have first : Include.directives "{{ include y }}".toList =
      [⟨.start, "{{ include y }}".toList, ['y']⟩] := rfl
  have second : Include.directives "{{ include ./x.yaml }}".toList =
      [⟨.start, "{{ include ./x.yaml }}".toList, "./x.yaml".toList⟩] := rfl
  unfold Include.Includes
  rw [first, second]
  simp only [List.mem_singleton, exists_eq_left]
  exact ⟨⟨fun target => target.2.symm, fun same => ⟨by decide, same.symm⟩⟩,
    ⟨fun target => target.2.symm, fun same => ⟨by decide, same.symm⟩⟩⟩

theorem mutualFiles_faultless :
    Faultless (mutualFiles.readText · .utf8) ⟨"/b/c"⟩ "{{ include y }}".toList := by
  have available : ∀ text, text = "{{ include y }}".toList ∨ text = "{{ include ./x.yaml }}".toList →
      Include.Available (mutualFiles.readText · .utf8) ⟨"/b/c"⟩ (Include.pieces text) := by
    rintro text (rfl | rfl) d member
    · cases List.mem_singleton.mp member
      exact ⟨by decide, _, mutualFiles_readText.2⟩
    · cases List.mem_singleton.mp member
      exact ⟨by decide, _, mutualFiles_readText.1⟩
  refine ⟨available _ (.inl rfl), fun first path document included leads => ?_⟩
  have reached : path = ⟨"/b/c/x.yaml"⟩ ∨ path = ⟨"/b/c/y"⟩ := by
    induction leads with
    | refl => exact .inr ((mutualFiles_includes _).1.mp included)
    | tail _ link inductionHypothesis =>
        obtain ⟨text, found, further⟩ := link
        rcases inductionHypothesis with rfl | rfl
        · cases found.symm.trans mutualFiles_readText.1
          exact .inr ((mutualFiles_includes _).1.mp further)
        · cases found.symm.trans mutualFiles_readText.2
          exact .inl ((mutualFiles_includes _).2.mp further)
  intro found
  rcases reached with rfl | rfl
  · cases found.symm.trans mutualFiles_readText.1
    exact available _ (.inl rfl)
  · cases found.symm.trans mutualFiles_readText.2
    exact available _ (.inr rfl)

theorem expandFile_agrees_mutual :
    mutualFiles.readText ⟨"c/../c/x.yaml"⟩ .utf8 = .ok "{{ include y }}".toList ∧
    Path.absolute? mutualFiles.directoryPath ⟨"c/../c/x.yaml"⟩ = some ⟨"/b/c/x.yaml"⟩ ∧
    mutualFiles.readText ⟨"/b/c/x.yaml"⟩ .utf8 = .ok "{{ include y }}".toList ∧
    ∃ chain, mutualFiles.expand "{{ include y }}".toList ⟨"c"⟩ {} = .error (.cycle chain) := by
  have given : mutualFiles.readText ⟨"c/../c/x.yaml"⟩ .utf8 = .ok "{{ include y }}".toList := rfl
  have placed : Path.absolute? mutualFiles.directoryPath ⟨"c/../c/x.yaml"⟩ =
    some ⟨"/b/c/x.yaml"⟩ := rfl
  have returns : TransGen (Links (mutualFiles.readText · .utf8) ⟨"/b/c"⟩) ⟨"/b/c/x.yaml"⟩
      ⟨"/b/c/x.yaml"⟩ :=
    .tail (.single ⟨_, mutualFiles_readText.1, (mutualFiles_includes _).1.mpr rfl⟩)
      ⟨_, mutualFiles_readText.2, (mutualFiles_includes _).2.mpr rfl⟩
  have agree := @expandFile_agrees mutualFiles ⟨"c/../c/x.yaml"⟩ ⟨"c"⟩ ⟨"/b/c/x.yaml"⟩ {} _ given
    placed mutualFiles_readText.1
  exact ⟨given, placed, mutualFiles_readText.1,
    (agree.2 ⟨"/b/c"⟩ rfl rfl returns).2.2 mutualFiles_faultless⟩

end YamlTypes.Workspace
