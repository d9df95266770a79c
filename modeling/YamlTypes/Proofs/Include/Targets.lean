import YamlTypes.Proofs.Include.Termination
import YamlTypes.Proofs.Path.Canonical
import YamlTypes.Proofs.Workspace.Expansion

/-!
The paths of documents.

Whatever an operand looks like, the document that it names has a canonical path,
and every respelling of the operand names the same one. So all paths that a run
loads, lists or compares with its chain are canonical, and no document stands under
two of them.
-/

set_option autoImplicit false

namespace YamlTypes.Include

open YamlTypes.Path (Canonical Respelled)

variable {σ : Type} {loader : Loader σ} {base : Path} {settings : Settings}

/-- Operands lead on from the base, or from the root if they are absolute. -/
theorem target_eq (absolute : base.isAbsolute = true) (operand : List Char) :
    target base operand = Path.ofNames true (Path.resolveComponents []
      (base.steps ++ (⟨String.ofList operand⟩ : Path).steps)).reverse := by
  have given : base.text ≠ "" := by
    rcases Path.isAbsolute_iff.mp absolute with ⟨rest, begins⟩
    intro empty
    rw [empty] at begins
    cases begins
  rw [target, Path.normalize_of_isAbsolute (Path.join_isAbsolute absolute _), Path.names_eq]
  by_cases rooted : (⟨String.ofList operand⟩ : Path).isAbsolute = true
  · rw [Path.join, if_pos rooted, Path.steps_eq ⟨String.ofList operand⟩, if_pos rooted,
      List.singleton_append, Path.resolveComponents_root, Path.resolveComponents]
  · rw [Path.steps_join given (Bool.not_eq_true _ ▸ rooted)]

theorem canonical_target (absolute : base.isAbsolute = true) (operand : List Char) :
    Canonical (target base operand) :=
  Path.canonical_normalize (Path.join_isAbsolute absolute _)

/-- A canonical path names itself, whatever the base is. -/
theorem target_of_canonical {path : Path} (canonical : Canonical path) (base : Path) :
    target base path.text.toList = path := by
  rw [target, String.ofList_toList, Path.join, if_pos canonical.isAbsolute, canonical.normalize]

theorem target_of_respelled (absolute : base.isAbsolute = true) {first second : List Char}
    (respelled : Respelled first second) : target base second = target base first := by
  rw [target_eq absolute, target_eq absolute, Path.resolveComponents_append,
    respelled.resolveComponents, Path.resolveComponents_append]

/-- The paths that a run has to do with: those it loads, those it lists, and those of the cycle
that it reports. -/
structure Run.Paths (run : Run σ) (P : Path → Prop) : Prop where
  loads : ∀ path ∈ run.loads, P path
  referenced : ∀ expansion, run.result = .ok expansion → ∀ path ∈ expansion.referenced, P path
  reported : ∀ chain, run.result = .error (.cycle chain) → ∀ path ∈ chain, P path

section
variable {P : Path → Prop} {chain : List Path} {ps : List Piece} {state : σ} {run : Run σ}

theorem Run.Paths.after (later : run.Paths P) {loads : List Path} {here : Expansion}
    (loaded : ∀ path ∈ loads, P path) (listed : ∀ path ∈ here.referenced, P path) :
    (run.after loads here).Paths P where
  loads := by
    intro path member
    rcases List.mem_append.mp member with first | second
    · exact loaded path first
    · exact later.loads path second
  referenced := by
    intro expansion finished path member
    rcases Run.ok_of_after_ok finished with ⟨rest, succeeded, rfl⟩
    rcases List.mem_append.mp member with first | second
    · exact listed path first
    · exact later.referenced rest succeeded path second
  reported := by
    intro chain failed
    rw [Run.after_error_iff] at failed
    exact later.reported chain failed

theorem forall_mem_concat {last : Path} (before : ∀ path ∈ chain, P path) (holds : P last) :
    ∀ path ∈ chain ++ [last], P path := by
  intro path member
  rcases List.mem_append.mp member with earlier | isLast
  · exact before path earlier
  · rwa [List.mem_singleton.mp isLast]

/-- What holds of every path that an operand names holds of all paths of a run. -/
theorem Expands.paths (each : ∀ operand, P (target base operand))
    (derived : Expands loader base settings chain ps state run) (before : ∀ path ∈ chain, P path) :
    run.Paths P := by
  induction derived with
  | nil => exact ⟨nofun, fun expansion finished => by cases finished; exact nofun, nofun⟩
  | char _ inductionHypothesis => exact (inductionHypothesis before).after nofun nofun
  | @refused chain d rest state failure refused =>
      refine ⟨nofun, nofun, ?_⟩
      intro reported same
      obtain rfl := Except.error.inj same
      rcases refusal?_eq_some_iff.mp refused with ⟨-, other⟩ | ⟨-, -, -, cyclic⟩
      · cases other
      · obtain rfl := Failure.cycle.inj cyclic
        exact forall_mem_concat before (each d.operand)
  | @unreadable chain d rest state next fault allowed loaded =>
      refine ⟨?_, nofun, nofun⟩
      intro path member
      rw [List.mem_singleton.mp member]
      exact each d.operand
  | @failed chain d rest state text next inner failure opens nested finished inductionHypothesis =>
      have within := inductionHypothesis (forall_mem_concat before (each d.operand))
      refine ⟨?_, nofun, ?_⟩
      · exact List.forall_mem_cons.mpr ⟨each d.operand, within.loads⟩
      · intro reported same
        obtain rfl := Except.error.inj same
        exact within.reported reported finished
  | @included chain d rest state text next inner expansion run opens nested finished later
      innerHypothesis laterHypothesis =>
      have within := innerHypothesis (forall_mem_concat before (each d.operand))
      apply (laterHypothesis before).after
      · exact List.forall_mem_cons.mpr ⟨each d.operand, within.loads⟩
      · exact List.forall_mem_cons.mpr ⟨each d.operand, within.referenced expansion finished⟩

/-- It holds of the chains too in which texts are expanded. -/
theorem Calls.paths (each : ∀ operand, P (target base operand)) {longer : List Path}
    {document : List Char} {later : σ}
    (calls : Calls loader base settings chain ps state longer document later)
    (before : ∀ path ∈ chain, P path) : ∀ path ∈ longer, P path := by
  induction calls with
  | char _ inductionHypothesis => exact inductionHypothesis before
  | here => exact forall_mem_concat before (each _)
  | nested _ _ inductionHypothesis =>
      exact inductionHypothesis (forall_mem_concat before (each _))
  | passed _ _ _ _ inductionHypothesis => exact inductionHypothesis before

end

/-- Every operand names a canonical path, which no base and no respelling changes. So the paths of
a run are canonical, those of the chains in it too, and two of them never lead to one place. -/
theorem targets_canonical :
    (∀ base : Path, base.isAbsolute = true →
      (∀ operand, Canonical (target base operand) ∧
        (target base operand).normalize = target base operand ∧
        ∀ other, target other (target base operand).text.toList = target base operand) ∧
      (∀ first second, Relation.EqvGen Respelled first second →
        target base first = target base second) ∧
      ∀ (σ : Type) (loader : Loader σ) (settings : Settings) (depth : Nat) (chain : List Path)
        (text : List Char) (state : σ), (∀ path ∈ chain, Canonical path) →
        (∀ run, expand loader base settings depth chain text state = some run →
          run.Paths Canonical) ∧
        ∀ longer document later,
          Calls loader base settings chain (pieces text) state longer document later →
            ∀ path ∈ longer, Canonical path) ∧
    ∀ (w : Workspace) (first second : Path) (location : Location), Canonical first →
      Canonical second → w.locate first = .ok location → w.locate second = .ok location →
        first = second := by
  refine ⟨fun base absolute => ⟨fun operand => ?_, ?_, ?_⟩, ?_⟩
  · have canonical := canonical_target absolute operand
    exact ⟨canonical, canonical.normalize, target_of_canonical canonical⟩
  · intro first second respelled
    induction respelled with
    | rel first second once => exact (target_of_respelled absolute once).symm
    | refl => rfl
    | symm _ _ _ inductionHypothesis => exact inductionHypothesis.symm
    | trans _ _ _ _ _ toMiddle fromMiddle => exact toMiddle.trans fromMiddle
  · intro σ loader settings depth chain text state before
    constructor
    · intro run expanded
      exact (Expands.of_expand expanded).paths (canonical_target absolute) before
    · intro longer document later calls
      exact calls.paths (canonical_target absolute) before
  · intro w first second location isFirst isSecond located alsoLocated
    rw [isFirst.eq_ofNames] at located
    rw [isSecond.eq_ofNames] at alsoLocated
    rw [isFirst.eq_ofNames, isSecond.eq_ofNames, ← Workspace.locate_ofNames isFirst.ordinary located,
      ← Workspace.locate_ofNames isSecond.ordinary alsoLocated]

def detouredFiles : Workspace where
  tree := ⟨[(["c"], .directory), (["c", "x"], .file [])]⟩
  directory := []

theorem respelled_detour :
    Relation.EqvGen Respelled "../../c/x".toList "../.././d/../c/x/".toList := by
  have behind : Path.Boundary "../../".toList "c/x".toList := .inl rfl
  have further : Path.Boundary "../.././".toList "c/x".toList := .inl rfl
  have ordinary : Path.Ordinary "d" := by decide
  have pointed : Respelled "../../c/x".toList "../.././c/x".toList := .point behind
  have around : Respelled "../.././c/x".toList "../.././d/../c/x".toList := .detour further ordinary
  have closed : Respelled "../.././d/../c/x".toList "../.././d/../c/x/".toList :=
    .trailing (by decide)
  exact .trans _ _ _ (.rel _ _ pointed) (.trans _ _ _ (.rel _ _ around) (.rel _ _ closed))

theorem targets_canonical_detoured :
    (⟨"/b"⟩ : Path).isAbsolute = true ∧
    Relation.EqvGen Respelled "../../c/x".toList "../.././d/../c/x/".toList ∧
    target ⟨"/b"⟩ "../../c/x".toList = target ⟨"/b"⟩ "../.././d/../c/x/".toList ∧
    (∃ run, expand detouredFiles.loader ⟨"/b"⟩ {} 2 [] "{{ include ../../c/x }}".toList () =
        some run ∧ run.loads = [⟨"/c/x"⟩] ∧ run.Paths Canonical) ∧
    detouredFiles.locate ⟨"/c/x"⟩ = .ok ["c", "x"] ∧
    detouredFiles.locate (target ⟨"/b"⟩ "../.././d/../c/x/".toList) = .ok ["c", "x"] ∧
    ⟨"/c/x"⟩ = target ⟨"/b"⟩ "../.././d/../c/x/".toList := by
  have absolute : (⟨"/b"⟩ : Path).isAbsolute = true := rfl
  rcases targets_canonical.1 ⟨"/b"⟩ absolute with ⟨named, alike, paths⟩
  have located : detouredFiles.locate ⟨"/c/x"⟩ = .ok ["c", "x"] := rfl
  have again : detouredFiles.locate (target ⟨"/b"⟩ "../.././d/../c/x/".toList) =
      .ok ["c", "x"] := rfl
  have spelled : target ⟨"/b"⟩ "../../c/x".toList = ⟨"/c/x"⟩ := rfl
  have canonical : Canonical ⟨"/c/x"⟩ := spelled ▸ (named "../../c/x".toList).1
  have run := (paths Unit detouredFiles.loader {} 2 [] "{{ include ../../c/x }}".toList () nofun).1
  exact ⟨absolute, respelled_detour, alike _ _ respelled_detour, ⟨_, rfl, rfl, run _ rfl⟩,
    located, again, targets_canonical.2 detouredFiles _ _ _ canonical (named _).1 located again⟩

end YamlTypes.Include
