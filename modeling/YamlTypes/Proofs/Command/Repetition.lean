import YamlTypes.Proofs.Command.Generation
import YamlTypes.Proofs.Discovery.Unseen

/-!
Generating again.

A file has the same value again if it and the documents that it includes are
still the same. So a run whose includes lead to none of the declarations that it
writes comes to the same declarations when it is repeated, finds the same files
and leaves everything as it is.
-/

set_option autoImplicit false

namespace YamlTypes

open Include (Settings Expansion)

namespace Workspace

variable {w : Workspace} {text : List Char} {root : Path} {settings : Settings}
  {expansion : Expansion} {path : Path}

def expansionLoads (w : Workspace) (text : List Char) (root : Path) (settings : Settings) :
    List Path :=
  match Include.resolve w.loader w.directoryPath root settings (w.tree.entries.length + 2) [] text
      () with
  | none => []
  | some run => run.loads

theorem expand_loads (expanded : w.expand text root settings = .ok expansion) :
    expansion.referenced = w.expansionLoads text root settings ∧
      ∀ path ∈ expansion.referenced, ∃ document,
        w.readText path settings.encoding = .ok document := by
  unfold expand expandIn at expanded
  unfold expansionLoads
  cases computed : Include.resolve w.loader w.directoryPath root settings
      (w.tree.entries.length + 2) [] text () with
  | none =>
      rw [computed] at expanded
      cases expanded
  | some run =>
      rw [computed] at expanded
      have resolved : Include.Resolves w.loader w.directoryPath root settings [] text () run :=
        ⟨_, computed⟩
      have listed := resolved.referenced_eq_loads expanded
      refine ⟨listed, ?_⟩
      intro path loaded
      rw [listed] at loaded
      exact resolved.answered w.loader_answers expanded loaded

end Workspace

namespace Command

open Declaration (beside)
open Discovery (isYamlName)

variable {options : GenerateOptions} {w later after : Workspace} {file path : Path} {value : Value}
  {place location : Location} {done rest front back : List Path}

def fileLoads (options : GenerateOptions) (file : Path) (w : Workspace) : List Path :=
  match w.readText file options.resolve.encoding with
  | .error _ => []
  | .ok text =>
    if options.followReferences then w.expansionLoads text options.root options.resolve else []

def generationLoads (options : GenerateOptions) : List Path → Workspace → List Path
  | [], _ => []
  | file :: rest, w =>
    fileLoads options file w ++
      match generateDeclaration file options w with
      | (.error _, _) => []
      | (.ok _, after) => generationLoads options rest after

def searched (directory : Path) (exclude : String) (w : Workspace) : List Path :=
  match Discovery.patterns? (Discovery.splitList exclude) with
  | none => []
  | some patterns => Discovery.find w directory patterns

theorem expandIf_loads {follow : Bool} {text : List Char} {root : Path} {settings : Settings}
    {expansion : Expansion} (expanded : w.expandIf follow text root settings = .ok expansion) :
    expansion.referenced = (if follow then w.expansionLoads text root settings else []) ∧
      ∀ path ∈ expansion.referenced, ∃ document,
        w.readText path settings.encoding = .ok document := by
  unfold Workspace.expandIf at expanded
  cases follow with
  | false =>
      cases expanded
      exact ⟨rfl, nofun⟩
  | true =>
      rw [if_pos rfl] at expanded ⊢
      cases found : w.expand text root settings with
      | error failure =>
          rw [found] at expanded
          cases expanded
      | ok same =>
          rw [found] at expanded
          cases expanded
          exact Workspace.expand_loads found

/-- A file that has a value has it where it is the same, and the documents it loads are. -/
theorem fileValue_congr (sameDirectory : later.directory = w.directory)
    (valued : fileValue w file options = .ok value)
    (source : later.readText file options.resolve.encoding =
      w.readText file options.resolve.encoding)
    (unchanged : ∀ path ∈ fileLoads options file w,
      (∃ document, w.readText path options.resolve.encoding = .ok document) →
        later.read path = w.read path) :
    fileValue later file options = .ok value := by
  unfold fileValue at valued ⊢
  unfold fileLoads at unchanged
  rw [source]
  cases readable : w.readText file options.resolve.encoding with
  | error fault =>
      rw [readable] at valued
      cases valued
  | ok text =>
      rw [readable] at valued unchanged
      dsimp only at valued unchanged ⊢
      cases expanded : w.expandIf options.followReferences text options.root options.resolve with
      | error failure =>
          rw [expanded] at valued
          cases valued
      | ok expansion =>
          rw [expanded] at valued
          rcases expandIf_loads expanded with ⟨listed, available⟩
          rw [expandIf_congr sameDirectory expanded]
          · exact valued
          · intro path loaded
            exact unchanged path (listed ▸ loaded) (available path loaded)

theorem Declares.generated (declares : Declares options w file value place) :
    generateDeclaration file options w = (.ok (beside file), w.declare place value) := by
  unfold generateDeclaration
  rw [declares.valued]
  exact writeDeclaration_of_writable declares.free value

theorem Generates.mem_generationLoads (before : Generates options w front later)
    (loaded : path ∈ fileLoads options file later) :
    path ∈ generationLoads options (front ++ file :: back) w := by
  induction before with
  | nil => exact List.mem_append_left _ loaded
  | cons declares _ inductionHypothesis =>
      rw [List.cons_append, generationLoads, declares.generated]
      exact List.mem_append_right _ (inductionHypothesis loaded)

theorem Generates.grows (generates : Generates options w done after) : Discovery.Grows w after := by
  induction generates with
  | nil => exact ⟨.refl _, fun _ found => found⟩
  | cons declares _ inductionHypothesis =>
      refine ⟨declares.sameDirectories.trans inductionHypothesis.sameDirectories, ?_⟩
      intro location found
      apply inductionHypothesis.kept
      rw [declares.get?]
      split
      next => rfl
      next => exact found

theorem Generates.yamlFilesBelow (generates : Generates options w done after)
    (yaml : ∀ file ∈ done, isYamlName file.text = true) (location : Location) :
    Discovery.yamlFilesBelow after location = Discovery.yamlFilesBelow w location := by
  induction generates with
  | nil => rfl
  | cons declares _ inductionHypothesis =>
      rw [inductionHypothesis (fun f member => yaml f (List.mem_cons_of_mem _ member))]
      apply Discovery.yamlFilesBelow_set
      rw [declares.place_eq]
      exact Declaration.isYamlName_place_beside (yaml _ List.mem_cons_self)

theorem Generates.find {directory : Path} {patterns : List Pattern} (named : w.tree.Named)
    (generates : Generates options w (Discovery.find w directory patterns) after) :
    Discovery.find after directory patterns = Discovery.find w directory patterns := by
  by_cases found : Discovery.find w directory patterns = []
  · rw [found] at generates
    cases generates
    rfl
  · have yaml : ∀ file ∈ Discovery.find w directory patterns, isYamlName file.text = true :=
      fun file member => Discovery.isYamlName_of_mem_find named member
    apply Discovery.find_congr generates.grows (generates.yamlFilesBelow yaml) _ found
    intro path isYaml
    rw [Workspace.isFile, Workspace.isFile, generates.entry?_of_isYamlName yaml isYaml]

/-- Where everything is declared already, a run changes nothing. -/
theorem generateAll_of_declared {files : List Path}
    (declared : ∀ file ∈ files, ∃ value place, Declares options w file value place ∧
      w.declare place value = w) :
    generateAll options files w = (⟨announcements files, none⟩, w) := by
  induction files with
  | nil => rfl
  | cons file files inductionHypothesis =>
      rcases declared file List.mem_cons_self with ⟨value, place, declares, same⟩
      have generated := declares.generated
      rw [same] at generated
      have others := inductionHypothesis fun f member => declared f (List.mem_cons_of_mem _ member)
      simp only [generateAll, generated, others, announcements_cons]

/-- A declared file is declared alike at the end of the run, if no declaration took the place of a
document that it loads. -/
theorem Generates.declares_after (generates : Generates options w done after)
    (yaml : ∀ file ∈ done, isYamlName file.text = true)
    (apart : done.Pairwise fun a b => w.place (beside a) ≠ w.place (beside b))
    (spared : ∀ path ∈ generationLoads options done w, ∀ file ∈ done,
      after.locate path ≠ after.locate (beside file))
    (member : file ∈ done) :
    ∃ value place, Declares options after file value place ∧ after.declare place value = after := by
  rcases generates.exists_declares apart member with
    ⟨front, back, current, value, place, whole, first, declares, second, kept⟩
  have remaining : Generates options current (file :: back) after := .cons declares second
  have yamlRemaining : ∀ f ∈ file :: back, isYamlName f.text = true := by
    intro f isRemaining
    apply yaml
    rw [whole]
    exact List.mem_append_right _ isRemaining
  have same := remaining.sameDirectories
  have free := same.writable declares.free
  have unchanged : ∀ path ∈ fileLoads options file current,
      (∃ document, current.readText path options.resolve.encoding = .ok document) →
        after.read path = current.read path := by
    rintro path loaded ⟨document, readable⟩
    rcases Workspace.exists_locate_of_readText readable with ⟨location, located⟩
    apply same.read located
    apply remaining.get?_of_writable_ne
    intro f isRemaining written
    apply spared path (whole ▸ first.mem_generationLoads loaded) f
      (whole ▸ List.mem_append_right _ isRemaining)
    rw [same.locate located, same.locate (Workspace.locate_of_writable written).1]
  have source : after.readText file options.resolve.encoding =
      current.readText file options.resolve.encoding := by
    have valued := declares.valued
    unfold fileValue at valued
    cases readable : current.readText file options.resolve.encoding with
    | error fault =>
        rw [readable] at valued
        cases valued
    | ok text =>
        exact (remaining.readText_iff yamlRemaining (yaml file member)).mpr readable
  refine ⟨value, place, ⟨fileValue_congr same.directory declares.valued source unchanged, free⟩, ?_⟩
  rw [Workspace.declare, FileTree.set_of_get? (Workspace.ne_root_of_writable free) kept]

/-- A run that succeeds and whose includes lead to none of the declarations that it has written can
be repeated: it finds the same files, prints the same and changes nothing. -/
theorem generate_repeats {w after : Workspace} {directory : Path} {exclude : String} {follow : Bool}
    {includes : IncludeOptions} {stdin : List UInt8} {outcome : Outcome} (named : w.tree.Named)
    (ran : run (.generate directory exclude follow includes) stdin w = (outcome, after))
    (succeeded : outcome.status = 0)
    (spared : ∀ path ∈ generationLoads ⟨follow, includes.root, includes.settings⟩
      (searched directory exclude w) w, ∀ file ∈ searched directory exclude w,
        after.locate path ≠ after.locate (beside file)) :
    searched directory exclude after = searched directory exclude w ∧
      ∀ again,
        run (.generate directory exclude follow includes) again after = (outcome, after) := by
  cases compiled : Discovery.patterns? (Discovery.splitList exclude) with
  | none =>
      simp only [run, compiled] at ran
      cases ran
      cases succeeded
  | some patterns =>
      simp only [searched, compiled] at spared ⊢
      simp only [run, compiled] at ran ⊢
      rcases generateAll_cases ⟨follow, includes.root, includes.settings⟩
        (Discovery.find w directory patterns) w with
        ⟨done, rest, last, split, generates, ⟨rfl, passed⟩ | ⟨_, _, _, _, _, stopped⟩⟩
      · rw [List.append_nil] at split
        subst split
        cases passed.symm.trans ran
        have found := generates.find named
        refine ⟨found, fun _ => ?_⟩
        rw [found]
        apply generateAll_of_declared
        intro file member
        exact generates.declares_after
          (fun f isFound => Discovery.isYamlName_of_mem_find named isFound)
          (find_apart named directory patterns) spared member
      · cases stopped.symm.trans ran
        cases succeeded

theorem generate_repeats_declaredFiles :
    ∃ after, run (.generate ⟨"."⟩ "" true {}) [] declaredFiles =
        (⟨"Generating type file for ./x.yaml\n", none⟩, after) ∧
      after.tree.get? ["b", "x.yaml.d.ts"] = some (.file (Declaration.bytes .undefined)) ∧
      run (.generate ⟨"."⟩ "" true {}) [] after =
        (⟨"Generating type file for ./x.yaml\n", none⟩, after) := by
  have compiled : Discovery.patterns? (Discovery.splitList "") = some [] := rfl
  have found : searched ⟨"."⟩ "" declaredFiles = [⟨"./x.yaml"⟩] := by
    simp only [searched, compiled, find_declaredFiles]
  have ran : run (.generate ⟨"."⟩ "" true {}) [] declaredFiles =
      (⟨"Generating type file for ./x.yaml\n", none⟩,
        declaredFiles.declare ["b", "x.yaml.d.ts"] .undefined) := by
    simp only [run, compiled, find_declaredFiles]
    rfl
  have loads : generationLoads ⟨true, ⟨"."⟩, {}⟩ [⟨"./x.yaml"⟩] declaredFiles = [⟨"/b/a"⟩] := rfl
  refine ⟨_, ran, rfl, (generate_repeats declaredFiles_named ran rfl ?_).2 []⟩
  intro path loaded file isFound
  rw [found] at loaded isFound
  change path ∈ generationLoads ⟨true, ⟨"."⟩, {}⟩ [⟨"./x.yaml"⟩] declaredFiles at loaded
  rw [loads] at loaded
  obtain rfl := List.mem_singleton.mp loaded
  obtain rfl := List.mem_singleton.mp isFound
  decide

end Command

end YamlTypes
