import YamlTypes.Transform
import YamlTypes.Proofs.Include.Preorder
import YamlTypes.Proofs.Workspace.Expansion

/-!
What has to be watched.

The documents that a run has loaded decide it: where they are the same, the run
is the same, whatever has become of all others. So a module stays as it is while
nothing on its watch list changes. Only the place of its declaration file is
looked at besides, if one is to be written.
-/

set_option autoImplicit false

namespace YamlTypes

open Include (Settings Expansion FileFault Resolves)

namespace Workspace

theorem expand_congr {w later : Workspace} (sameDirectory : later.directory = w.directory)
    {text : List Char} {root : Path} {settings : Settings} {expansion : Expansion}
    (expanded : w.expand text root settings = .ok expansion)
    (unchanged : ∀ path ∈ expansion.referenced, later.read path = w.read path) :
    later.expand text root settings = .ok expansion := by
  rcases resolves_of_expandIn expanded (by simp) with ⟨run, resolved, succeeded⟩
  have listed := resolved.referenced_eq_loads succeeded
  have agree : ∀ path ∈ run.loads,
      later.readText path settings.encoding = w.readText path settings.encoding := by
    intro path loaded
    rw [← listed] at loaded
    rw [readText, readText, unchanged path loaded]
  rcases resolved.transfer w.loader_answers later.loader_answers agree () with
    ⟨again, againResolved, alike⟩
  have sameView : w.directoryPath = later.directoryPath := by
    rw [directoryPath, directoryPath, sameDirectory]
  rw [sameView] at againResolved
  rw [expand_of_resolves againResolved, ← alike.result, succeeded]

end Workspace

theorem documentValue_eq_ok_iff {w : Workspace} {code : String} {options : TransformOptions}
    {value : Value} {watch : List Path} :
    documentValue w code options = .ok (value, watch) ↔
      ∃ expansion, w.expandIf options.followReferences code.toList options.root options.settings =
        .ok expansion ∧ decodeDocument expansion.text = .ok value ∧
          expansion.referenced = watch := by
  unfold documentValue
  cases w.expandIf options.followReferences code.toList options.root options.settings with
  | error failure => simp [Except.bind]
  | ok expansion =>
      simp only [Except.bind, Except.ok.injEq, exists_eq_left']
      cases decodeDocument expansion.text with
      | error error => simp [Except.map]
      | ok found => simp [Except.map]

theorem expandIf_congr {w later : Workspace} (sameDirectory : later.directory = w.directory)
    {follow : Bool} {text : List Char} {root : Path} {settings : Settings} {expansion : Expansion}
    (expanded : w.expandIf follow text root settings = .ok expansion)
    (unchanged : ∀ path ∈ expansion.referenced, later.read path = w.read path) :
    later.expandIf follow text root settings = .ok expansion := by
  unfold Workspace.expandIf at expanded ⊢
  cases follow with
  | false =>
      rw [if_neg Bool.false_ne_true] at expanded ⊢
      exact expanded
  | true =>
      rw [if_pos rfl] at expanded ⊢
      cases found : w.expand text root settings with
      | error failure =>
          rw [found] at expanded
          cases expanded
      | ok same =>
          rw [found] at expanded
          cases expanded
          rw [Workspace.expand_congr sameDirectory found unchanged]
          rfl

theorem documentValue_congr {w later : Workspace} (sameDirectory : later.directory = w.directory)
    {code : String} {options : TransformOptions} {value : Value} {watch : List Path}
    (valued : documentValue w code options = .ok (value, watch))
    (unchanged : ∀ path ∈ watch, later.read path = w.read path) :
    documentValue later code options = .ok (value, watch) := by
  rw [documentValue_eq_ok_iff] at valued ⊢
  rcases valued with ⟨expansion, expanded, decoded, rfl⟩
  exact ⟨expansion, expandIf_congr sameDirectory expanded unchanged, decoded, rfl⟩

def TransformOptions.Accepts (options : TransformOptions) (id : String) : Prop :=
  Discovery.isYamlName id = true ∧
    ∃ patterns, Discovery.patterns? options.exclude = some patterns ∧
      Discovery.excludes patterns id = false

/-- A document that is not passed over has its value, and its declaration is written if it is to
be. -/
theorem transform_of_accepts {code id : String} {options : TransformOptions}
    (accepted : options.Accepts id) (w : Workspace) :
    transform code id options w =
      match documentValue w code options with
      | .error error => (.error error, w)
      | .ok (value, watch) =>
        if options.emitTypes then
          match writeDeclaration value ⟨id⟩ w with
          | (.error error, after) => (.error error, after)
          | (.ok _, after) => (.ok (some ⟨value.moduleBody, watch⟩), after)
        else (.ok (some ⟨value.moduleBody, watch⟩), w) := by
  rcases accepted with ⟨named, patterns, read, kept⟩
  unfold transform
  cases documentValue w code options with
  | error error => simp only [named, read, kept, Bool.not_true, Bool.false_eq_true, if_false]
  | ok found =>
      rcases written : writeDeclaration found.1 ⟨id⟩ w with ⟨_ | _, after⟩ <;>
        simp only [named, read, kept, written, Bool.not_true, Bool.false_eq_true, if_false]

theorem transform_of_value {w : Workspace} {code id : String} {options : TransformOptions}
    {value : Value} {watch : List Path} (accepted : options.Accepts id)
    (valued : documentValue w code options = .ok (value, watch)) :
    (options.emitTypes = false →
      transform code id options w = (.ok (some ⟨value.moduleBody, watch⟩), w)) ∧
    (options.emitTypes = true →
      (∀ path after, writeDeclaration value ⟨id⟩ w = (.ok path, after) →
        transform code id options w = (.ok (some ⟨value.moduleBody, watch⟩), after)) ∧
      ∀ error after, writeDeclaration value ⟨id⟩ w = (.error error, after) →
        transform code id options w = (.error error, after)) := by
  simp only [transform_of_accepts accepted, valued]
  refine ⟨fun plain => ?_,
    fun typed => ⟨fun path after written => ?_, fun error after failed => ?_⟩⟩
  · rw [if_neg (by simp [plain])]
  · rw [if_pos typed, written]
  · rw [if_pos typed, failed]

theorem exists_value_of_transform {w after : Workspace} {code id : String}
    {options : TransformOptions} {result : Transformed}
    (transformed : transform code id options w = (.ok (some result), after)) :
    options.Accepts id ∧ ∃ value, documentValue w code options = .ok (value, result.watch) ∧
      result.code = value.moduleBody := by
  unfold transform at transformed
  split at transformed
  next => cases transformed
  next named =>
    split at transformed
    next => cases transformed
    next patterns read =>
      split at transformed
      next => cases transformed
      next kept =>
        have accepted : options.Accepts id :=
          ⟨by simpa using named, patterns, read, by simpa using kept⟩
        split at transformed
        next => cases transformed
        next value watch valued =>
          refine ⟨accepted, value, ?_⟩
          split at transformed
          next =>
            split at transformed
            next => cases transformed
            next =>
              cases transformed
              exact ⟨valued, rfl⟩
          next =>
            cases transformed
            exact ⟨valued, rfl⟩

theorem writeDeclaration_eq (value : Value) (source : Path) (w : Workspace) :
    (∀ location, w.writable ⟨Declaration.pathText source.text⟩ = .ok location →
      ∃ after, writeDeclaration value source w =
        (.ok ⟨Declaration.pathText source.text⟩, after)) ∧
    ∀ fault, w.writable ⟨Declaration.pathText source.text⟩ = .error fault →
      writeDeclaration value source w =
        (.error (.unwritable ⟨Declaration.pathText source.text⟩ fault), w) := by
  unfold writeDeclaration Workspace.write
  constructor
  · intro location free
    simp only [free, Except.map]
    exact ⟨_, rfl⟩
  · intro fault blocked
    simp only [blocked, Except.map]

/-- Whether the declaration of a document is to be written and what stands in its way. -/
def TransformOptions.blockage? (options : TransformOptions) (id : String) (w : Workspace) :
    Option FileFault :=
  if options.emitTypes then
    match w.writable ⟨Declaration.pathText id⟩ with
    | .ok _ => none
    | .error fault => some fault
  else none

theorem transform_congr {w later after : Workspace} {code id : String}
    {options : TransformOptions} {result : Transformed}
    (transformed : transform code id options w = (.ok (some result), after))
    (sameDirectory : later.directory = w.directory)
    (unchanged : ∀ path ∈ result.watch, later.read path = w.read path) :
    (transform code id options later).1 =
      match options.blockage? id later with
      | none => .ok (some result)
      | some fault => .error (.unwritable ⟨Declaration.pathText id⟩ fault) := by
  obtain ⟨code', watch⟩ := result
  rcases exists_value_of_transform transformed with ⟨accepted, value, valued, rfl⟩
  rcases transform_of_value accepted (documentValue_congr sameDirectory valued unchanged) with
    ⟨plainly, typed⟩
  unfold TransformOptions.blockage?
  cases wanted : options.emitTypes with
  | false => rw [plainly wanted, if_neg Bool.false_ne_true]
  | true =>
      rw [if_pos rfl]
      cases place : later.writable ⟨Declaration.pathText id⟩ with
      | ok location =>
          rcases (writeDeclaration_eq value ⟨id⟩ later).1 location place with ⟨written, wrote⟩
          rw [(typed wanted).1 _ _ wrote]
      | error fault =>
          rw [(typed wanted).2 _ _ ((writeDeclaration_eq value ⟨id⟩ later).2 fault place)]

/-- A run is decided by the documents that it loads, and lists them if it succeeds. So a module and
its watch list stay the same while nothing on that list changes, except that a declaration that is
to be written needs a place. -/
theorem watched_documents_decide :
    (∀ {σ τ : Type} (loader : Include.Loader σ) (second : Include.Loader τ)
      (answer other : Path → Encoding → Except FileFault (List Char)),
      loader.Answers answer → second.Answers other →
      ∀ (directory root : Path) (settings : Settings) (text : List Char) (state : σ) (start : τ)
        (run : Include.Run σ),
        Resolves loader directory root settings [] text state run →
        (∀ path ∈ run.loads, other path settings.encoding = answer path settings.encoding) →
        (∃ again, Resolves second directory root settings [] text start again ∧
          run.Alike again) ∧
        ∀ expansion, run.result = .ok expansion → expansion.referenced = run.loads) ∧
    ∀ (w later after : Workspace) (code id : String) (options : TransformOptions)
      (result : Transformed),
      transform code id options w = (.ok (some result), after) →
      later.directory = w.directory →
      (∀ path ∈ result.watch, later.read path = w.read path) →
        (transform code id options later).1 =
          match options.blockage? id later with
          | none => .ok (some result)
          | some fault => .error (.unwritable ⟨Declaration.pathText id⟩ fault) := by
  constructor
  · intro σ τ loader second answer other steady otherSteady directory root settings text state
      start run resolved agree
    exact ⟨resolved.transfer steady otherSteady agree start,
      fun expansion succeeded => resolved.referenced_eq_loads succeeded⟩
  · intro w later after code id options result transformed sameDirectory unchanged
    exact transform_congr transformed sameDirectory unchanged

/-- A document that is included by `x.yaml`, and beside it one that is not. -/
def watchedFiles : Workspace where
  tree := ⟨[(["b"], .directory), (["b", "a"], .file "#".toUTF8.data.toList),
    (["b", "c"], .file "1".toUTF8.data.toList)]⟩
  directory := ["b"]

def watchedModule : Transformed where
  code := "const data = undefined;\nexport default data;\n"
  watch := [⟨"/b/a"⟩]

/-- A directory stands where the declaration of `x.yaml` would be. -/
def blockedFiles : Workspace :=
  { watchedFiles with tree := watchedFiles.tree.set ["b", "x.yaml.d.ts"] .directory }

/-- With its watch list unchanged a module is lost if its declaration has no place. -/
theorem transform_blocked :
    (∃ after, transform "{{ include a }}" "x.yaml"
      { emitTypes := true, followReferences := true } watchedFiles =
        (.ok (some watchedModule), after)) ∧
    (∀ path ∈ watchedModule.watch, blockedFiles.read path = watchedFiles.read path) ∧
    (transform "{{ include a }}" "x.yaml"
      { emitTypes := true, followReferences := true } blockedFiles).1 ≠
        .ok (some watchedModule) := by
  refine ⟨⟨_, rfl⟩, ?_, ?_⟩
  · intro path member
    obtain rfl := List.mem_singleton.mp member
    rfl
  · intro same
    have blocked : (transform "{{ include a }}" "x.yaml"
        { emitTypes := true, followReferences := true } blockedFiles).1 =
          .error (.unwritable ⟨"x.yaml.d.ts"⟩ .isDirectory) := rfl
    rw [blocked] at same
    cases same

def strippedFiles : Workspace where
  tree := ⟨[(["b"], .directory), (["b", "d"], .file []),
    (["b", "a"], .file "#".toUTF8.data.toList)]⟩
  directory := ["b"]

theorem watched_documents_decide_stripped :
    (∃ again, Resolves (Include.Loader.ofStore (Include.storeOf [("/b/a", "x"), ("/b/d", "y")]))
        ⟨"/"⟩ ⟨"/b"⟩ {} [] "{{ include a }}".toList () again ∧
      again.loads = [⟨"/b/a"⟩] ∧ again.result = .ok ⟨"x".toList, [⟨"/b/a"⟩]⟩) ∧
    (transform "{{ include a }}" "x.yaml"
      { emitTypes := true, followReferences := true } strippedFiles).1 =
        .ok (some watchedModule) := by
  constructor
  · have resolved : Resolves
        (Include.Loader.ofStore (Include.storeOf [("/b/c", "z"), ("/b/a", "x")])) ⟨"/"⟩ ⟨"/b"⟩ {}
        [] "{{ include a }}".toList () ⟨(), [⟨"/b/a"⟩], .ok ⟨"x".toList, [⟨"/b/a"⟩]⟩⟩ := ⟨2, by rfl⟩
    have agree : ∀ path ∈ [(⟨"/b/a"⟩ : Path)],
        Include.storeOf [("/b/a", "x"), ("/b/d", "y")] path .utf8 =
          Include.storeOf [("/b/c", "z"), ("/b/a", "x")] path .utf8 := by
      intro path member
      obtain rfl := List.mem_singleton.mp member
      rfl
    rcases (watched_documents_decide.1 _ _ _ _ (Include.Loader.ofStore_answers _)
      (Include.Loader.ofStore_answers _) _ _ _ _ _ () _ resolved agree).1 with
      ⟨again, againResolved, alike⟩
    exact ⟨again, againResolved, alike.loads.symm, alike.result.symm⟩
  · have transformed : transform "{{ include a }}" "x.yaml"
        { emitTypes := true, followReferences := true } watchedFiles =
          (.ok (some watchedModule), _) := rfl
    have unchanged : ∀ path ∈ watchedModule.watch,
        strippedFiles.read path = watchedFiles.read path := by
      intro path member
      obtain rfl := List.mem_singleton.mp member
      rfl
    exact watched_documents_decide.2 _ strippedFiles _ _ _ _ _ transformed rfl unchanged

end YamlTypes
