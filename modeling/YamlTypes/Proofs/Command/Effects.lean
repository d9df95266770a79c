import YamlTypes.Proofs.Command.Generation
import YamlTypes.Proofs.Workspace.GivenByPath

/-!
What work leaves behind.

Making a module and generating a declaration either fail and change nothing, or
succeed with one change at most, the declaration beside the document. It is written
last, so nothing can fail any more once it stands. An expansion that never ends
counts as a failure, and there is none where cycles are detected.
-/

set_option autoImplicit false

namespace YamlTypes

open Include (Settings Expansion)
open Declaration (beside)

namespace Workspace

structure Decodes (w : Workspace) (follow : Bool) (text : List Char) (root : Path)
    (settings : Settings) (expansion : Expansion) (value : Value) : Prop where
  expanded : w.expandIf follow text root settings = .ok expansion
  decoded : Yaml.decode? expansion.text = some value

/-- The declaration of a value stands beside its source, and nothing else is different. -/
structure Declared (w : Workspace) (source : Path) (value : Value) (after : Workspace) : Prop where
  stored : after.read (beside source) = .ok (Declaration.bytes value)
  only : ∃ place, w.locate (beside source) = .ok place ∧
    ∀ location, location ≠ place → after.tree.get? location = w.tree.get? location
  sameDirectory : after.directory = w.directory

variable {w : Workspace} {source : Path} {place : Location} {text : List Char} {root : Path}
  {settings : Settings}

theorem declared_declare (free : w.writable (beside source) = .ok place) (value : Value) :
    w.Declared source value (w.declare place value) where
  stored := read_of_write (write_of_writable free _)
  only := by
    refine ⟨place, (locate_of_writable free).1, ?_⟩
    intro location other
    have below := ne_root_of_writable free
    rw [declare, FileTree.get?_set below, if_neg other]
  sameDirectory := rfl

theorem expandIf_ne_endless {follow : Bool}
    (endless : w.expandIf follow text root settings = .error (.include .endless)) :
    follow = true ∧ settings.cycles = .unchecked := by
  unfold expandIf at endless
  cases follow with
  | false => cases endless
  | true =>
      refine ⟨rfl, ?_⟩
      rw [if_pos rfl] at endless
      obtain ⟨encoding, cycles⟩ := settings
      cases cycles with
      | unchecked => rfl
      | detect =>
          have never : w.expand text root ⟨encoding, .detect⟩ ≠ .error .endless := by
            cases based : Path.absolute? w.directoryPath root with
            | none =>
                have stopped : Include.Resolves w.loader w.directoryPath root ⟨encoding, .detect⟩ []
                    text () ⟨(), [], .error (.unreadable root .emptyPath)⟩ :=
                  (Include.resolves_iff_of_no_base based).mpr rfl
                rw [expand_of_resolves stopped]
                exact nofun
            | some base =>
                rcases exists_expands_detect based (.nil w.filePaths) with ⟨run, derived, result⟩
                rw [expand, result]
                exact derived.result_ne_endless
          cases expanded : w.expand text root ⟨encoding, .detect⟩ with
          | ok expansion =>
              rw [expanded] at endless
              cases endless
          | error failure =>
              rw [expanded] at endless never
              obtain rfl : failure = .endless := Error.include.inj (Except.error.inj endless)
              exact absurd rfl never

end Workspace

/-- The ways in which the transformation of a document can end. -/
inductive Transforms (w : Workspace) (code id : String) (options : TransformOptions) :
    Except Error (Option Transformed) → Workspace → Prop
  | passedOver : ¬options.Accepts id → Transforms w code id options (.ok none) w
  | badPattern : ¬options.Accepts id → Transforms w code id options (.error .badPattern) w
  | undecoded {error : Error} : documentValue w code options = .error error →
      Transforms w code id options (.error error) w
  | unwritable {fault : Include.FileFault} : options.emitTypes = true →
      w.writable (beside ⟨id⟩) = .error fault →
      Transforms w code id options (.error (.unwritable (beside ⟨id⟩) fault)) w
  | plain {value : Value} {watch : List Path} :
      documentValue w code options = .ok (value, watch) → options.emitTypes = false →
      Transforms w code id options (.ok (some ⟨value.moduleBody, watch⟩)) w
  | declared {value : Value} {watch : List Path} {place : Location} :
      documentValue w code options = .ok (value, watch) → options.emitTypes = true →
      w.writable (beside ⟨id⟩) = .ok place →
      Transforms w code id options (.ok (some ⟨value.moduleBody, watch⟩)) (w.declare place value)

theorem transform_of_not_accepts {w : Workspace} {code id : String} {options : TransformOptions}
    (refused : ¬options.Accepts id) :
    transform code id options w = (.ok none, w) ∨
      transform code id options w = (.error .badPattern, w) := by
  unfold transform
  split
  next => exact .inl rfl
  next named =>
    split
    next => exact .inr rfl
    next patterns read =>
      split
      next => exact .inl rfl
      next kept =>
        rw [Bool.not_eq_true', Bool.not_eq_false] at named
        exact absurd ⟨named, patterns, read, Bool.eq_false_iff.mpr kept⟩ refused

theorem transforms (w : Workspace) (code id : String) (options : TransformOptions) :
    Transforms w code id options (transform code id options w).1
      (transform code id options w).2 := by
  by_cases accepted : options.Accepts id
  · cases valued : documentValue w code options with
    | error error =>
        rw [transform_of_accepts accepted, valued]
        exact .undecoded valued
    | ok found =>
        obtain ⟨value, watch⟩ := found
        rcases transform_of_value accepted valued with ⟨plain, typed⟩
        cases wanted : options.emitTypes with
        | false =>
            rw [plain wanted]
            exact .plain valued wanted
        | true =>
            cases free : w.writable (beside ⟨id⟩) with
            | ok place =>
                rw [(typed wanted).1 _ _ (Command.writeDeclaration_of_writable free value)]
                exact .declared valued wanted free
            | error fault =>
                rw [(typed wanted).2 _ _ ((writeDeclaration_eq value ⟨id⟩ w).2 fault free)]
                exact .unwritable wanted free
  · rcases transform_of_not_accepts accepted with passed | bad
    · rw [passed]
      exact .passedOver accepted
    · rw [bad]
      exact .badPattern accepted

theorem documentValue_eq_ok_iff_decodes {w : Workspace} {code : String}
    {options : TransformOptions} {value : Value} {watch : List Path} :
    documentValue w code options = .ok (value, watch) ↔
      ∃ expansion, w.Decodes options.followReferences code.toList options.root options.settings
        expansion value ∧ expansion.referenced = watch := by
  rw [documentValue_eq_ok_iff]
  constructor
  · rintro ⟨expansion, expanded, decoded, listed⟩
    exact ⟨expansion, ⟨expanded, Command.decodeDocument_eq_ok_iff.mp decoded⟩, listed⟩
  · rintro ⟨expansion, decodes, listed⟩
    exact ⟨expansion, decodes.expanded, Command.decodeDocument_eq_ok_iff.mpr decodes.decoded,
      listed⟩

theorem error_of_bind {α β : Type} {first : Except Error α} {next : α → Except Error β}
    {error : Error} (failed : first.bind next = .error error) :
    first = .error error ∨ ∃ result, next result = .error error := by
  cases first with
  | error other => exact .inl (congrArg _ (Except.error.inj failed))
  | ok result => exact .inr ⟨result, failed⟩

theorem eq_notYaml_of_decodeDocument {text : List Char} {error : Error}
    (failed : decodeDocument text = .error error) : error = .notYaml := by
  unfold decodeDocument at failed
  split at failed
  next => exact (Except.error.inj failed).symm
  next => cases failed

theorem documentValue_endless {w : Workspace} {code : String} {options : TransformOptions}
    (endless : documentValue w code options = .error (.include .endless)) :
    options.followReferences = true ∧ options.cycles = .unchecked := by
  rcases error_of_bind endless with unexpanded | ⟨expansion, undecoded⟩
  · exact Workspace.expandIf_ne_endless unexpanded
  · cases decoded : decodeDocument expansion.text with
    | ok value =>
        rw [decoded] at undecoded
        cases undecoded
    | error error =>
        obtain rfl := eq_notYaml_of_decodeDocument decoded
        rw [decoded] at undecoded
        cases undecoded

theorem fileValue_endless {w : Workspace} {path : Path} {options : GenerateOptions}
    (endless : fileValue w path options = .error (.include .endless)) :
    options.followReferences = true ∧ options.resolve.cycles = .unchecked := by
  unfold fileValue at endless
  split at endless
  next => cases endless
  next text readable =>
    rcases error_of_bind endless with unexpanded | ⟨expansion, undecoded⟩
    · exact Workspace.expandIf_ne_endless unexpanded
    · cases eq_notYaml_of_decodeDocument undecoded

theorem fileValue_eq_ok_iff_decodes {w : Workspace} {path : Path} {options : GenerateOptions}
    {value : Value} :
    fileValue w path options = .ok value ↔
      ∃ text expansion, w.readText path options.resolve.encoding = .ok text ∧
        w.Decodes options.followReferences text options.root options.resolve expansion value := by
  unfold fileValue
  cases w.readText path options.resolve.encoding with
  | error fault =>
      apply iff_of_false nofun
      rintro ⟨text, expansion, readable, -⟩
      cases readable
  | ok text =>
      constructor
      · intro valued
        cases expanded : w.expandIf options.followReferences text options.root options.resolve with
        | error error =>
            simp only [expanded] at valued
            cases valued
        | ok expansion =>
            simp only [expanded] at valued
            exact ⟨text, expansion, rfl, expanded, Command.decodeDocument_eq_ok_iff.mp valued⟩
      · rintro ⟨same, expansion, readable, decodes⟩
        obtain rfl := Except.ok.inj readable
        simp only [decodes.expanded, Except.bind]
        exact Command.decodeDocument_eq_ok_iff.mpr decodes.decoded

section
variable {w after : Workspace} {code id : String} {options : TransformOptions}
  {result : Except Error (Option Transformed)} {error : Error}

theorem not_writable_of_fault {value : Value} {source : Path} {fault : Include.FileFault}
    (blocked : w.writable (beside source) = .error fault) :
    ¬∃ written, (writeDeclaration value source w).1 = .ok written := by
  rintro ⟨written, wrote⟩
  rw [(writeDeclaration_eq value source w).2 fault blocked] at wrote
  cases wrote

theorem Transforms.unchanged_of_error (came : Transforms w code id options (.error error) after) :
    after = w ∧ (error = .include .endless →
      options.followReferences = true ∧ options.cycles = .unchecked) := by
  cases came with
  | badPattern => exact ⟨rfl, nofun⟩
  | undecoded failed => exact ⟨rfl, fun endless => documentValue_endless (endless ▸ failed)⟩
  | unwritable => exact ⟨rfl, nofun⟩

theorem Transforms.unchanged_of_none (came : Transforms w code id options (.ok none) after) :
    after = w := by
  cases came
  rfl

theorem Transforms.unchanged_of_plain (came : Transforms w code id options result after)
    (plain : options.emitTypes = false) : after = w := by
  cases came with
  | passedOver | badPattern | undecoded | unwritable | plain => rfl
  | declared _ typed => cases plain.symm.trans typed

theorem Transforms.exists_decodes {done : Transformed}
    (came : Transforms w code id options (.ok (some done)) after) :
    ∃ expansion value,
      w.Decodes options.followReferences code.toList options.root options.settings expansion value ∧
      done = ⟨value.moduleBody, expansion.referenced⟩ ∧
      (options.emitTypes = true → w.Declared ⟨id⟩ value after) := by
  cases came with
  | @plain value watch valued plain =>
      rcases documentValue_eq_ok_iff_decodes.mp valued with ⟨expansion, decodes, rfl⟩
      refine ⟨expansion, value, decodes, rfl, ?_⟩
      intro typed
      cases plain.symm.trans typed
  | @declared value watch place valued _ free =>
      rcases documentValue_eq_ok_iff_decodes.mp valued with ⟨expansion, decodes, rfl⟩
      exact ⟨expansion, value, decodes, rfl, fun _ => Workspace.declared_declare free value⟩

/-- A document that is not passed over, that has a value and whose declaration is written if it is
to be, becomes a module. -/
theorem Transforms.eq_ok {expansion : Expansion} {value : Value}
    (came : Transforms w code id options result after) (accepted : options.Accepts id)
    (decodes : w.Decodes options.followReferences code.toList options.root options.settings
      expansion value)
    (writes : options.emitTypes = true →
      ∃ written, (writeDeclaration value ⟨id⟩ w).1 = .ok written) :
    result = .ok (some ⟨value.moduleBody, expansion.referenced⟩) := by
  have valued := documentValue_eq_ok_iff_decodes.mpr ⟨expansion, decodes, rfl⟩
  cases came with
  | passedOver refused | badPattern refused => exact absurd accepted refused
  | undecoded failed => cases failed.symm.trans valued
  | unwritable typed blocked => exact absurd (writes typed) (not_writable_of_fault blocked)
  | plain same | declared same =>
      cases same.symm.trans valued
      rfl

end

theorem generateDeclaration_of_error {w : Workspace} {path : Path} {options : GenerateOptions}
    {error : Error} (failed : (generateDeclaration path options w).1 = .error error) :
    (generateDeclaration path options w).2 = w ∧ (error = .include .endless →
      options.followReferences = true ∧ options.resolve.cycles = .unchecked) := by
  unfold generateDeclaration at failed ⊢
  cases valued : fileValue w path options with
  | error other =>
      simp only [valued] at failed
      obtain rfl := Except.error.inj failed
      exact ⟨rfl, fun endless => fileValue_endless (endless ▸ valued)⟩
  | ok value =>
      simp only [valued] at failed ⊢
      cases free : w.writable (beside path) with
      | ok place =>
          rw [Command.writeDeclaration_of_writable free] at failed
          cases failed
      | error fault =>
          rw [(writeDeclaration_eq value path w).2 fault free] at failed ⊢
          obtain rfl := Except.error.inj failed
          exact ⟨rfl, nofun⟩

theorem generateDeclaration_of_ok {w : Workspace} {path written : Path} {options : GenerateOptions}
    (succeeded : (generateDeclaration path options w).1 = .ok written) :
    written = beside path ∧ ∃ text expansion value,
      w.readText path options.resolve.encoding = .ok text ∧
      w.Decodes options.followReferences text options.root options.resolve expansion value ∧
      w.Declared path value (generateDeclaration path options w).2 := by
  rcases Command.generateDeclaration_cases options path w with
    ⟨value, place, declares, generated⟩ | ⟨error, -, failed⟩
  · rcases fileValue_eq_ok_iff_decodes.mp declares.valued with ⟨text, expansion, readable, decodes⟩
    rw [generated] at succeeded ⊢
    exact ⟨(Except.ok.inj succeeded).symm, text, expansion, value, readable, decodes,
      Workspace.declared_declare declares.free value⟩
  · rw [failed] at succeeded
    cases succeeded

theorem generateDeclaration_of_decodes {w : Workspace} {path : Path} {options : GenerateOptions}
    {text : List Char} {expansion : Expansion} {value : Value}
    (readable : w.readText path options.resolve.encoding = .ok text)
    (decodes : w.Decodes options.followReferences text options.root options.resolve expansion value)
    (writes : ∃ written, (writeDeclaration value path w).1 = .ok written) :
    (generateDeclaration path options w).1 = .ok (beside path) := by
  have valued := fileValue_eq_ok_iff_decodes.mpr ⟨text, expansion, readable, decodes⟩
  unfold generateDeclaration
  simp only [valued]
  cases free : w.writable (beside path) with
  | ok place => rw [Command.writeDeclaration_of_writable free]
  | error fault => exact absurd writes (not_writable_of_fault free)

/-- Work that fails leaves everything as it was. Work that succeeds changes no more than the
declaration beside its document, which is that of the document's value, and a transformation
changes nothing if it passes a document over or writes no types. Nothing that comes after the
declaration can fail. -/
theorem effects_all_or_nothing (w : Workspace) :
    (∀ code id options result after, transform code id options w = (result, after) →
      (∀ error, result = .error error → after = w ∧
        (error = .include .endless →
          options.followReferences = true ∧ options.cycles = .unchecked)) ∧
      (result = .ok none → after = w) ∧
      (∀ done, result = .ok (some done) → ∃ expansion value,
        w.Decodes options.followReferences code.toList options.root options.settings expansion
          value ∧
        done = ⟨value.moduleBody, expansion.referenced⟩ ∧
        (options.emitTypes = true → w.Declared ⟨id⟩ value after)) ∧
      (options.emitTypes = false → after = w) ∧
      ∀ expansion value, options.Accepts id →
        w.Decodes options.followReferences code.toList options.root options.settings expansion
          value →
        (options.emitTypes = true → ∃ written, (writeDeclaration value ⟨id⟩ w).1 = .ok written) →
          result = .ok (some ⟨value.moduleBody, expansion.referenced⟩)) ∧
    ∀ path options result after, generateDeclaration path options w = (result, after) →
      (∀ error, result = .error error → after = w ∧
        (error = .include .endless →
          options.followReferences = true ∧ options.resolve.cycles = .unchecked)) ∧
      (∀ written, result = .ok written → written = beside path ∧ ∃ text expansion value,
        w.readText path options.resolve.encoding = .ok text ∧
        w.Decodes options.followReferences text options.root options.resolve expansion value ∧
        w.Declared path value after) ∧
      ∀ text expansion value, w.readText path options.resolve.encoding = .ok text →
        w.Decodes options.followReferences text options.root options.resolve expansion value →
        (∃ written, (writeDeclaration value path w).1 = .ok written) →
          result = .ok (beside path) := by
  constructor
  · intro code id options result after ran
    have came := transforms w code id options
    rw [ran] at came
    refine ⟨?_, ?_, ?_, came.unchanged_of_plain, ?_⟩
    · rintro error rfl
      exact came.unchanged_of_error
    · rintro rfl
      exact came.unchanged_of_none
    · rintro done rfl
      exact came.exists_decodes
    · intro expansion value accepted decodes writes
      exact came.eq_ok accepted decodes writes
  · intro path options result after ran
    obtain ⟨isResult, isAfter⟩ := Prod.mk.inj ran
    subst isResult isAfter
    refine ⟨fun error => generateDeclaration_of_error, fun written => generateDeclaration_of_ok, ?_⟩
    intro text expansion value readable decodes writes
    exact generateDeclaration_of_decodes readable decodes writes

theorem effects_all_or_nothing_watched :
    (∃ after value, transform "{{ include a }}" "x.yaml"
        { emitTypes := true, followReferences := true } watchedFiles =
          (.ok (some watchedModule), after) ∧
      watchedModule.code = value.moduleBody ∧ watchedFiles.Declared ⟨"x.yaml"⟩ value after) ∧
    (∃ error after, transform "{{ include a }}" "x.yaml"
        { emitTypes := true, followReferences := true } blockedFiles = (.error error, after) ∧
      after = blockedFiles) ∧
    ∃ after value, generateDeclaration ⟨"x.yaml"⟩ ⟨true, ⟨"."⟩, {}⟩ Command.declaredFiles =
        (.ok ⟨"x.yaml.d.ts"⟩, after) ∧
      Command.declaredFiles.Declared ⟨"x.yaml"⟩ value after := by
  have made : transform "{{ include a }}" "x.yaml"
      { emitTypes := true, followReferences := true } watchedFiles =
        (.ok (some watchedModule), _) := rfl
  have blocked : transform "{{ include a }}" "x.yaml"
      { emitTypes := true, followReferences := true } blockedFiles =
        (.error (.unwritable ⟨"x.yaml.d.ts"⟩ .isDirectory), _) := rfl
  have generated : generateDeclaration ⟨"x.yaml"⟩ ⟨true, ⟨"."⟩, {}⟩ Command.declaredFiles =
      (.ok ⟨"x.yaml.d.ts"⟩, _) := rfl
  rcases (effects_all_or_nothing watchedFiles).1 _ _ _ _ _ made with ⟨-, -, succeeded, -⟩
  rcases (effects_all_or_nothing blockedFiles).1 _ _ _ _ _ blocked with ⟨failed, -⟩
  rcases (effects_all_or_nothing Command.declaredFiles).2 _ _ _ _ generated with ⟨-, written, -⟩
  rcases succeeded _ rfl with ⟨expansion, value, -, same, declared⟩
  rcases written _ rfl with ⟨-, text, inner, found, -, -, beside⟩
  exact ⟨⟨_, value, made, congrArg Transformed.code same, declared rfl⟩,
    ⟨_, _, blocked, (failed _ rfl).1⟩, ⟨_, found, generated, beside⟩⟩

end YamlTypes
