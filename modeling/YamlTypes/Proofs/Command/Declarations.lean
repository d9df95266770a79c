import YamlTypes.Command.Run
import YamlTypes.Proofs.Discovery.Found
import YamlTypes.Proofs.Workspace.Watch
import YamlTypes.Proofs.Workspace.Writing

/-!
One declaration from three commands.

Inferring prints the declaration of a file, generating writes it beside the file,
and so does making a module with types. All of them read the file, expand it and
decode it, each with options of its own. Where the file is UTF-8, has the name of
a YAML file and a place for its declaration, they tell the same about it, and an
expansion that never ends counts as an error of all three.
-/

set_option autoImplicit false

namespace YamlTypes

open Include (FileFault)

namespace Workspace

theorem readText_of_utf8 {w : Workspace} {path : Path} {text : List Char}
    (readable : w.readText path .utf8 = .ok text) (encoding : Encoding) :
    w.readText path encoding = .ok text := by
  cases encoding with
  | utf8 => exact readable
  | utf8Lossy =>
      unfold readText at readable ⊢
      cases bytes : w.read path with
      | error fault =>
          rw [bytes] at readable
          cases readable
      | ok content =>
          rw [bytes] at readable
          simp only [Except.bind, Include.readText, Encoding.decode] at readable ⊢
          split at readable
          next decoded =>
            cases readable
            rw [Text.Utf8.decodeLossy_of_decode decoded]
          next => cases readable

end Workspace

theorem read_of_writeDeclaration {w after : Workspace} {value : Value} {source path : Path}
    (written : writeDeclaration value source w = (.ok path, after)) :
    path = ⟨Declaration.pathText source.text⟩ ∧
      after.read path = .ok (Declaration.contents value).toUTF8.toList := by
  unfold writeDeclaration at written
  dsimp only at written
  split at written
  next => cases written
  next later wrote =>
    cases written
    exact ⟨rfl, Workspace.read_of_write wrote⟩

theorem TransformOptions.accepts_of_isYamlName {options : TransformOptions} {id : String}
    (unrestricted : options.exclude = []) (yaml : Discovery.isYamlName id = true) :
    options.Accepts id :=
  ⟨yaml, [], by rw [unrestricted]; rfl, rfl⟩

theorem transform_ne_none {code id : String} {options : TransformOptions}
    (accepted : options.Accepts id) (w : Workspace) :
    (transform code id options w).1 ≠ .ok none := by
  rw [transform_of_accepts accepted]
  split
  next => exact nofun
  next =>
    split
    next => split <;> exact nofun
    next => exact nofun

namespace Command

variable {w : Workspace} {file : Path} {text : List Char} {follow : Bool}
  {includes : IncludeOptions} {stdin : List UInt8} {value : Value} {error : Error}

theorem fileValue_of_readText (readable : w.readText file .utf8 = .ok text) :
    fileValue w file ⟨follow, includes.root, includes.settings⟩ =
      (w.expandIf follow text includes.root includes.settings).bind fun expansion =>
        decodeDocument expansion.text := by
  simp only [fileValue, Workspace.readText_of_utf8 readable]

/-- What is inferred of a file is decided by the value that its declaration is generated for. -/
theorem run_infer (readable : w.readText file .utf8 = .ok text) :
    (∀ value, fileValue w file ⟨follow, includes.root, includes.settings⟩ = .ok value →
      run (.infer (some file) true follow includes) stdin w =
        (⟨Declaration.contents value, none⟩, w)) ∧
    ∀ error, fileValue w file ⟨follow, includes.root, includes.settings⟩ = .error error →
      ∃ failure, run (.infer (some file) true follow includes) stdin w = (⟨"", some failure⟩, w) ∧
        failure.error? = some error := by
  rw [fileValue_of_readText readable]
  have printed : run (.infer (some file) true follow includes) stdin w =
      finish (inferredText w text true follow includes, w) := by
    simp only [run, inputText, readable, Except.mapError, Except.bind]
  rw [printed]
  unfold inferredText
  cases w.expandIf follow text includes.root includes.settings with
  | error failed =>
      refine ⟨nofun, fun error same => ?_⟩
      obtain rfl := Except.error.inj same
      exact ⟨.notExpanded failed, rfl, rfl⟩
  | ok expansion =>
      cases decoded : decodeDocument expansion.text with
      | error failed =>
          simp only [Except.bind, decoded]
          refine ⟨nofun, fun error same => ?_⟩
          obtain rfl := Except.error.inj same
          refine ⟨.notDecoded failed, ?_, rfl⟩
          simp only [Except.mapError, bind, Except.bind, decoded, finish]
      | ok found =>
          simp only [Except.bind, decoded]
          refine ⟨fun value same => ?_, nofun⟩
          obtain rfl := Except.ok.inj same
          simp only [Except.mapError, bind, Except.bind, decoded, finish, if_true, pure,
            Except.pure]

theorem documentValue_of_fileValue (readable : w.readText file .utf8 = .ok text) :
    (documentValue w (String.ofList text)
      ⟨true, includes.settings.encoding, [], follow, includes.root, includes.settings.cycles⟩).map
        Prod.fst = fileValue w file ⟨follow, includes.root, includes.settings⟩ := by
  rw [fileValue_of_readText readable, documentValue, String.toList_ofList]
  change ((w.expandIf follow text includes.root includes.settings).bind _).map Prod.fst = _
  cases w.expandIf follow text includes.root includes.settings with
  | error error => rfl
  | ok expansion =>
      simp only [Except.bind]
      cases decodeDocument expansion.text <;> rfl

/-- A module with types is made of the same value, which is also declared. -/
theorem run_module (yaml : Discovery.isYamlName file.text = true)
    (readable : w.readText file .utf8 = .ok text) :
    (∀ value path after, fileValue w file ⟨follow, includes.root, includes.settings⟩ = .ok value →
      writeDeclaration value file w = (.ok path, after) →
      run (.module (some file) none true follow includes) stdin w =
        (⟨value.moduleBody, none⟩, after)) ∧
    ∀ error, fileValue w file ⟨follow, includes.root, includes.settings⟩ = .error error →
      ∃ failure, run (.module (some file) none true follow includes) stdin w =
          (⟨"", some failure⟩, w) ∧ failure.error? = some error := by
  rw [← documentValue_of_fileValue readable]
  simp only [run, inputText, readable, Except.mapError, moduleText, Option.map_some,
    Option.getD_some]
  rw [transform_of_accepts (TransformOptions.accepts_of_isYamlName rfl yaml)]
  cases documentValue w (String.ofList text)
      ⟨true, includes.settings.encoding, [], follow, includes.root, includes.settings.cycles⟩ with
  | error failed =>
      refine ⟨nofun, fun error same => ?_⟩
      obtain rfl := Except.error.inj same
      exact ⟨.notTransformed failed, rfl, rfl⟩
  | ok found =>
      refine ⟨fun value path after same written => ?_, nofun⟩
      obtain rfl := Except.ok.inj same
      simp only [if_true, written, emit, finish]

theorem moduleText_ne_notYamlName {id : String} {options : TransformOptions}
    (accepted : options.Accepts id) (text : List Char) (w : Workspace) (other : String) :
    (moduleText text id options w).1 ≠ .error (.notYamlName other) := by
  unfold moduleText
  split
  next => exact nofun
  next after passed =>
    exact absurd (congrArg Prod.fst passed) (transform_ne_none accepted w)
  next => exact nofun

theorem emit_ne_notYamlName (output : Option Path) (text : String) (w : Workspace) (id : String) :
    (finish (emit output text w)).1.failure ≠ some (.notYamlName id) := by
  unfold emit
  cases output with
  | none => exact nofun
  | some path =>
      dsimp only
      split <;> exact nofun

theorem run_module_ne_notYamlName (yaml : Discovery.isYamlName file.text = true)
    (output : Option Path) (types follow : Bool) (includes : IncludeOptions) (stdin : List UInt8)
    (w : Workspace) (id : String) :
    (run (.module (some file) output types follow includes) stdin w).1.failure ≠
      some (.notYamlName id) := by
  dsimp only [run]
  split
  next failure unread =>
    unfold inputText at unread
    cases readable : w.readText file .utf8 with
    | error fault =>
        simp only [readable, Except.mapError, Except.error.injEq] at unread
        subst unread
        exact nofun
    | ok text =>
        simp only [readable, Except.mapError] at unread
        cases unread
  next text _ =>
    split
    next failure after failed =>
      have accepted : (⟨types, includes.settings.encoding, [], follow, includes.root,
          includes.settings.cycles⟩ : TransformOptions).Accepts file.text :=
        TransformOptions.accepts_of_isYamlName rfl yaml
      intro refused
      obtain rfl := Option.some.inj refused
      exact moduleText_ne_notYamlName accepted text w id (congrArg Prod.fst failed)
    next code after _ => exact emit_ne_notYamlName output code after id

theorem generateAll_of_ok {options : GenerateOptions} {path : Path} {after : Workspace}
    (generated : generateDeclaration file options w = (.ok path, after)) (rest : List Path) :
    ∃ printed, generateAll options (file :: rest) w =
      (⟨printed, (generateAll options rest after).1.failure⟩,
        (generateAll options rest after).2) := by
  simp only [generateAll, generated]
  exact ⟨_, rfl⟩

theorem generateAll_of_error {options : GenerateOptions}
    (failed : generateDeclaration file options w = (.error error, w)) (rest : List Path) :
    ∃ printed, generateAll options (file :: rest) w =
      (⟨printed, some (.notGenerated file error)⟩, w) := by
  simp only [generateAll, failed]
  exact ⟨_, rfl⟩

/-- The commands tell the same declaration of a file or fail for the same reason, and none that was
found is refused for its name. -/
theorem declarations_agree :
    (∀ (w : Workspace) (file : Path) (follow : Bool) (includes : IncludeOptions)
      (stdin : List UInt8) (text : List Char) (location : Location),
      Discovery.isYamlName file.text = true → w.readText file .utf8 = .ok text →
      w.writable ⟨Declaration.pathText file.text⟩ = .ok location →
        (∃ declaration code after,
          run (.infer (some file) true follow includes) stdin w = (⟨declaration, none⟩, w) ∧
          run (.module (some file) none true follow includes) stdin w = (⟨code, none⟩, after) ∧
          generateDeclaration file ⟨follow, includes.root, includes.settings⟩ w =
            (.ok ⟨Declaration.pathText file.text⟩, after) ∧
          (∀ rest, ∃ printed,
            generateAll ⟨follow, includes.root, includes.settings⟩ (file :: rest) w =
              (⟨printed,
                (generateAll ⟨follow, includes.root, includes.settings⟩ rest after).1.failure⟩,
              (generateAll ⟨follow, includes.root, includes.settings⟩ rest after).2)) ∧
          after.read ⟨Declaration.pathText file.text⟩ = .ok declaration.toUTF8.toList) ∨
        ∃ error inferring making,
          run (.infer (some file) true follow includes) stdin w = (⟨"", some inferring⟩, w) ∧
          run (.module (some file) none true follow includes) stdin w = (⟨"", some making⟩, w) ∧
          generateDeclaration file ⟨follow, includes.root, includes.settings⟩ w =
            (.error error, w) ∧
          (∀ rest, ∃ printed,
            generateAll ⟨follow, includes.root, includes.settings⟩ (file :: rest) w =
              (⟨printed, some (.notGenerated file error)⟩, w)) ∧
          inferring.error? = some error ∧ making.error? = some error) ∧
    ∀ (w : Workspace) (directory file : Path) (patterns : List Pattern),
      w.tree.Named → file ∈ Discovery.find w directory patterns →
      ∀ (output : Option Path) (types follow : Bool) (includes : IncludeOptions)
        (stdin : List UInt8) (later : Workspace) (id : String),
        (run (.module (some file) output types follow includes) stdin later).1.failure ≠
          some (.notYamlName id) := by
  constructor
  · intro w file follow includes stdin text location yaml readable free
    rcases run_infer readable with ⟨inferred, notInferred⟩
    rcases run_module yaml readable with ⟨made, notMade⟩
    cases valued : fileValue w file ⟨follow, includes.root, includes.settings⟩ with
    | error error =>
        rcases notInferred error valued with ⟨inferring, inferFails, inferError⟩
        rcases notMade error valued with ⟨making, makeFails, makeError⟩
        have notGenerated : generateDeclaration file ⟨follow, includes.root, includes.settings⟩ w =
            (.error error, w) := by
          simp only [generateDeclaration, valued]
        exact .inr ⟨error, inferring, making, inferFails, makeFails, notGenerated,
          generateAll_of_error notGenerated, inferError, makeError⟩
    | ok value =>
        rcases (writeDeclaration_eq value file w).1 location free with ⟨after, written⟩
        have generated : generateDeclaration file ⟨follow, includes.root, includes.settings⟩ w =
            (.ok ⟨Declaration.pathText file.text⟩, after) := by
          simp only [generateDeclaration, valued, written]
        exact .inl ⟨Declaration.contents value, value.moduleBody, after, inferred value valued,
          made value _ after valued written, generated, generateAll_of_ok generated,
          (read_of_writeDeclaration written).2⟩
  · intro w directory file patterns named found output types follow includes stdin later id
    exact run_module_ne_notYamlName (Discovery.isYamlName_of_mem_find named found) output types
      follow includes stdin later id

def declaredFiles : Workspace where
  tree := ⟨[(["b"], .directory), (["b", "x.yaml"], .file "{{ include a }}".toUTF8.data.toList),
    (["b", "a"], .file "#".toUTF8.data.toList)]⟩
  directory := ["b"]

theorem declaredFiles_named : declaredFiles.tree.Named := by decide

theorem find_declaredFiles : Discovery.find declaredFiles ⟨"."⟩ [] = [⟨"./x.yaml"⟩] := by
  have sorted : Discovery.find declaredFiles ⟨"."⟩ [] =
      Discovery.dedup ([⟨"./x.yaml"⟩].mergeSort Discovery.pathLE) := rfl
  rw [sorted, List.mergeSort_singleton, Discovery.dedup]
  intro a b rest same
  cases same

theorem mem_find_declaredFiles : ⟨"./x.yaml"⟩ ∈ Discovery.find declaredFiles ⟨"."⟩ [] := by
  rw [find_declaredFiles]
  exact List.mem_cons_self

theorem declarations_agree_declaredFiles :
    (∃ code after,
      run (.module (some ⟨"x.yaml"⟩) none true true {}) [] declaredFiles = (⟨code, none⟩, after) ∧
      after.read ⟨"x.yaml.d.ts"⟩ =
        .ok "declare const data: undefined;\nexport default data;\n".toUTF8.toList) ∧
    ∀ id, (run (.module (some ⟨"./x.yaml"⟩) none false false {}) [] declaredFiles).1.failure ≠
      some (.notYamlName id) := by
  constructor
  · have printed : run (.infer (some ⟨"x.yaml"⟩) true true {}) [] declaredFiles =
        (⟨"declare const data: undefined;\nexport default data;\n", none⟩, declaredFiles) := rfl
    have readable : declaredFiles.readText ⟨"x.yaml"⟩ .utf8 = .ok "{{ include a }}".toList := rfl
    have free : declaredFiles.writable ⟨"x.yaml.d.ts"⟩ = .ok ["b", "x.yaml.d.ts"] := rfl
    rcases declarations_agree.1 declaredFiles ⟨"x.yaml"⟩ true {} [] _ _ rfl readable free with
      ⟨declaration, code, after, inferred, made, -, -, written⟩ | ⟨_, _, _, failed, _⟩
    · rw [printed] at inferred
      cases inferred
      exact ⟨code, after, made, written⟩
    · rw [printed] at failed
      exact absurd (congrArg (fun result => result.1.failure) failed) nofun
  · exact declarations_agree.2 declaredFiles ⟨"."⟩ _ [] declaredFiles_named mem_find_declaredFiles
      none false false {} [] declaredFiles

end Command

end YamlTypes
