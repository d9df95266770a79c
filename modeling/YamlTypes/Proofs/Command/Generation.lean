import YamlTypes.Proofs.Command.Declarations
import YamlTypes.Proofs.Discovery.Places
import YamlTypes.Proofs.Workspace.Frame

/-!
Declarations of many files.

A run over found files writes one declaration after the other, up to the first
file that it fails for. Whatever it has written stands in the place of no source
and no other declaration, so each file is declared as if it were the only one.
-/

set_option autoImplicit false

namespace YamlTypes

theorem Workspace.place_congr {w later : Workspace} (same : later.directory = w.directory)
    (path : Path) : later.place path = w.place path := by
  rw [Workspace.place, Workspace.place, same]

namespace Declaration

def bytes (value : Value) : List UInt8 := (contents value).toUTF8.toList

end Declaration

def Workspace.declare (w : Workspace) (place : Location) (value : Value) : Workspace :=
  { w with tree := w.tree.set place (.file (Declaration.bytes value)) }

namespace Command

open Declaration (beside)
open Discovery (isYamlName)

variable {options : GenerateOptions} {w after : Workspace} {file : Path} {value : Value}
  {place location : Location} {done rest : List Path} {encoding : Encoding} {text : List Char}

structure Declares (options : GenerateOptions) (w : Workspace) (file : Path) (value : Value)
    (place : Location) : Prop where
  valued : fileValue w file options = .ok value
  free : w.writable (beside file) = .ok place

theorem writeDeclaration_of_writable (free : w.writable (beside file) = .ok place) (value : Value) :
    writeDeclaration value file w = (.ok (beside file), w.declare place value) := by
  have written : w.write (beside file) (Declaration.bytes value) = .ok (w.declare place value) :=
    Workspace.write_of_writable free _
  unfold writeDeclaration
  dsimp only
  split
  next fault failed => cases failed.symm.trans written
  next later wrote =>
    cases wrote.symm.trans written
    rfl

theorem generateDeclaration_cases (options : GenerateOptions) (file : Path) (w : Workspace) :
    (∃ value place, Declares options w file value place ∧
      generateDeclaration file options w = (.ok (beside file), w.declare place value)) ∨
    ∃ error, (∀ value place, ¬Declares options w file value place) ∧
      generateDeclaration file options w = (.error error, w) := by
  unfold generateDeclaration
  cases valued : fileValue w file options with
  | error error =>
      refine .inr ⟨error, ?_, rfl⟩
      intro value place declares
      cases valued.symm.trans declares.valued
  | ok value =>
      cases free : w.writable (beside file) with
      | error fault =>
          refine .inr ⟨.unwritable (beside file) fault, ?_,
            (writeDeclaration_eq value file w).2 fault free⟩
          intro value place declares
          cases free.symm.trans declares.free
      | ok place =>
          exact .inl ⟨value, place, ⟨valued, free⟩, writeDeclaration_of_writable free value⟩

/-- The declarations of files are written one after the other. -/
inductive Generates (options : GenerateOptions) : Workspace → List Path → Workspace → Prop
  | nil {w : Workspace} : Generates options w [] w
  | cons {w after : Workspace} {file : Path} {value : Value} {place : Location}
      {rest : List Path} :
      Declares options w file value place →
      Generates options (w.declare place value) rest after →
      Generates options w (file :: rest) after

theorem Generates.append_iff :
    Generates options w (done ++ rest) after ↔
      ∃ current, Generates options w done current ∧ Generates options current rest after := by
  constructor
  · intro generates
    induction done generalizing w with
    | nil => exact ⟨w, .nil, generates⟩
    | cons file done inductionHypothesis =>
        cases generates with
        | cons declares later =>
            rcases inductionHypothesis later with ⟨current, first, second⟩
            exact ⟨current, .cons declares first, second⟩
  · rintro ⟨current, first, second⟩
    induction first with
    | nil => exact second
    | cons declares _ inductionHypothesis => exact .cons declares (inductionHypothesis second)

def announcements (files : List Path) : String :=
  String.join (files.map fun file => "Generating type file for " ++ file.text ++ "\n")

theorem announcements_cons (file : Path) (files : List Path) :
    announcements (file :: files) =
      "Generating type file for " ++ file.text ++ "\n" ++ announcements files := by
  rw [announcements, List.map_cons, String.join_cons, announcements]

/-- A run declares files up to the end, or up to one that cannot be declared. -/
theorem generateAll_cases (options : GenerateOptions) (files : List Path) (w : Workspace) :
    ∃ done rest after, files = done ++ rest ∧ Generates options w done after ∧
      ((rest = [] ∧ generateAll options files w = (⟨announcements done, none⟩, after)) ∨
      ∃ file later error, rest = file :: later ∧
        (∀ value place, ¬Declares options after file value place) ∧
        generateAll options files w =
          (⟨announcements (done ++ [file]), some (.notGenerated file error)⟩, after)) := by
  induction files generalizing w with
  | nil => exact ⟨[], [], w, rfl, .nil, .inl ⟨rfl, rfl⟩⟩
  | cons file files inductionHypothesis =>
      rcases generateDeclaration_cases options file w with
        ⟨value, place, declares, generated⟩ | ⟨error, undeclared, failed⟩
      · rcases inductionHypothesis (w.declare place value) with
          ⟨done, rest, after, rfl, generates, ended⟩
        refine ⟨file :: done, rest, after, rfl, .cons declares generates, ?_⟩
        rcases ended with ⟨complete, passed⟩ | ⟨failing, later, error, split, undeclared, stopped⟩
        · apply Or.inl
          refine ⟨complete, ?_⟩
          simp only [generateAll, generated, passed, announcements_cons]
        · apply Or.inr
          refine ⟨failing, later, error, split, undeclared, ?_⟩
          simp only [generateAll, generated, stopped, List.cons_append, announcements_cons]
      · refine ⟨[], file :: files, w, rfl, .nil, .inr ⟨file, files, error, rfl, undeclared, ?_⟩⟩
        rw [List.nil_append, announcements_cons, announcements, List.map_nil, String.join_nil,
          String.append_empty]
        simp only [generateAll, failed]

theorem Declares.place_eq (declares : Declares options w file value place) :
    place = w.place (beside file) :=
  Workspace.locate_eq_place (Workspace.locate_of_writable declares.free).1

theorem Declares.get? (declares : Declares options w file value place) (location : Location) :
    (w.declare place value).tree.get? location =
      if location = w.place (beside file) then some (.file (Declaration.bytes value))
      else w.tree.get? location := by
  rw [← declares.place_eq]
  exact FileTree.get?_set (Workspace.ne_root_of_writable declares.free)

theorem Declares.sameDirectories (declares : Declares options w file value place) :
    w.SameDirectories (w.declare place value) :=
  Workspace.sameDirectories_set declares.free _

theorem Generates.sameDirectories (generates : Generates options w done after) :
    w.SameDirectories after := by
  induction generates with
  | nil => exact .refl _
  | cons declares _ inductionHypothesis =>
      exact declares.sameDirectories.trans inductionHypothesis

/-- Only the places of declarations are written to. -/
theorem Generates.get?_of_writable_ne (generates : Generates options w done after)
    (other : ∀ file ∈ done, w.writable (beside file) ≠ .ok location) :
    after.tree.get? location = w.tree.get? location := by
  induction generates with
  | nil => rfl
  | @cons w after file value place rest declares later inductionHypothesis =>
      have elsewhere : ∀ f ∈ rest,
          (w.declare place value).writable (beside f) ≠ .ok location := by
        intro f member free
        apply other f (List.mem_cons_of_mem _ member)
        exact declares.sameDirectories.writable_iff.mp free
      have otherPlace : location ≠ w.place (beside file) := by
        rintro rfl
        apply other file List.mem_cons_self
        rw [declares.free, declares.place_eq]
      rw [inductionHypothesis elsewhere, declares.get?, if_neg otherPlace]

theorem Generates.get?_of_ne (generates : Generates options w done after)
    (other : ∀ file ∈ done, location ≠ w.place (beside file)) :
    after.tree.get? location = w.tree.get? location := by
  apply generates.get?_of_writable_ne
  intro file member free
  apply other file member
  exact Workspace.locate_eq_place (Workspace.locate_of_writable free).1

theorem Generates.get?_of_isYamlName (generates : Generates options w done after)
    (yaml : ∀ file ∈ done, isYamlName file.text = true)
    (isSource : location.getLast?.any isYamlName = true) :
    after.tree.get? location = w.tree.get? location := by
  apply generates.get?_of_ne
  rintro file member rfl
  rw [Declaration.isYamlName_place_beside (yaml file member)] at isSource
  cases isSource

theorem Generates.entry?_of_isYamlName (generates : Generates options w done after)
    (yaml : ∀ file ∈ done, isYamlName file.text = true) (isYaml : isYamlName file.text = true) :
    after.entry? file = w.entry? file := by
  apply generates.sameDirectories.entry?
  intro location located
  apply generates.get?_of_isYamlName yaml
  rw [Workspace.locate_eq_place located, Declaration.isYamlName_place isYaml]

theorem Generates.read_of_isYamlName (generates : Generates options w done after)
    (yaml : ∀ file ∈ done, isYamlName file.text = true) (isYaml : isYamlName file.text = true)
    (located : w.locate file = .ok location) : after.read file = w.read file := by
  apply generates.sameDirectories.read located
  apply generates.get?_of_isYamlName yaml
  rw [Workspace.locate_eq_place located, Declaration.isYamlName_place isYaml]

theorem Generates.readText_iff (generates : Generates options w done after)
    (yaml : ∀ file ∈ done, isYamlName file.text = true) (isYaml : isYamlName file.text = true) :
    after.readText file encoding = .ok text ↔ w.readText file encoding = .ok text := by
  have same : ∀ location, w.locate file = .ok location →
      after.readText file encoding = w.readText file encoding := by
    intro location located
    rw [Workspace.readText, Workspace.readText,
      generates.read_of_isYamlName yaml isYaml located]
  constructor
  · intro readable
    rcases Workspace.exists_locate_of_readText readable with ⟨location, located⟩
    rwa [← same location (generates.sameDirectories.locate_iff.mp located)]
  · intro readable
    rcases Workspace.exists_locate_of_readText readable with ⟨location, located⟩
    rwa [same location located]

/-- Where declarations have different places, each is left as it was written. -/
theorem Generates.exists_declares (generates : Generates options w done after)
    (apart : done.Pairwise fun a b => w.place (beside a) ≠ w.place (beside b))
    (member : file ∈ done) :
    ∃ front back current value place, done = front ++ file :: back ∧
      Generates options w front current ∧ Declares options current file value place ∧
        Generates options (current.declare place value) back after ∧
          after.tree.get? place = some (.file (Declaration.bytes value)) := by
  rcases List.append_of_mem member with ⟨front, back, rfl⟩
  rcases append_iff.mp generates with ⟨current, first, second⟩
  cases second with
  | @cons _ _ _ value place _ declares later =>
      refine ⟨front, back, current, value, place, rfl, first, declares, later, ?_⟩
      have sameView := (first.sameDirectories.trans declares.sameDirectories).directory
      have isPlace : place = w.place (beside file) := by
        rw [declares.place_eq, Workspace.place_congr first.sameDirectories.directory]
      have others : ∀ f ∈ back, place ≠ (current.declare place value).place (beside f) := by
        intro f isLater
        rw [Workspace.place_congr sameView, isPlace]
        exact List.rel_of_pairwise_cons (List.pairwise_append.mp apart).2.1 isLater
      rw [later.get?_of_ne others, declares.get?, if_pos declares.place_eq]

theorem find_apart (named : w.tree.Named) (directory : Path) (patterns : List Pattern) :
    (Discovery.find w directory patterns).Pairwise fun a b =>
      w.place (beside a) ≠ w.place (beside b) := by
  apply (Discovery.find_places named).imp_of_mem
  intro first second isFirst isSecond different same
  apply different
  exact Declaration.place_eq_of_place_beside (Discovery.isYamlName_of_mem_find named isFirst)
    (Discovery.isYamlName_of_mem_find named isSecond) same

structure Declarable (w : Workspace) (encoding : Encoding) (file : Path) (value : Value)
    (place : Location) : Prop where
  decoded : ∃ text, w.readText file encoding = .ok text ∧ Yaml.decode? text = some value
  free : w.writable (beside file) = .ok place

theorem decodeDocument_eq_ok_iff :
    decodeDocument text = .ok value ↔ Yaml.decode? text = some value := by
  unfold decodeDocument
  cases Yaml.decode? text with
  | none => exact iff_of_false nofun nofun
  | some found => rw [Except.ok.injEq, Option.some_inj]

/-- Where references are not followed, a file has the value of its own text. -/
theorem declares_iff_declarable {root : Path} {settings : Include.Settings} :
    Declares ⟨false, root, settings⟩ w file value place ↔
      Declarable w settings.encoding file value place := by
  have valued : fileValue w file ⟨false, root, settings⟩ = .ok value ↔
      ∃ text, w.readText file settings.encoding = .ok text ∧ Yaml.decode? text = some value := by
    unfold fileValue
    cases w.readText file settings.encoding with
    | error fault =>
        apply iff_of_false nofun
        rintro ⟨text, readable, -⟩
        cases readable
    | ok text =>
        constructor
        · intro found
          exact ⟨text, rfl, decodeDocument_eq_ok_iff.mp found⟩
        · rintro ⟨same, readable, decoded⟩
          obtain rfl := Except.ok.inj readable
          exact decodeDocument_eq_ok_iff.mpr decoded
  exact ⟨fun declares => ⟨valued.mp declares.valued, declares.free⟩,
    fun declarable => ⟨valued.mpr declarable.decoded, declarable.free⟩⟩

theorem Generates.declarable_iff (generates : Generates options w done after)
    (yaml : ∀ file ∈ done, isYamlName file.text = true) (isYaml : isYamlName file.text = true) :
    Declarable after encoding file value place ↔ Declarable w encoding file value place := by
  constructor
  · rintro ⟨⟨text, readable, decoded⟩, free⟩
    exact ⟨⟨text, (generates.readText_iff yaml isYaml).mp readable, decoded⟩,
      generates.sameDirectories.writable_iff.mp free⟩
  · rintro ⟨⟨text, readable, decoded⟩, free⟩
    exact ⟨⟨text, (generates.readText_iff yaml isYaml).mpr readable, decoded⟩,
      generates.sameDirectories.writable free⟩

/-- A file is declared as if it were the only one. -/
theorem Generates.declared_alone {root : Path} {settings : Include.Settings}
    (generates : Generates ⟨false, root, settings⟩ w done after)
    (yaml : ∀ file ∈ done, isYamlName file.text = true)
    (apart : done.Pairwise fun a b => w.place (beside a) ≠ w.place (beside b))
    (member : file ∈ done) :
    ∃ value place, Declarable w settings.encoding file value place ∧
      after.tree.get? place = some (.file (Declaration.bytes value)) := by
  rcases generates.exists_declares apart member with
    ⟨front, back, current, value, place, whole, first, declares, -, kept⟩
  have before : ∀ f ∈ front, isYamlName f.text = true := by
    intro f isBefore
    apply yaml
    rw [whole]
    exact List.mem_append_left _ isBefore
  refine ⟨value, place, ?_, kept⟩
  rw [← first.declarable_iff before (yaml file member)]
  exact declares_iff_declarable.mp declares

/-- Where references are not followed, found files are declared up to the first one that cannot be
read, decoded or given a declaration. Each declaration is that of the source as it was before, and
nothing else changes. -/
theorem generate_declares_prefix {w : Workspace} (named : w.tree.Named) (directory : Path)
    {exclude : String} {patterns : List Pattern}
    (compiled : Discovery.patterns? (Discovery.splitList exclude) = some patterns)
    (includes : IncludeOptions) (stdin : List UInt8) :
    ∃ done rest outcome after, Discovery.find w directory patterns = done ++ rest ∧
      run (.generate directory exclude false includes) stdin w = (outcome, after) ∧
      (∀ file ∈ done, ∃ value place, Declarable w includes.settings.encoding file value place ∧
        after.tree.get? place = some (.file (Declaration.bytes value))) ∧
      (rest = [] → outcome.status = 0 ∧ outcome.output = announcements done) ∧
      (∀ file later, rest = file :: later →
        (∀ value place, ¬Declarable w includes.settings.encoding file value place) ∧
          outcome.status = 1 ∧ outcome.output = announcements (done ++ [file])) ∧
      after.directory = w.directory ∧
      (∀ location, (∀ file ∈ done, w.writable (beside file) ≠ .ok location) →
        after.tree.get? location = w.tree.get? location) ∧
      (∀ location, location.getLast?.any isYamlName = true →
        after.tree.get? location = w.tree.get? location) ∧
      (∀ file ∈ Discovery.find w directory patterns, after.entry? file = w.entry? file) ∧
      ∀ file ∈ rest, after.entry? (beside file) = w.entry? (beside file) := by
  have ran : run (.generate directory exclude false includes) stdin w =
      generateAll ⟨false, includes.root, includes.settings⟩
        (Discovery.find w directory patterns) w := by
    simp only [run, compiled]
  have allYaml : ∀ file ∈ Discovery.find w directory patterns, isYamlName file.text = true :=
    fun file member => Discovery.isYamlName_of_mem_find named member
  have apart := find_apart named directory patterns
  rcases generateAll_cases ⟨false, includes.root, includes.settings⟩
    (Discovery.find w directory patterns) w with ⟨done, rest, after, split, generates, ended⟩
  rw [split] at allYaml apart
  rcases List.pairwise_append.mp apart with ⟨apartDone, -, apartRest⟩
  have yaml : ∀ file ∈ done, isYamlName file.text = true :=
    fun file member => allYaml file (List.mem_append_left _ member)
  have sources : ∀ file ∈ Discovery.find w directory patterns,
      after.entry? file = w.entry? file := by
    intro file member
    exact generates.entry?_of_isYamlName yaml (allYaml file (split ▸ member))
  have later : ∀ file ∈ rest, after.entry? (beside file) = w.entry? (beside file) := by
    intro file member
    apply generates.sameDirectories.entry?
    intro location located
    apply generates.get?_of_ne
    intro f isDone
    rw [Workspace.locate_eq_place located]
    exact Ne.symm (apartRest f isDone file member)
  rcases ended with ⟨complete, passed⟩ | ⟨file, others, error, more, undeclared, stopped⟩
  · refine ⟨done, rest, _, after, split, ran.trans passed,
      fun file member => generates.declared_alone yaml apartDone member, fun _ => ⟨rfl, rfl⟩, ?_,
      generates.sameDirectories.directory, fun location => generates.get?_of_writable_ne,
      fun location => generates.get?_of_isYamlName yaml, sources, later⟩
    intro file others more
    cases complete.symm.trans more
  · refine ⟨done, rest, _, after, split, ran.trans stopped,
      fun file member => generates.declared_alone yaml apartDone member, ?_, ?_,
      generates.sameDirectories.directory, fun location => generates.get?_of_writable_ne,
      fun location => generates.get?_of_isYamlName yaml, sources, later⟩
    · intro complete
      cases complete.symm.trans more
    · intro failing rest same
      obtain ⟨rfl, -⟩ := List.cons.inj (same.symm.trans more)
      refine ⟨?_, rfl, rfl⟩
      intro value place declarable
      apply undeclared value place
      rw [declares_iff_declarable, generates.declarable_iff yaml]
      · exact declarable
      · apply allYaml
        rw [more]
        exact List.mem_append_right _ List.mem_cons_self

def mixedFiles : Workspace where
  tree := ⟨[(["b"], .directory), (["b", "x.yaml"], .file "#".toUTF8.data.toList),
    (["b", "y.yaml"], .file [0xFF])]⟩
  directory := ["b"]

theorem mixedFiles_named : mixedFiles.tree.Named := by decide

theorem find_mixedFiles :
    Discovery.find mixedFiles ⟨"."⟩ [] = [⟨"./x.yaml"⟩, ⟨"./y.yaml"⟩] := by
  have found : Discovery.find mixedFiles ⟨"."⟩ [] =
      Discovery.dedup ([⟨"./x.yaml"⟩, ⟨"./y.yaml"⟩].mergeSort Discovery.pathLE) := rfl
  have sorted : [(⟨"./x.yaml"⟩ : Path), ⟨"./y.yaml"⟩].Pairwise
      fun a b => Discovery.pathLE a b = true := by
    decide
  have different : ¬(⟨"./x.yaml"⟩ : Path).components = (⟨"./y.yaml"⟩ : Path).components := by
    decide
  rw [found, List.mergeSort_of_pairwise sorted, Discovery.dedup, if_neg different,
    Discovery.dedup]
  intro a b rest same
  cases same

theorem generate_declares_prefix_mixedFiles :
    ∃ outcome after, run (.generate ⟨"."⟩ "" false {}) [] mixedFiles = (outcome, after) ∧
      outcome.status = 1 ∧ outcome.output = announcements [⟨"./x.yaml"⟩, ⟨"./y.yaml"⟩] ∧
      after.tree.get? ["b", "x.yaml.d.ts"] = some (.file (Declaration.bytes .undefined)) ∧
      after.tree.get? ["b", "y.yaml.d.ts"] = none := by
  have readable : mixedFiles.readText ⟨"./x.yaml"⟩ .utf8 = .ok "#".toList := rfl
  have decoded : Yaml.decode? "#".toList = some .undefined := rfl
  have place : mixedFiles.writable (beside ⟨"./x.yaml"⟩) = .ok ["b", "x.yaml.d.ts"] := rfl
  have unread : ∃ fault, mixedFiles.readText ⟨"./y.yaml"⟩ .utf8 = .error fault := ⟨_, rfl⟩
  have first : Declarable mixedFiles .utf8 ⟨"./x.yaml"⟩ .undefined ["b", "x.yaml.d.ts"] :=
    ⟨⟨_, readable, decoded⟩, place⟩
  have second : ∀ value place, ¬Declarable mixedFiles .utf8 ⟨"./y.yaml"⟩ value place := by
    rintro value place ⟨⟨text, readable, -⟩, -⟩
    rcases unread with ⟨fault, failed⟩
    cases failed.symm.trans readable
  have compiled : Discovery.patterns? (Discovery.splitList "") = some [] := rfl
  rcases generate_declares_prefix mixedFiles_named ⟨"."⟩ compiled {} [] with
    ⟨done, rest, outcome, after, split, ran, declared, -, stopped, -, untouched, -⟩
  rw [find_mixedFiles] at split
  cases done with
  | nil => exact absurd first ((stopped _ _ split.symm).1 _ _)
  | cons file done =>
      obtain ⟨rfl, tail⟩ := List.cons.inj split
      cases done with
      | cons other done =>
          obtain ⟨rfl, -⟩ := List.cons.inj tail
          rcases declared _ (List.mem_cons_of_mem _ List.mem_cons_self) with
            ⟨value, place, declarable, -⟩
          exact absurd declarable (second value place)
      | nil =>
          rcases stopped _ _ tail.symm with ⟨-, failed, printed⟩
          rcases declared _ List.mem_cons_self with ⟨value, there, ⟨⟨text, read, has⟩, free⟩, kept⟩
          obtain rfl := Except.ok.inj (readable.symm.trans read)
          obtain rfl := Option.some.inj (decoded.symm.trans has)
          obtain rfl := Except.ok.inj (place.symm.trans free)
          refine ⟨outcome, after, ran, failed, printed, kept, ?_⟩
          apply untouched
          intro f member
          rw [List.mem_singleton.mp member, place]
          decide

end Command

end YamlTypes
