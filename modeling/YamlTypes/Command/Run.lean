import YamlTypes.Command.Arguments
import YamlTypes.Transform

/-!
What commands do.

A command works on a workspace and on the bytes of the standard input. It ends
with an outcome: what it has printed, and why it failed if it did. What is
printed and written before a failure stays.
-/

set_option autoImplicit false

namespace YamlTypes.Command

open Include (FileFault)

inductive Failure where
  | misuse (cause : Misuse)
  | badExclude (list : String)
  | notGenerated (file : Path) (error : Error)
  | unreadableFile (path : Path) (fault : FileFault)
  | unreadableInput (fault : FileFault)
  | notExpanded (error : Error)
  | notDecoded (error : Error)
  | notTransformed (error : Error)
  /-- The identifier of a document is no name of a YAML file. -/
  | notYamlName (id : String)
  | unwritableFile (path : Path) (fault : FileFault)
  deriving DecidableEq, Repr

namespace Failure

def message : Failure → String
  | .misuse cause => cause.message
  | .badExclude list => "Invalid --exclude list: " ++ list
  | .notGenerated file _ => "Failed to generate type file for " ++ file.text
  | .unreadableFile path _ => "Failed to read file: " ++ path.text
  | .unreadableInput _ => "Failed to read from stdin"
  | .notExpanded _ => "Failed to resolve includes"
  | .notDecoded _ => "Failed to decode YAML"
  | .notTransformed _ => "Failed to transform YAML"
  | .notYamlName id => "Not a YAML file: " ++ id
  | .unwritableFile path _ => "Failed to write file: " ++ path.text

def error? : Failure → Option Error
  | .badExclude _ => some .badPattern
  | .notGenerated _ error | .notExpanded error | .notDecoded error | .notTransformed error =>
    some error
  | _ => none

/-- The message of what is behind a failure. -/
def cause? (failure : Failure) : Option String :=
  match failure with
  | .unreadableFile _ fault | .unreadableInput fault | .unwritableFile _ fault =>
    some fault.message
  | _ => failure.error?.map Error.message

/-- The document whose absence is behind a failure. -/
def missing? (failure : Failure) : Option Path :=
  match failure.error? with
  | some (.include (.unreadable path .notFound)) => some path
  | _ => none

def status : Failure → Nat
  | .misuse _ => 2
  | _ => 1

end Failure

structure Outcome where
  output : String := ""
  failure : Option Failure := none
  deriving DecidableEq, Repr, Inhabited

def Outcome.status (outcome : Outcome) : Nat :=
  match outcome.failure with
  | none => 0
  | some failure => failure.status

/-- A step of a command: its result, and the workspace after it. -/
abbrev Action (α : Type) := Workspace → Except Failure α × Workspace

def inputText (w : Workspace) (stdin : List UInt8) : Option Path → Except Failure (List Char)
  | some path => (w.readText path .utf8).mapError (.unreadableFile path)
  | none => (Include.readText .utf8 stdin).mapError .unreadableInput

def emit (output : Option Path) (text : String) : Action String := fun w =>
  match output with
  | none => (.ok text, w)
  | some path =>
    match w.write path text.toUTF8.toList with
    | .error fault => (.error (.unwritableFile path fault), w)
    | .ok after => (.ok "", after)

/-- Generate the declarations of files one after the other, up to the first failure. -/
def generateAll (options : GenerateOptions) : List Path → Workspace → Outcome × Workspace
  | [], w => ({}, w)
  | file :: rest, w =>
    let line := "Generating type file for " ++ file.text ++ "\n"
    match generateDeclaration file options w with
    | (.error error, w) => (⟨line, some (.notGenerated file error)⟩, w)
    | (.ok _, w) =>
      let (outcome, w) := generateAll options rest w
      ({ outcome with output := line ++ outcome.output }, w)

/-- The expanded text of a document, or the paths of what it includes, one a line. -/
def resolvedText (w : Workspace) (text : List Char) (list : Bool) (includes : IncludeOptions) :
    Except Failure String :=
  match w.expand text includes.root includes.settings with
  | .error failure => .error (.notExpanded (.include failure))
  | .ok expansion =>
    if list then .ok (String.join (expansion.referenced.map fun path => path.text ++ "\n"))
    else .ok (String.ofList expansion.text)

/-- The type of a document as a line, or its declaration. -/
def inferredText (w : Workspace) (text : List Char) (declaration follow : Bool)
    (includes : IncludeOptions) : Except Failure String := do
  let expansion ← (w.expandIf follow text includes.root includes.settings).mapError .notExpanded
  let value ← (decodeDocument expansion.text).mapError .notDecoded
  return if declaration then Declaration.contents value else value.typeText "" ++ "\n"

def moduleText (text : List Char) (id : String) (options : TransformOptions) : Action String :=
  fun w =>
    match transform (String.ofList text) id options w with
    | (.error error, w) => (.error (.notTransformed error), w)
    | (.ok none, w) => (.error (.notYamlName id), w)
    | (.ok (some result), w) => (.ok result.code, w)

/-- The outcome of a step that prints its result. -/
def finish : Except Failure String × Workspace → Outcome × Workspace
  | (.error failure, w) => (⟨"", some failure⟩, w)
  | (.ok output, w) => (⟨output, none⟩, w)

def run (command : Command) (stdin : List UInt8) (w : Workspace) : Outcome × Workspace :=
  match command with
  | .generate directory exclude follow includes =>
    match Discovery.patterns? (Discovery.splitList exclude) with
    | none => (⟨"", some (.badExclude exclude)⟩, w)
    | some patterns =>
      generateAll ⟨follow, includes.root, includes.settings⟩
        (Discovery.find w directory patterns) w
  | .resolve input output list includes =>
    match (inputText w stdin input).bind (resolvedText w · list includes) with
    | .error failure => (⟨"", some failure⟩, w)
    | .ok text => finish (emit output text w)
  | .infer input declaration follow includes =>
    finish ((inputText w stdin input).bind (inferredText w · declaration follow includes), w)
  | .module input output types follow includes =>
    match inputText w stdin input with
    | .error failure => (⟨"", some failure⟩, w)
    | .ok text =>
      let id := (input.map Path.text).getD "stdin.yaml"
      let options : TransformOptions :=
        ⟨types, includes.settings.encoding, [], follow, includes.root, includes.settings.cycles⟩
      match moduleText text id options w with
      | (.error failure, w) => (⟨"", some failure⟩, w)
      | (.ok code, w) => finish (emit output code w)

def versionText : String := "yaml-dts 0.1.0\n"

def helpText : String :=
  "usage: yaml-dts [-v] <command> [options]\n\n" ++
  "  generate [DIRECTORY] [--exclude LIST]       write a .d.ts file beside every YAML file\n" ++
  "  resolve [-i FILE] [-o FILE] [--list]        expand includes, or list them\n" ++
  "  infer [-i FILE] [--declaration]             print the type of a document\n" ++
  "  module [-i FILE] [-o FILE] [--types]        print the module of a document\n\n" ++
  "  --root DIRECTORY --lossy --no-cycle-check   how includes are resolved\n" ++
  "  --follow-references                         expand includes before decoding\n"

def Inquiry.text : Inquiry → String
  | .help => helpText
  | .version => versionText

def runArguments (arguments : List String) (stdin : List UInt8) (w : Workspace) :
    Outcome × Workspace :=
  match read arguments with
  | .error (.inquiry inquiry) => (⟨inquiry.text, none⟩, w)
  | .error (.misuse cause) => (⟨"", some (.misuse cause)⟩, w)
  | .ok command => run command stdin w

end YamlTypes.Command
