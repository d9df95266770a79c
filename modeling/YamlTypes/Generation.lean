import YamlTypes.Declaration
import YamlTypes.Error
import YamlTypes.FileTree
import YamlTypes.Options
import YamlTypes.Yaml.Decode

/-!
Declaration files for the YAML files of a workspace.

Work on a workspace either fails or has a result, and leaves a workspace behind
in both cases.
-/

set_option autoImplicit false

namespace YamlTypes

open Include (Failure Settings Expansion)

abbrev Work (α : Type) := Workspace → Except Error α × Workspace

namespace Workspace

def loader (w : Workspace) : Include.Loader Unit := .ofStore w.readText

/-- A text with its includes expanded below a root, in a chain of documents. A run over files that
do not change visits no more nested documents than there are files, unless it never ends. -/
def expandIn (w : Workspace) (chain : List Path) (text : List Char) (root : Path)
    (settings : Settings) : Except Failure Expansion :=
  match Include.resolve w.loader w.directoryPath root settings (w.tree.entries.length + 2) chain
      text () with
  | none => .error .endless
  | some run => run.result

def expand (w : Workspace) (text : List Char) (root : Path) (settings : Settings) :
    Except Failure Expansion :=
  w.expandIn [] text root settings

/-- The text of a file with its includes expanded below a root. The file itself is the first
document of the chain. -/
def expandFile (w : Workspace) (path root : Path) (settings : Settings) :
    Except Failure Expansion :=
  if root.text = "" then .error (.unreadable root .emptyPath)
  else
    match w.readText path settings.encoding with
    | .error fault => .error (.unreadable path fault)
    | .ok text =>
      match Path.absolute? w.directoryPath path with
      | none => .error (.unreadable path .emptyPath)
      | some file => w.expandIn [file] text root settings

/-- The text that a document stands for, and the documents it includes. -/
def expandIf (w : Workspace) (follow : Bool) (text : List Char) (root : Path)
    (settings : Settings) : Except Error Expansion :=
  if follow then (w.expand text root settings).mapError .include else .ok ⟨text, []⟩

end Workspace

def decodeDocument (text : List Char) : Except Error Value :=
  match Yaml.decode? text with
  | none => .error .notYaml
  | some value => .ok value

def writeDeclaration (value : Value) (source : Path) : Work Path := fun w =>
  let path : Path := ⟨Declaration.pathText source.text⟩
  match w.write path (Declaration.contents value).toUTF8.toList with
  | .error fault => (.error (.unwritable path fault), w)
  | .ok after => (.ok path, after)

def fileValue (w : Workspace) (path : Path) (options : GenerateOptions) : Except Error Value :=
  match w.readText path options.resolve.encoding with
  | .error fault => .error (.include (.unreadable path fault))
  | .ok text =>
    (w.expandIf options.followReferences text options.root options.resolve).bind fun expansion =>
      decodeDocument expansion.text

def generateDeclaration (path : Path) (options : GenerateOptions) : Work Path := fun w =>
  match fileValue w path options with
  | .error error => (.error error, w)
  | .ok value => writeDeclaration value path w

end YamlTypes
