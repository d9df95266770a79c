import YamlTypes.Error
import YamlTypes.FileTree
import YamlTypes.Pattern.Reader

/-!
The YAML files below a directory.

A file is found if its name ends in `.yaml` or `.yml` and neither its name nor
that of a directory between begins with a point. Every directory can be read, but
a file whose path is too long to ask for it is left out. Patterns exclude files by
their path relative to the directory, written with slashes. The found paths are
the directory joined with the relative ones, in the order of their components.

The directory is reached segment by segment, starting from nothing: a point at
the start leads nowhere and is not part of the paths reached. So a path that was
reached need not begin with the directory as it was spelled, and then the whole
of it counts as relative. A segment with one of the characters `*?[]` is looked
up among the names that do not begin with a point.
-/

set_option autoImplicit false

namespace YamlTypes.Discovery

open YamlTypes.Path

def patterns? (texts : List String) : Option (List Pattern) :=
  texts.mapM fun text => Pattern.read? text.toList

/-- The written forms in a list that commas separate. Blanks around them do not count. -/
def splitList (text : String) : List String :=
  (((Text.splitOn ',' text.toList).map Text.trim).filter fun part => !part.isEmpty).map
    String.ofList

def excludes (patterns : List Pattern) (text : String) : Bool :=
  patterns.any fun pattern => pattern.isMatch text.toList

def startsWithPoint (name : String) : Bool := name.toList.head? == some '.'

def endsIn (ending name : String) : Bool := ending.toList.isSuffixOf name.toList

def isYamlName (name : String) : Bool := endsIn ".yaml" name || endsIn ".yml" name

def isHere (path : Path) : Bool := path.components == [.here]

def child (at_ : Path) (segment : String) : Path :=
  if isHere at_ then ⟨segment⟩ else at_.join ⟨segment⟩

def hasWildcard (segment : String) : Bool :=
  segment.toList.any fun c => ['*', '?', '[', ']'].contains c

def advance? (w : Workspace) (at_ : Path) (segment : String) : Option Path :=
  let next := child at_ segment
  if hasWildcard segment then
    if w.isDirectory at_ ∧ !startsWithPoint segment ∧ (w.entry? next).isSome then some next
    else none
  else if segment = "." ∨ segment = ".." then if w.isDirectory at_ then some next else none
  else if (w.entry? next).isSome then some next
  else none

/-- The segments of a directory after its root, slashes at its end left out. -/
def directorySegments (directory : Path) : List String :=
  let text := directory.text.toList
  let trimmed := (text.reverse.dropWhile (· == '/')).reverse
  let relative := if directory.isAbsolute then trimmed.drop 1 else trimmed
  if relative.isEmpty then [] else (Text.splitOn '/' relative).map String.ofList

def reach? (w : Workspace) (directory : Path) : Option Path :=
  (directorySegments directory).foldlM (advance? w) (if directory.isAbsolute then ⟨"/"⟩ else ⟨"."⟩)

/-- The components of a path after those of another one that it begins with. -/
def after? : List Component → List Component → Option (List Component)
  | [], rest => some rest
  | _ :: _, [] => none
  | c :: start, d :: rest => if c = d then after? start rest else none

/-- A path relative to a directory that it begins with, and the whole path otherwise. -/
def relativeTo (directory path : Path) : Path :=
  match after? directory.components path.components with
  | some rest => ofNames false (resolveNames rest)
  | none => path
where
  /-- The names of components that are names. -/
  resolveNames (components : List Component) : List String :=
    components.filterMap fun
      | .name s => some s
      | .parent => some ".."
      | _ => none

/-- The names that lead from a directory to the YAML files below it. -/
def yamlFilesBelow (w : Workspace) (directory : Location) : List Location :=
  (w.below directory).filterMap fun (names, entry) =>
    match entry with
    | .directory => none
    | .file _ =>
      if names.any startsWithPoint || !(names.getLast?.any isYamlName) then none else some names

/-- The order of components: the root, a point, two points, names by their characters. -/
def componentLE : Component → Component → Bool
  | .root, _ => true
  | _, .root => false
  | .here, _ => true
  | _, .here => false
  | .parent, _ => true
  | _, .parent => false
  | .name s, .name t => s ≤ t

def componentsLE : List Component → List Component → Bool
  | [], _ => true
  | _ :: _, [] => false
  | c :: cs, d :: ds => if c = d then componentsLE cs ds else componentLE c d

def pathLE (a b : Path) : Bool := componentsLE a.components b.components

/-- A list without the elements that have the same components as the one before them. -/
def dedup : List Path → List Path
  | a :: b :: rest =>
    if a.components = b.components then dedup (a :: rest) else a :: dedup (b :: rest)
  | paths => paths

/-- The YAML files below a directory that no pattern excludes. The empty path stands for the
directory of the workspace. -/
def find (w : Workspace) (directory : Path) (patterns : List Pattern) : List Path :=
  let directory := if directory.text = "" then ⟨"."⟩ else directory
  match reach? w directory with
  | none => []
  | some reached =>
    match w.locate reached with
    | .error _ => []
    | .ok location =>
      let found := (yamlFilesBelow w location).filterMap fun names =>
        let path := names.foldl child reached
        let relative := relativeTo directory path
        let candidate := relative.text.map fun c => if c = '\\' then '/' else c
        if !w.isFile path then none
        else if excludes patterns candidate then none
        else some (directory.join relative)
      dedup (found.mergeSort pathLE)

end YamlTypes.Discovery
