import YamlTypes.Text.Blank

/-!
File paths as text, in the POSIX manner.

A path is cut at slashes into components: the root, names, `..`, and a `.` that
begins a relative path. Repeated slashes, a slash at the end and any other `.`
are no components. `normalize` works on the components alone: every `..` takes
back the name before it and the root is its own parent, so the result of an
absolute path has ordinary names only.
-/

set_option autoImplicit false

namespace YamlTypes

structure Path where
  text : String
  deriving DecidableEq, Repr, Inhabited

namespace Path

inductive Component where
  | root
  | here
  | parent
  | name (s : String)
  deriving DecidableEq, Repr

/-- The component that the text between two slashes is; `first` holds at the start of a relative
path. -/
def component? (first : Bool) (segment : List Char) : Option Component :=
  if segment = [] then none
  else if segment = ['.'] then if first then some .here else none
  else if segment = ['.', '.'] then some .parent
  else some (.name (String.ofList segment))

def isAbsolute (path : Path) : Bool := path.text.toList.head? == some '/'

def components (path : Path) : List Component :=
  match Text.splitOn '/' path.text.toList with
  | [] => []
  | first :: rest =>
    (if path.isAbsolute then [.root] else (component? true first).toList) ++
      rest.filterMap (component? false)

def ofNames (absolute : Bool) (names : List String) : Path :=
  ⟨(if absolute then "/" else "") ++ String.intercalate "/" names⟩

/-- The names that remain of some components, the last one first. -/
def resolveComponents : List String → List Component → List String
  | names, [] => names
  | _, .root :: rest => resolveComponents [] rest
  | names, .here :: rest => resolveComponents names rest
  | names, .parent :: rest => resolveComponents (names.drop 1) rest
  | names, .name s :: rest => resolveComponents (s :: names) rest

def names (path : Path) : List String := (resolveComponents [] path.components).reverse

def normalize (path : Path) : Path := ofNames path.isAbsolute path.names

/-- A path given relative to another one. An absolute path stands for itself. -/
def join (base operand : Path) : Path :=
  if operand.isAbsolute then operand
  else if base.text = "" then operand
  else if base.text.toList.getLast? = some '/' then ⟨base.text ++ operand.text⟩
  else ⟨base.text ++ "/" ++ operand.text⟩

/-- The normal form of a path seen from a directory. The empty path names nothing. -/
def absolute? (directory path : Path) : Option Path :=
  if path.text = "" then none else some (normalize (directory.join path))

end Path

end YamlTypes
