import YamlTypes.Include.Loader
import YamlTypes.Path

/-!
Trees of files and directories.

A location is the list of names from the root to an entry. A path is followed
from a directory as the POSIX rules say: every step but the last leads through a
directory that is there, `..` leads to the directory around, names and paths
have a greatest length. There are no links.

A workspace is a tree seen from one of its directories, where relative paths
begin.
-/

set_option autoImplicit false

namespace YamlTypes

open Include (FileFault)

abbrev Location := List String

inductive Entry where
  | file (bytes : List UInt8)
  | directory
  deriving DecidableEq, Repr

structure FileTree where
  entries : List (Location × Entry) := []
  deriving DecidableEq, Repr, Inhabited

namespace FileTree

/-- What is at a location. The root is always a directory. -/
def get? (tree : FileTree) (location : Location) : Option Entry :=
  if location = [] then some .directory else tree.entries.lookup location

def setEntry (location : Location) (entry : Entry) :
    List (Location × Entry) → List (Location × Entry)
  | [] => [(location, entry)]
  | (l, e) :: rest =>
    if l = location then (l, entry) :: rest else (l, e) :: setEntry location entry rest

def set (tree : FileTree) (location : Location) (entry : Entry) : FileTree :=
  ⟨setEntry location entry tree.entries⟩

def erase (tree : FileTree) (location : Location) : FileTree :=
  ⟨tree.entries.filter fun (l, _) => l ≠ location⟩

def makeDirectories (tree : FileTree) (location : Location) : FileTree :=
  (List.range location.length).foldl (fun tree n =>
    let l := location.take (n + 1)
    if (tree.get? l).isSome then tree else tree.set l .directory) tree

def maxName : Nat := 255

def pathLimit : Nat := 4096

/-- The location that one segment of a path leads to. Whether something is there is not asked. -/
def step (tree : FileTree) (here : Location) (segment : String) : Except FileFault Location :=
  match tree.get? here with
  | none => .error .notFound
  | some (.file _) => .error .notDirectory
  | some .directory =>
    if segment = "" ∨ segment = "." then .ok here
    else if segment = ".." then .ok here.dropLast
    else if maxName < segment.utf8ByteSize then .error .nameTooLong
    else .ok (here ++ [segment])

def walk (tree : FileTree) : Location → List String → Except FileFault Location
  | here, [] => .ok here
  | here, segment :: rest =>
    match tree.step here segment with
    | .error fault => .error fault
    | .ok there => tree.walk there rest

def segments (path : Path) : List String :=
  (Text.splitOn '/' path.text.toList).map String.ofList

def badPath? (path : Path) : Option FileFault :=
  if path.text.toList.contains '\x00' then some .nulInName
  else if path.text = "" then some .notFound
  else if pathLimit ≤ path.text.utf8ByteSize then some .nameTooLong
  else none

end FileTree

structure Workspace where
  tree : FileTree
  /-- The location of the directory. -/
  directory : Location
  deriving DecidableEq, Repr, Inhabited

namespace Workspace

def directoryPath (w : Workspace) : Path := Path.ofNames true w.directory

def origin (w : Workspace) (path : Path) : Location := if path.isAbsolute then [] else w.directory

def locate (w : Workspace) (path : Path) : Except FileFault Location :=
  match FileTree.badPath? path with
  | some fault => .error fault
  | none => w.tree.walk (w.origin path) (FileTree.segments path)

def entry? (w : Workspace) (path : Path) : Option Entry :=
  match w.locate path with
  | .ok location => w.tree.get? location
  | .error _ => none

def isDirectory (w : Workspace) (path : Path) : Bool := w.entry? path == some .directory

def isFile (w : Workspace) (path : Path) : Bool :=
  match w.entry? path with
  | some (.file _) => true
  | _ => false

def read (w : Workspace) (path : Path) : Except FileFault (List UInt8) :=
  match w.locate path with
  | .error fault => .error fault
  | .ok location =>
    match w.tree.get? location with
    | none => .error .notFound
    | some .directory => .error .isDirectory
    | some (.file bytes) => .ok bytes

/-- The location where a file of this path would be written. A path that ends in a slash or in dots
names a directory. -/
def writable (w : Workspace) (path : Path) : Except FileFault Location :=
  match FileTree.badPath? path with
  | some fault => .error fault
  | none =>
    let segments := FileTree.segments path
    let named := (segments.reverse.dropWhile (· = "")).reverse
    match w.tree.walk (w.origin path) named.dropLast with
    | .error fault => .error fault
    | .ok parent =>
      let name := named.getLast?.getD "."
      match w.tree.step parent name with
      | .error fault => .error fault
      | .ok location =>
        if named.length < segments.length ∨ name = "." ∨ name = ".." ∨
            w.tree.get? location = some .directory then
          .error .isDirectory
        else .ok location

def write (w : Workspace) (path : Path) (bytes : List UInt8) : Except FileFault Workspace :=
  (w.writable path).map fun location => { w with tree := w.tree.set location (.file bytes) }

def readText (w : Workspace) (path : Path) (encoding : Encoding) : Except FileFault (List Char) :=
  (w.read path).bind (Include.readText encoding)

def below (w : Workspace) (directory : Location) : List (Location × Entry) :=
  w.tree.entries.filterMap fun (location, entry) =>
    if directory.isPrefixOf location ∧ location ≠ directory then
      some (location.drop directory.length, entry)
    else none

end Workspace

end YamlTypes
