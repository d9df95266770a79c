import YamlTypes.Encoding
import YamlTypes.Path

/-!
Where included documents come from.

A loader answers a path with the text of a document or with the reason why there
is none. It may change with each call; its state is passed along. A store
answers the same path alike every time. A script holds versions of documents in
memory, and a limit on the number of calls.
-/

set_option autoImplicit false

namespace YamlTypes.Include

inductive FileFault where
  | notFound
  | isDirectory
  | notDirectory
  | nameTooLong
  | nulInName
  /-- There is no directory that the empty path names. -/
  | emptyPath
  | invalidUtf8 (fault : Text.Utf8.Fault)
  | notInMemory
  | loadLimit
  deriving DecidableEq, Repr

def FileFault.message : FileFault → String
  | .notFound => "No such file or directory (os error 2)"
  | .isDirectory => "Is a directory (os error 21)"
  | .notDirectory => "Not a directory (os error 20)"
  | .nameTooLong => "File name too long (os error 36)"
  | .nulInName => "file name contained an unexpected NUL byte"
  | .emptyPath => "cannot make an empty path absolute"
  | .invalidUtf8 fault => fault.message
  | .notInMemory => "not in memory"
  | .loadLimit => "load limit reached"

def readText (encoding : Encoding) (bytes : List UInt8) : Except FileFault (List Char) :=
  match encoding.decode bytes with
  | .ok text => .ok text
  | .error fault => .error (.invalidUtf8 fault)

structure Loader (σ : Type) where
  load : Path → Encoding → σ → σ × Except FileFault (List Char)

/-- A loader that gives the same answer for the same path. -/
def Loader.ofStore (answer : Path → Encoding → Except FileFault (List Char)) : Loader Unit where
  load path encoding _ := ((), answer path encoding)

/-- Documents in memory: for each path the versions that its loads find one after the other, the
last of them for good; and how many more loads are answered. -/
structure Script where
  documents : List (Path × List (List UInt8))
  remaining : Nat
  calls : List Path
  deriving Repr

namespace Script

def advance : List (List UInt8) → Option (List UInt8) × List (List UInt8)
  | [] => (none, [])
  | [bytes] => (some bytes, [bytes])
  | bytes :: later => (some bytes, later)

/-- The current version of the first document with the path. -/
def take (path : Path) : List (Path × List (List UInt8)) →
    Option (List UInt8) × List (Path × List (List UInt8))
  | [] => (none, [])
  | (p, versions) :: rest =>
    if p = path then
      let (bytes, later) := advance versions
      (bytes, (p, later) :: rest)
    else
      let (bytes, others) := take path rest
      (bytes, (p, versions) :: others)

/-- A call past the limit is not counted as one. -/
def load (path : Path) (encoding : Encoding) (script : Script) :
    Script × Except FileFault (List Char) :=
  match script.remaining with
  | 0 => (script, .error .loadLimit)
  | remaining + 1 =>
    let (bytes, documents) := take path script.documents
    ({ documents, remaining, calls := script.calls ++ [path] },
      match bytes with
      | none => .error .notInMemory
      | some bytes => readText encoding bytes)

def loader : Loader Script := ⟨load⟩

end Script

end YamlTypes.Include
