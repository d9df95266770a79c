import YamlTypes.Include.Directive
import YamlTypes.Include.Loader

/-!
Documents with their includes expanded.

Each directive of a text is replaced by the document that it names, itself
expanded, with every line after the first indented by the column of the
directive. Operands are relative to one base directory for all documents. The
chain holds the documents being expanded, outermost first; where cycles are
detected, a document that names one of them is an error.

An expansion is computed to a given depth of nesting. `none` says that it goes
deeper than that; a run that has ended is the same at every greater depth.
-/

set_option autoImplicit false

namespace YamlTypes.Include

inductive CycleMode where
  | detect
  /-- A document that includes itself is expanded without end. -/
  | unchecked
  deriving DecidableEq, Repr, Inhabited

structure Settings where
  encoding : Encoding := .utf8
  cycles : CycleMode := .detect
  deriving DecidableEq, Repr, Inhabited

inductive Failure where
  /-- The directive on this line of its document names nothing. -/
  | missingOperand (line : Nat) (directive : List Char)
  | unreadable (path : Path) (fault : FileFault)
  | cycle (chain : List Path)
  /-- The nesting goes deeper than any that could end. -/
  | endless
  deriving DecidableEq, Repr

def chainText (chain : List Path) : String := String.intercalate " -> " (chain.map Path.text)

def Failure.message : Failure → String
  | .missingOperand line directive =>
    "include directive at line " ++ toString line ++ " has no path: " ++ String.ofList directive
  | .unreadable path fault => "cannot read " ++ path.text ++ ": " ++ fault.message
  | .cycle chain => "cyclic include: " ++ chainText chain
  | .endless => "the includes never end"

/-- An expanded text, and the path of every document in it, each before those that it includes. -/
structure Expansion where
  text : List Char
  referenced : List Path
  deriving DecidableEq, Repr, Inhabited

/-- What a run leaves behind: the loader's state, the paths it was asked for, and the result. -/
structure Run (σ : Type) where
  state : σ
  loads : List Path
  result : Except Failure Expansion

/-- The text with `column` spaces after each newline. -/
def reindent (column : Nat) (text : List Char) : List Char :=
  text.flatMap fun c => if c = '\n' then c :: List.replicate column ' ' else [c]

def target (base : Path) (operand : List Char) : Path :=
  (base.join ⟨String.ofList operand⟩).normalize

section
variable {σ : Type} (loader : Loader σ) (base : Path) (settings : Settings)
  (expandText : List Path → List Char → σ → Option (Run σ))

def expandDirective (chain : List Path) (d : Directive) (state : σ) : Option (Run σ) :=
  if d.operand = [] then some ⟨state, [], .error (.missingOperand d.position.line d.text)⟩
  else
    let path := target base d.operand
    if settings.cycles = .detect ∧ path ∈ chain then
      some ⟨state, [], .error (.cycle (chain ++ [path]))⟩
    else
      match loader.load path settings.encoding state with
      | (state, .error fault) => some ⟨state, [path], .error (.unreadable path fault)⟩
      | (state, .ok text) => do
        let inner ← expandText (chain ++ [path]) text state
        some { inner with
          loads := path :: inner.loads
          result := inner.result.map fun expansion =>
            ⟨reindent d.position.column expansion.text, path :: expansion.referenced⟩ }

def expandPieces (chain : List Path) : List Piece → σ → Option (Run σ)
  | [], state => some ⟨state, [], .ok ⟨[], []⟩⟩
  | .char c :: rest, state => do
    let run ← expandPieces chain rest state
    some { run with result := run.result.map fun later => ⟨c :: later.text, later.referenced⟩ }
  | .directive d :: rest, state => do
    let here ← expandDirective loader base settings expandText chain d state
    match here.result with
    | .error failure => some ⟨here.state, here.loads, .error failure⟩
    | .ok expansion =>
      let run ← expandPieces chain rest here.state
      some { run with
        loads := here.loads ++ run.loads
        result := run.result.map fun later =>
          ⟨expansion.text ++ later.text, expansion.referenced ++ later.referenced⟩ }

end

/-- The expansion of a text that stands in a chain, if it nests no deeper than `depth`. -/
def expand {σ : Type} (loader : Loader σ) (base : Path) (settings : Settings) :
    Nat → List Path → List Char → σ → Option (Run σ)
  | 0, _, _, _ => none
  | depth + 1, chain, text, state =>
    expandPieces loader base settings (expand loader base settings depth) chain (pieces text) state

/-- The expansion of a text below a root, a path that is given as seen from a directory. -/
def resolve {σ : Type} (loader : Loader σ) (directory root : Path) (settings : Settings)
    (depth : Nat) (chain : List Path) (text : List Char) (state : σ) : Option (Run σ) :=
  match Path.absolute? directory root with
  | none => some ⟨state, [], .error (.unreadable root .emptyPath)⟩
  | some base => expand loader base settings depth chain text state

end YamlTypes.Include
