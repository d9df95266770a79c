import YamlTypes.Text.Utf8
import YamlTypes.Yaml.Token.Block
import YamlTypes.Yaml.Token.Plain
import YamlTypes.Yaml.Token.Quoted
import YamlTypes.Yaml.Token.Tag

/-!
From text to tokens.

The lexer keeps the columns of the open block collections and, for the block
context and each open flow collection, the place where a key may have begun. A
colon turns that place into a key: the tokens for it are inserted there, and so
is the start of a block mapping if the key stands further in than the collection
around it. A key written without a question mark lies on one line and is at most
1024 bytes long.
-/

set_option autoImplicit false

namespace YamlTypes.Yaml

structure PossibleKey where
  /-- Nothing else can begin at its column. -/
  required : Bool
  /-- The number of tokens before it. -/
  position : Nat
  start : Cursor
  deriving Repr

structure Lexer where
  cursor : Cursor
  /-- The tokens so far, the last one first. -/
  tokens : List Token := []
  /-- The column of the innermost block collection, or -1 outside all of them. -/
  indent : Int := -1
  /-- The columns of the collections around it. -/
  outer : List Int := []
  /-- The possible key of the innermost flow collection, or of the block context. -/
  possible : Option PossibleKey := none
  /-- Those of the flow collections around it, and last of the block context. -/
  outerPossible : List (Option PossibleKey) := []
  /-- Whether a key may begin at the cursor. -/
  keyAllowed : Bool := true
  deriving Repr

namespace Lexer

def inFlow (lexer : Lexer) : Bool := !lexer.outerPossible.isEmpty

def emit (lexer : Lexer) (token : Token) : Lexer :=
  { lexer with tokens := token :: lexer.tokens }

def insert (lexer : Lexer) (position : Nat) (token : Token) : Lexer :=
  let later := lexer.tokens.length - position
  { lexer with tokens := lexer.tokens.take later ++ token :: lexer.tokens.drop later }

/-- Open a block collection at a column that is further in than the one around it. Its start goes
behind the first `position` tokens. -/
def openBlock (lexer : Lexer) (column : Nat) (position : Nat) (start : Token) : Lexer :=
  if !lexer.inFlow && lexer.indent < column then
    { lexer.insert position start with indent := column, outer := lexer.indent :: lexer.outer }
  else lexer

/-- End every block collection that is further in than a column. -/
def closeBlocks (column : Int) : Int → List Int → List Token → Int × List Int × List Token
  | indent, [], tokens => (indent, [], tokens)
  | indent, around :: outer, tokens =>
    if column < indent then closeBlocks column around outer (.blockEnd :: tokens)
    else (indent, around :: outer, tokens)

def dedent (lexer : Lexer) (column : Int) : Lexer :=
  if lexer.inFlow then lexer
  else
    let (indent, outer, tokens) := closeBlocks column lexer.indent lexer.outer lexer.tokens
    { lexer with indent, outer, tokens }

/-- Give up the possible key, which is an error if nothing else could stand there. -/
def dropKey? (lexer : Lexer) : Option Lexer :=
  match lexer.possible with
  | none => some lexer
  | some key => if key.required then none else some { lexer with possible := none }

/-- Note that a key may begin at the cursor, where one is allowed. -/
def noteKey? (lexer : Lexer) : Option Lexer :=
  if lexer.keyAllowed then do
    let lexer ← lexer.dropKey?
    some { lexer with
      possible := some {
        required := !lexer.inFlow && lexer.indent = lexer.cursor.column
        position := lexer.tokens.length
        start := lexer.cursor } }
  else some lexer

def maxKeyBytes : Nat := 1024

def isStale (cursor : Cursor) (key : PossibleKey) : Bool :=
  key.start.line < cursor.line || maxKeyBytes < Text.Utf8.byteLength (key.start.lineUpTo cursor)

/-- A possible key that can still become one, and an error where a required one cannot. -/
def refresh? (cursor : Cursor) : Option PossibleKey → Option (Option PossibleKey)
  | none => some none
  | some key =>
    if isStale cursor key then if key.required then none else some none else some (some key)

def refreshKeys? (lexer : Lexer) : Option Lexer := do
  let possible ← refresh? lexer.cursor lexer.possible
  let outerPossible ← lexer.outerPossible.mapM (refresh? lexer.cursor)
  some { lexer with possible, outerPossible }

/-- The cursor at the next token, and whether a key may begin there. Tabs are blanks only where no
block collection can begin, and a byte order mark is one at the start of a line. `comment` holds
inside a comment. -/
def toTokenFrom (inFlow : Bool) (comment : Bool) (allowed : Bool) (line column : Nat) :
    List Char → Cursor × Bool
  | [] => (⟨[], line, column⟩, allowed)
  | c :: rest =>
    if isBreak c then toTokenFrom inFlow false (allowed || !inFlow) (line + 1) 0 rest
    else if comment || c == ' ' || (c == '\t' && (inFlow || !allowed)) ||
        (c == '\uFEFF' && column == 0) then
      toTokenFrom inFlow comment allowed line (column + 1) rest
    else if c == '#' then toTokenFrom inFlow true allowed line (column + 1) rest
    else (⟨c :: rest, line, column⟩, allowed)

def toToken (lexer : Lexer) : Lexer :=
  let (cursor, keyAllowed) := toTokenFrom lexer.inFlow false lexer.keyAllowed lexer.cursor.line
    lexer.cursor.column lexer.cursor.rest
  { lexer with cursor, keyAllowed }

def take (lexer : Lexer) (count : Nat) (token : Token) : Lexer :=
  { lexer.emit token with cursor := lexer.cursor.skip count }

/-- The end of the text ends every collection. -/
def finish? (lexer : Lexer) : Option Lexer := (lexer.dedent (-1)).dropKey?

/-- Directives and document markers stand outside every collection. -/
def outermost? (lexer : Lexer) : Option Lexer := do
  let lexer ← (lexer.dedent (-1)).dropKey?
  some { lexer with keyAllowed := false }

def directive? (lexer : Lexer) : Option Lexer := do
  let lexer ← lexer.outermost?
  let (token, cursor) ← Yaml.directive? lexer.cursor
  some { lexer.emit token with cursor }

def marker? (lexer : Lexer) (token : Token) : Option Lexer := do
  let lexer ← lexer.outermost?
  some (lexer.take 3 token)

def openFlow? (lexer : Lexer) (token : Token) : Option Lexer := do
  let lexer ← lexer.noteKey?
  some { lexer.take 1 token with
    possible := none, outerPossible := lexer.possible :: lexer.outerPossible, keyAllowed := true }

def closeFlow? (lexer : Lexer) (token : Token) : Option Lexer := do
  let lexer ← lexer.dropKey?
  let lexer := { lexer.take 1 token with keyAllowed := false }
  match lexer.outerPossible with
  | [] => some lexer
  | possible :: outerPossible => some { lexer with possible, outerPossible }

def flowEntry? (lexer : Lexer) : Option Lexer := do
  let lexer ← lexer.dropKey?
  some { lexer.take 1 .flowEntry with keyAllowed := true }

def blockEntry? (lexer : Lexer) : Option Lexer :=
  if !lexer.inFlow && !lexer.keyAllowed then none
  else do
    let lexer ←
      (lexer.openBlock lexer.cursor.column lexer.tokens.length .blockSequenceStart).dropKey?
    some { lexer.take 1 .blockEntry with keyAllowed := true }

def key? (lexer : Lexer) : Option Lexer :=
  if !lexer.inFlow && !lexer.keyAllowed then none
  else do
    let lexer ←
      (lexer.openBlock lexer.cursor.column lexer.tokens.length .blockMappingStart).dropKey?
    some { lexer.take 1 .key with keyAllowed := !lexer.inFlow }

def value? (lexer : Lexer) : Option Lexer :=
  match lexer.possible with
  | some key =>
    let lexer := (lexer.insert key.position .key).openBlock key.start.column key.position
      .blockMappingStart
    some { lexer.take 1 .value with possible := none, keyAllowed := false }
  | none =>
    if !lexer.inFlow && !lexer.keyAllowed then none
    else
      let lexer := lexer.openBlock lexer.cursor.column lexer.tokens.length .blockMappingStart
      some { lexer.take 1 .value with keyAllowed := !lexer.inFlow }

def keyStart? (lexer : Lexer) (read : Cursor → Option (Token × Cursor)) : Option Lexer := do
  let lexer ← lexer.noteKey?
  let (token, cursor) ← read lexer.cursor
  some { lexer.emit token with cursor, keyAllowed := false }

def plain? (lexer : Lexer) : Option Lexer := do
  let lexer ← lexer.noteKey?
  let scan ← Yaml.plain? lexer.inFlow (lexer.indent + 1) lexer.cursor
  some { lexer.emit (.scalar true scan.text) with
    cursor := scan.cursor, keyAllowed := scan.brokenAfter }

def blockScalar? (lexer : Lexer) : Option Lexer := do
  let lexer ← lexer.dropKey?
  let (text, cursor) ← Yaml.blockScalar? lexer.indent lexer.cursor
  some { lexer.emit (.scalar false text) with cursor, keyAllowed := true }

/-- The characters that begin no plain scalar. -/
def indicators : List Char :=
  ['-', '?', ':', ',', '[', ']', '{', '}', '#', '&', '*', '!', '|', '>', '\x27', '"', '%', '@',
    '\x60']

/-- Whether a plain scalar begins with this character. Some indicators are plain before anything
but a blank. -/
def beginsPlain (inFlow : Bool) (c : Char) (rest : List Char) : Bool :=
  !(isBlank c || indicators.contains c) ||
    (c == '-' && !oneOfNext [' ', '\t'] rest) ||
    (!inFlow && (c == '?' || c == ':') && !blankNext rest)

def token? (lexer : Lexer) (c : Char) (rest : List Char) : Option Lexer :=
  let atStart := lexer.cursor.column == 0
  if atStart && c == '%' then lexer.directive?
  else if atStart && isMarker (c :: rest) then
    lexer.marker? (if c = '-' then .documentStart else .documentEnd)
  else if c = '[' then lexer.openFlow? .flowSequenceStart
  else if c = '{' then lexer.openFlow? .flowMappingStart
  else if c = ']' then lexer.closeFlow? .flowSequenceEnd
  else if c = '}' then lexer.closeFlow? .flowMappingEnd
  else if c = ',' then lexer.flowEntry?
  else if c = '-' ∧ blankNext rest then lexer.blockEntry?
  else if c = '?' ∧ (lexer.inFlow ∨ blankNext rest) then lexer.key?
  else if c = ':' ∧ (lexer.inFlow ∨ blankNext rest) then lexer.value?
  else if c = '*' then
    lexer.keyStart? fun cursor => do
      let (name, after) ← anchorName? cursor
      some (.alias name, after)
  else if c = '&' then
    lexer.keyStart? fun cursor => do
      let (name, after) ← anchorName? cursor
      some (.anchor name, after)
  else if c = '!' then
    lexer.keyStart? fun cursor => do
      let (mark, after) ← tag? lexer.inFlow cursor
      some (.tag mark, after)
  else if (c = '|' ∨ c = '>') ∧ !lexer.inFlow then lexer.blockScalar?
  else if c = '\x27' ∨ c = '"' then
    lexer.keyStart? fun cursor => do
      let (text, after) ← quoted? cursor
      some (.scalar false text, after)
  else if beginsPlain lexer.inFlow c rest then lexer.plain?
  else none

def ready? (lexer : Lexer) : Option Lexer := do
  let lexer ← lexer.toToken.refreshKeys?
  some (lexer.dedent lexer.cursor.column)

def run? : Nat → Lexer → Option Lexer
  | 0, lexer => do
    let lexer ← lexer.ready?
    if lexer.cursor.rest.isEmpty then lexer.finish? else none
  | bound + 1, lexer => do
    let lexer ← lexer.ready?
    match lexer.cursor.rest with
    | [] => lexer.finish?
    | c :: rest => run? bound (← lexer.token? c rest)

end Lexer

def tokens? (text : List Char) : Option (List Token) :=
  if text.all isAllowed then do
    let text := uniformBreaks text
    let lexer ← Lexer.run? text.length { cursor := .ofText text }
    some lexer.tokens.reverse
  else none

end YamlTypes.Yaml
