import YamlTypes.Number.Decimal
import YamlTypes.Text.Utf8
import YamlTypes.Yaml.Cursor
import YamlTypes.Yaml.Scalar

/-!
Block text of nodes.

Collections are written in block style, two spaces further in for each level,
empty ones as a pair of brackets; a sequence under a key stands at the column of
the key. A string is plain where its text means that string. Otherwise it is in
single quotes, as a literal block if it has newlines, or in double quotes if it
holds something that only escapes can show. A key that takes more than a line or
128 bytes is announced by a question mark.

The pen keeps what the layout hangs on: the column, whether the last thing
written was blank, and whether the line so far is indentation only.
-/

set_option autoImplicit false

namespace YamlTypes.Yaml

/-- Integers in decimal; floats in the shortest digits, an exponent without a plus sign. -/
def Number.style : YamlTypes.Number.DecimalStyle :=
  { least := -5, above := 16, plusSign := false, infinity := ".inf", notANumber := ".nan" }

def Number.text : Number → String
  | .int n => toString n
  | .float x => Number.style.text x

structure Pen where
  /-- The text so far, the last character first. -/
  written : List Char := []
  column : Nat := 0
  afterBlank : Bool := true
  onlyIndent : Bool := true

namespace Pen

def put (pen : Pen) (cs : List Char) : Pen :=
  { pen with written := cs.reverse ++ pen.written, column := pen.column + cs.length }

def newLine (pen : Pen) (c : Char) : Pen := { pen with written := c :: pen.written, column := 0 }

def toIndent (pen : Pen) (indent : Nat) : Pen :=
  let pen :=
    if !pen.onlyIndent || indent < pen.column || (pen.column == indent && !pen.afterBlank) then
      pen.newLine '\n'
    else pen
  { pen.put (List.replicate (indent - pen.column) ' ') with afterBlank := true, onlyIndent := true }

def space (pen : Pen) : Pen := if pen.afterBlank then pen else pen.put [' ']

def mark (pen : Pen) (cs : List Char) : Pen :=
  { pen.space.put cs with afterBlank := false, onlyIndent := false }

/-- A mark after which the line still counts as indentation. -/
def blockMark (pen : Pen) (c : Char) : Pen := { pen.space.put [c] with afterBlank := false }

def closing (pen : Pen) (cs : List Char) : Pen :=
  { pen.put cs with afterBlank := false, onlyIndent := false }

end Pen

def isPrintable (c : Char) : Bool :=
  let n := c.toNat
  n == 0x0A || (0x20 ≤ n && n ≤ 0x7E) || (0xA0 ≤ n && n ≤ 0xFFFD && n != 0xFEFF) || 0x10000 ≤ n

/-- The characters that end a line somewhere, as far as strings to be written go. -/
def isAnyBreak (c : Char) : Bool := isBreak c || c == '\r' || c == '\u0085'

def isAnyBlank (c : Char) : Bool := isSpaceOrTab c || isAnyBreak c || c == '\x00'

def anyBlankNext : List Char → Bool
  | [] => true
  | c :: _ => isAnyBlank c

/-- Whether plain text could not go on with these characters. -/
def hasIndicator (afterBlank : Bool) : List Char → Bool
  | [] => false
  | c :: rest =>
    (c == ':' && anyBlankNext rest) || (c == '#' && afterBlank) ||
      hasIndicator (isAnyBlank c) rest

/-- Whether plain text could not begin with these characters. -/
def startsWithIndicator (text : List Char) : Bool :=
  match text with
  | '-' :: '-' :: '-' :: _ => true
  | '.' :: '.' :: '.' :: _ => true
  | c :: rest =>
    ['#', ',', '[', ']', '{', '}', '&', '*', '!', '|', '>', '\x27', '"', '%', '@', '\x60'].contains c
      || (['?', ':', '-'].contains c && anyBlankNext rest)
  | [] => false

def hasPair (first second : Char → Bool) : List Char → Bool
  | a :: b :: rest => (first a && second b) || hasPair first second (b :: rest)
  | _ => false

structure Forms where
  plain : Bool
  single : Bool
  literal : Bool
  lines : Bool
  deriving DecidableEq, Repr

def forms (text : List Char) : Forms :=
  let isSpace (c : Char) := c == ' '
  if text.isEmpty then ⟨true, true, false, false⟩
  else
    let unshown := !text.all isPrintable || hasPair isSpace isAnyBreak text
    let lines := text.any isAnyBreak
    let outer (kind : Char → Bool) := (text.head?.any kind, text.getLast?.any kind)
    let (leadingSpace, trailingSpace) := outer isSpace
    let breakSpace := hasPair isAnyBreak isSpace text
    { plain := !unshown && !lines && !leadingSpace && !trailingSpace && !startsWithIndicator text &&
        !hasIndicator false text
      single := !unshown && !breakSpace
      literal := !unshown && !trailingSpace
      lines }

inductive ScalarStyle where
  | plain
  | single
  | double
  | literal
  deriving DecidableEq, Repr

def looksLikeOther (text : List Char) : Bool :=
  Scalar.isPaddedDigits text ||
    match Scalar.plain? text with
    | some (.string _) => false
    | _ => true

/-- The style of a string. `onLine` holds where it must stay on the line of a key. -/
def stringStyle (onLine : Bool) (text : List Char) : ScalarStyle :=
  let forms := forms text
  let quoted := if forms.single then .single else .double
  if text.contains '\n' then if onLine || !forms.literal then .double else .literal
  else if onLine && forms.lines then .double
  else if looksLikeOther text || !forms.plain then quoted
  else .plain

def hexUpper (width n : Nat) : List Char :=
  let digits := (Nat.toDigits 16 n).map Char.toUpper
  List.replicate (width - digits.length) '0' ++ digits

def escapeText (c : Char) : List Char :=
  let n := c.toNat
  match c with
  | '\x00' => ['0']
  | '\x07' => ['a']
  | '\x08' => ['b']
  | '\t' => ['t']
  | '\n' => ['n']
  | '\x0b' => ['v']
  | '\x0c' => ['f']
  | '\r' => ['r']
  | '\x1b' => ['e']
  | '"' => ['"']
  | '\\' => ['\\']
  | '\u0085' => ['N']
  | '\u2028' => ['L']
  | '\u2029' => ['P']
  | _ =>
    if n ≤ 0xFF then 'x' :: hexUpper 2 n
    else if n ≤ 0xFFFF then 'u' :: hexUpper 4 n
    else 'U' :: hexUpper 8 n

def doubleQuotedChar (c : Char) : List Char :=
  if !isPrintable c || isAnyBreak c || c == '"' || c == '\\' then '\\' :: escapeText c else [c]

/-- The characters of text in single quotes; a line break is followed by the indentation. `broken`
holds right after one. -/
def singleQuotedChars (indent : Nat) (broken : Bool) : Pen → List Char → Pen
  | pen, [] => if broken then pen.toIndent indent else pen
  | pen, c :: rest =>
    if isAnyBreak c then
      singleQuotedChars indent true { pen.newLine c with onlyIndent := true } rest
    else
      let pen := if broken then pen.toIndent indent else pen
      let pen := pen.put (if c == '\x27' then [c, c] else [c])
      singleQuotedChars indent false { pen with onlyIndent := false } rest

/-- The lines of a literal block. `broken` holds at the start of a line. -/
def literalChars (indent : Nat) (broken : Bool) : Pen → List Char → Pen
  | pen, [] => pen
  | pen, c :: rest =>
    if isAnyBreak c then literalChars indent true { pen.newLine c with onlyIndent := true } rest
    else
      let pen := if broken then pen.toIndent indent else pen
      literalChars indent false { pen.put [c] with onlyIndent := false } rest

def chompingMark (text : List Char) : List Char :=
  match text.reverse with
  | [] => ['-']
  | last :: before =>
    if !isAnyBreak last then ['-']
    else match before with
      | [] => ['+']
      | c :: _ => if isAnyBreak c then ['+'] else []

def literalHeader (text : List Char) : List Char :=
  '|' :: (if text.head?.any (fun c => c == ' ' || isAnyBreak c) then ['2'] else []) ++
    chompingMark text

def Pen.scalar (pen : Pen) (style : ScalarStyle) (indent : Nat) (text : List Char) : Pen :=
  let ended (pen : Pen) : Pen := { pen with afterBlank := false, onlyIndent := false }
  match style with
  | .plain => ended ((if text.isEmpty then pen else pen.space).put text)
  | .single => ended ((singleQuotedChars indent false (pen.mark ['\x27']) text).put ['\x27'])
  | .double => ended ((pen.mark ['"']).put (text.flatMap doubleQuotedChar ++ ['"']))
  | .literal =>
    let pen := (pen.mark (literalHeader text)).newLine '\n'
    literalChars indent true { pen with afterBlank := true, onlyIndent := true } text

def isTagChar (c : Char) : Bool :=
  isWordChar c || [';', '/', '?', ':', '@', '&', '=', '+', '$', ',', '.', '~', '*', '\x27', '(', ')',
    '[', ']'].contains c

/-- A character of a tag, its bytes in hexadecimal unless it stands for itself. -/
def tagChar (c : Char) : List Char :=
  if isTagChar c then [c]
  else (String.singleton c).toUTF8.toList.flatMap fun byte => '%' :: hexUpper 2 byte.toNat

def tagText (tag : String) : List Char :=
  match bareTag tag with
  | ['!'] => ['!', '<'] ++ tagChar '!' ++ ['>']
  | '!' :: name => '!' :: name.flatMap tagChar
  | name => '!' :: name.flatMap tagChar

def tagSize (tag : String) : Nat :=
  match bareTag tag with
  | '!' :: name => 1 + Text.Utf8.byteLength name
  | name => 1 + Text.Utf8.byteLength name

namespace Node

/-- The text of a scalar as far as its size goes, and whether it has lines; empty collections are
no text. -/
def keyText? : Node → Option (List Char)
  | .null => some "null".toList
  | .bool b => some (if b then "true".toList else "false".toList)
  | .number n => some n.text.toList
  | .string s => if (forms s.toList).lines then none else some s.toList
  | .sequence [] => some []
  | .mapping [] => some []
  | _ => none

/-- Whether a key can stand on a line before a colon. -/
def isSimpleKey : Node → Bool
  | .tagged tag content =>
    match content.keyText? with
    | some text => tagSize tag + Text.Utf8.byteLength text ≤ 128
    | none => false
  | node =>
    match node.keyText? with
    | some text => Text.Utf8.byteLength text ≤ 128
    | none => false

/-- Where a node stands: under a key, and if so whether it is itself a key on a line. -/
structure Place where
  inMapping : Bool
  onLine : Bool

mutual

/-- Write a node inside a collection at `indent`; outside of all there is none. -/
def write (indent : Option Nat) (place : Place) (pen : Pen) : Node → Pen
  | .null => pen.scalar .plain 0 "null".toList
  | .bool b => pen.scalar .plain 0 (if b then "true".toList else "false".toList)
  | .number n => pen.scalar .plain 0 n.text.toList
  | .string s =>
    let text := s.toList
    pen.scalar (stringStyle place.onLine text) ((indent.map (· + 2)).getD 2) text
  | .sequence [] => (pen.mark ['[']).closing [']']
  | .sequence items =>
    let inner := match indent with
      | none => 0
      | some n => if place.inMapping && !pen.onlyIndent then n else n + 2
    writeItems inner pen items
  | .mapping [] => (pen.mark ['\x7b']).closing ['\x7d']
  | .mapping entries => writeEntries ((indent.map (· + 2)).getD 0) pen entries
  | .tagged tag content => write indent place (pen.mark (tagText tag)) content

def writeItems (indent : Nat) (pen : Pen) : List Node → Pen
  | [] => pen
  | item :: rest =>
    writeItems indent
      (write (some indent) ⟨false, false⟩ ((pen.toIndent indent).blockMark '-') item) rest

def writeEntries (indent : Nat) (pen : Pen) : List (Node × Node) → Pen
  | [] => pen
  | (key, value) :: rest =>
    let pen := pen.toIndent indent
    let pen :=
      if key.isSimpleKey then
        (write (some indent) ⟨true, true⟩ pen key).closing [':']
      else
        ((write (some indent) ⟨true, false⟩ (pen.blockMark '?') key).toIndent indent).blockMark ':'
    writeEntries indent (write (some indent) ⟨true, false⟩ pen value) rest

end

/-- Whether a key hides the start of a mapping that has no other key: a tag of its own or the start
of a mapping of one entry would stand in the same place. -/
def hidesStart : Node → Bool
  | .mapping [_] => true
  | .tagged .. => true
  | _ => false

mutual

/-- Whether a node has a text. A mapping of one entry, whose start is written with its key, needs a
key that does not hide it, unless a tag shows the start. -/
def isWritable (underTag : Bool) : Node → Bool
  | .sequence items => areWritable items
  | .mapping entries =>
    (underTag || !(entries.length == 1 && entries.any fun entry => entry.1.hidesStart)) &&
      entriesWritable entries
  | .tagged _ content => isWritable true content
  | _ => true

def areWritable : List Node → Bool
  | [] => true
  | item :: rest => isWritable false item && areWritable rest

def entriesWritable : List (Node × Node) → Bool
  | [] => true
  | (key, value) :: rest =>
    isWritable false key && isWritable false value && entriesWritable rest

end

def text? (node : Node) : Option (List Char) :=
  if node.isWritable false then some (write none ⟨false, false⟩ {} node).written.reverse else none

end Node

end YamlTypes.Yaml
