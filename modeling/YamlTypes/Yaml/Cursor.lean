/-!
The characters of YAML and a place among them.

Before anything else the line breaks of a text are made uniform: carriage
returns, alone or before a newline, and U+0085 become newlines, while the line
and paragraph separators stay what they are. A cursor is what is left of such a
text together with the line and the column where it begins.
-/

set_option autoImplicit false

namespace YamlTypes.Yaml

/-- The characters that a document may hold at all. -/
def isAllowed (c : Char) : Bool :=
  let n := c.toNat
  n == 0x09 || n == 0x0A || n == 0x0D || (0x20 ≤ n && n ≤ 0x7E) || n == 0x85 ||
    (0xA0 ≤ n && n ≤ 0xFFFD) || 0x10000 ≤ n

def uniformBreaks : List Char → List Char
  | [] => []
  | '\r' :: '\n' :: rest => '\n' :: uniformBreaks rest
  | '\r' :: rest => '\n' :: uniformBreaks rest
  | '\u0085' :: rest => '\n' :: uniformBreaks rest
  | c :: rest => c :: uniformBreaks rest

def isBreak (c : Char) : Bool := c == '\n' || c == '\u2028' || c == '\u2029'

def isSpaceOrTab (c : Char) : Bool := c == ' ' || c == '\t'

def isBlank (c : Char) : Bool := isSpaceOrTab c || isBreak c

def isDigit (c : Char) : Bool := '0' ≤ c && c ≤ '9'

def isWordChar (c : Char) : Bool :=
  isDigit c || ('a' ≤ c && c ≤ 'z') || ('A' ≤ c && c ≤ 'Z') || c == '_' || c == '-'

def hexValue? (c : Char) : Option Nat :=
  let n := c.toNat
  if isDigit c then some (n - 48)
  else if 'a' ≤ c ∧ c ≤ 'f' then some (n - 87)
  else if 'A' ≤ c ∧ c ≤ 'F' then some (n - 55)
  else none

def hexNumber? : Nat → List Char → Option Nat
  | n, [] => some n
  | n, c :: rest => do hexNumber? (n * 16 + (← hexValue? c)) rest

def decimalNumber (digits : List Char) : Nat :=
  digits.foldl (fun n c => n * 10 + (c.toNat - 48)) 0

def blankNext : List Char → Bool
  | [] => true
  | c :: _ => isBlank c

def breakNext : List Char → Bool
  | [] => true
  | c :: _ => isBreak c

def oneOfNext (cs : List Char) : List Char → Bool
  | [] => false
  | c :: _ => cs.contains c

/-- Whether a line that begins so is a document marker: three dashes or three points. -/
def isMarker : List Char → Bool
  | '-' :: '-' :: '-' :: rest => blankNext rest
  | '.' :: '.' :: '.' :: rest => blankNext rest
  | _ => false

structure Cursor where
  rest : List Char
  line : Nat
  column : Nat
  deriving Repr

namespace Cursor

def ofText (text : List Char) : Cursor := ⟨text, 0, 0⟩

def skip (cursor : Cursor) (count : Nat) : Cursor :=
  ⟨cursor.rest.drop count, cursor.line, cursor.column + count⟩

def skipBreak (cursor : Cursor) : Cursor :=
  match cursor.rest with
  | [] => cursor
  | _ :: rest => ⟨rest, cursor.line + 1, 0⟩

/-- The characters of the line from one cursor to a later one. -/
def lineUpTo (start cursor : Cursor) : List Char := start.rest.take (cursor.column - start.column)

/-- The characters of the line as long as they are of a kind, and the cursor after them. -/
def span (cursor : Cursor) (kind : Char → Bool) : List Char × Cursor :=
  let taken := cursor.rest.takeWhile kind
  (taken, cursor.skip taken.length)

def dropBlanks (cursor : Cursor) : Cursor := (cursor.span isSpaceOrTab).2

def dropLine (cursor : Cursor) : Cursor := (cursor.span fun c => !isBreak c).2

/-- The cursor after blanks and a comment, which must reach the end of the line, and after the line
break. -/
def endLine? (cursor : Cursor) : Option Cursor :=
  let cursor := cursor.dropBlanks
  let cursor := if oneOfNext ['#'] cursor.rest then cursor.dropLine else cursor
  if breakNext cursor.rest then some cursor.skipBreak else none

end Cursor

end YamlTypes.Yaml
