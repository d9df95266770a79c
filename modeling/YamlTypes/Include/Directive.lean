import YamlTypes.Text.Blank
import YamlTypes.Text.Utf8

/-!
Include directives in text.

A directive begins with two opening braces, spaces or tabs, and the word
`include`, followed by a space, a tab or two closing braces; it ends with the
first two closing braces after that, which stand on the same line. Its operand
is what lies between, without blanks at its ends.

`pieces` cuts a text into its directives, taken from left to right without
overlap, and the single characters between them. Each directive knows where it
stands.
-/

set_option autoImplicit false

namespace YamlTypes.Include

open Text

/-- A place in a text: how many bytes lie before it, its line counted from 1, and how many
characters lie before it on that line. -/
structure Position where
  offset : Nat
  line : Nat
  column : Nat
  deriving DecidableEq, Repr, Inhabited

def Position.start : Position := ⟨0, 1, 0⟩

def Position.advance (p : Position) (c : Char) : Position :=
  if c = '\n' then ⟨p.offset + c.utf8Size, p.line + 1, 0⟩
  else ⟨p.offset + c.utf8Size, p.line, p.column + 1⟩

structure Directive where
  position : Position
  text : List Char
  /-- Empty if the directive names nothing. -/
  operand : List Char
  deriving DecidableEq, Repr, Inhabited

def isSpaceOrTab (c : Char) : Bool := c == ' ' || c == '\t'

def endsWord : List Char → Bool
  | '}' :: '}' :: _ => true
  | c :: _ => isSpaceOrTab c
  | [] => false

def word : List Char := ['i', 'n', 'c', 'l', 'u', 'd', 'e']

/-- The text after the opening braces and the word, if it begins with them. -/
def afterWord? : List Char → Option (List Char)
  | '{' :: '{' :: rest =>
    let rest := rest.dropWhile isSpaceOrTab
    if word.isPrefixOf rest && endsWord (rest.drop word.length) then some (rest.drop word.length)
    else none
  | _ => none

def beforeClose? : List Char → Option (List Char)
  | [] => none
  | '}' :: '}' :: _ => some []
  | c :: rest => if c = '\n' then none else (beforeClose? rest).map (c :: ·)

/-- The directive that begins a text. -/
def directive? (position : Position) (text : List Char) : Option Directive := do
  let rest ← afterWord? text
  let operand ← beforeClose? rest
  let length := text.length - rest.length + operand.length + 2
  some { position, text := text.take length, operand := trim operand }

inductive Piece where
  | char (c : Char)
  | directive (d : Directive)
  deriving DecidableEq, Repr

/-- The pieces of a text from a place on, after the next `skipped` characters, which belong to a
directive. -/
def piecesFrom : Nat → Position → List Char → List Piece
  | _, _, [] => []
  | skipped + 1, p, c :: rest => piecesFrom skipped (p.advance c) rest
  | 0, p, c :: rest =>
    match directive? p (c :: rest) with
    | some d => .directive d :: piecesFrom (d.text.length - 1) (p.advance c) rest
    | none => .char c :: piecesFrom 0 (p.advance c) rest

def pieces (text : List Char) : List Piece := piecesFrom 0 .start text

def Piece.directive? : Piece → Option Directive
  | .char _ => none
  | .directive d => some d

def directives (text : List Char) : List Directive := (pieces text).filterMap Piece.directive?

def Directive.finish (d : Directive) : Nat := d.position.offset + Text.Utf8.byteLength d.text

end YamlTypes.Include
