import YamlTypes.Yaml.Token.Gap

/-!
Plain scalars: text without quotes.

A plain scalar ends before a colon that a blank follows, before a comment, and
before a line that is indented too little or is a document marker. Inside a flow
collection it also ends before a comma, a bracket or a brace.
-/

set_option autoImplicit false

namespace YamlTypes.Yaml

structure PlainScan where
  text : List Char
  brokenAfter : Bool
  cursor : Cursor
  deriving Repr

def flowIndicators : List Char := [',', '[', ']', '{', '}']

/-- Whether the scalar ends before this text, which begins with no blank. -/
def plainEnds (inFlow : Bool) (text : List Char) : Bool :=
  match text with
  | ':' :: rest => blankNext rest
  | c :: _ => inFlow && flowIndicators.contains c
  | [] => true

def badColon (inFlow : Bool) (text : List Char) : Bool :=
  match text with
  | ':' :: rest => inFlow && oneOfNext ('?' :: flowIndicators) rest
  | _ => false

/-- Whether a line of the scalar cannot begin here. -/
def plainLineEnds (inFlow : Bool) (indent : Int) (column : Nat) (text : List Char) : Bool :=
  (!inFlow && (column : Int) < indent) || (column == 0 && isMarker text) || oneOfNext ['#'] text

/-- The rest of a scalar. `taken` holds its text in reverse, and `gap` the blanks after that.
Continuation lines are indented by at least `indent`. -/
def plainFrom (inFlow : Bool) (indent : Int) (taken : List Char) (gap : Gap) (line column : Nat) :
    List Char → Option PlainScan
  | [] => some ⟨taken.reverse, gap.broken, ⟨[], line, column⟩⟩
  | c :: rest =>
    if isBlank c then
      if c == '\t' && gap.broken && (column : Int) < indent then none
      else if isBreak c then plainFrom inFlow indent taken (gap.add c) (line + 1) 0 rest
      else plainFrom inFlow indent taken (gap.add c) line (column + 1) rest
    else if !gap.isEmpty && plainLineEnds inFlow indent column (c :: rest) then
      some ⟨taken.reverse, gap.broken, ⟨c :: rest, line, column⟩⟩
    else if badColon inFlow (c :: rest) then none
    else if plainEnds inFlow (c :: rest) then
      some ⟨taken.reverse, gap.broken, ⟨c :: rest, line, column⟩⟩
    else plainFrom inFlow indent (c :: (gap.folded ++ taken)) {} line (column + 1) rest

def plain? (inFlow : Bool) (indent : Int) (cursor : Cursor) : Option PlainScan :=
  plainFrom inFlow indent [] {} cursor.line cursor.column cursor.rest

end YamlTypes.Yaml
