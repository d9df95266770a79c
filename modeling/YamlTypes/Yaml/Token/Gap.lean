import YamlTypes.Yaml.Cursor

/-!
The blanks between the words of a scalar that may run over several lines.

Blanks on one line stay as they are. A single line break becomes a space and of
more line breaks the first is dropped; a line or paragraph separator is kept.
Blanks around line breaks vanish.
-/

set_option autoImplicit false

namespace YamlTypes.Yaml

structure Gap where
  /-- Blanks before any line break, the last one first. -/
  blanks : List Char := []
  /-- Whether the line was left. -/
  broken : Bool := false
  /-- The first line break, unless it was escaped. -/
  first : Option Char := none
  /-- The line breaks after it, the last one first. -/
  later : List Char := []
  deriving Repr

namespace Gap

def isEmpty (gap : Gap) : Bool := gap.blanks.isEmpty && !gap.broken

def escapedBreak : Gap := { broken := true }

def add (gap : Gap) (c : Char) : Gap :=
  if isBreak c then
    if gap.broken then { gap with later := c :: gap.later }
    else { blanks := [], broken := true, first := some c, later := gap.later }
  else if gap.broken then gap
  else { gap with blanks := c :: gap.blanks }

/-- What the gap stands for, the last character first. -/
def folded (gap : Gap) : List Char :=
  if gap.broken then
    match gap.first with
    | some '\n' => if gap.later.isEmpty then [' '] else gap.later
    | some c => gap.later ++ [c]
    | none => gap.later
  else gap.blanks

end Gap

end YamlTypes.Yaml
