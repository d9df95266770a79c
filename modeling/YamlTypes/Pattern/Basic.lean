import YamlTypes.Pattern.CharSet

/-!
Patterns and the texts that they match.

A text is matched by following, from a set of places in it, which places a
pattern leads to. Places are marked in a list of truth values, one for each
place between two characters and at both ends. Whether a pattern leads from one
place to another does not hang on how it is searched for, so there is nothing to
take back. What a pattern leads to from several places is all that it leads to
from each of them, so a repetition goes on only from places that it has reached
for the first time, and ends when there are none.
-/

set_option autoImplicit false

namespace YamlTypes

namespace Pattern

/-- A condition on the characters around a place. -/
inductive Assertion where
  | textStart
  | textEnd
  | lineStart
  | lineEnd
  /-- The start of a line that carriage returns may end as well. -/
  | anyLineStart
  | anyLineEnd
  | wordBoundary
  | noWordBoundary
  | wordStart
  | wordEnd
  | wordStartHalf
  | wordEndHalf
  deriving DecidableEq, Repr

end Pattern

open Pattern

inductive Pattern where
  | literal (text : List Char)
  | chars (set : CharSet)
  /-- `words` are the characters that the assertion takes for those of words. -/
  | look (assertion : Assertion) (words : CharSet)
  | seq (parts : List Pattern)
  | alt (branches : List Pattern)
  /-- As many times as `least`, and up to `more` times further, or any number. -/
  | repeated (body : Pattern) (least : Nat) (more : Option Nat)
  /-- A part whose place in the text is asked for, by its number. -/
  | group (number : Nat) (body : Pattern)
  deriving Repr, Inhabited

namespace Pattern

def Assertion.holds (words : CharSet) (before after : Option Char) : Assertion → Bool
  | .textStart => before.isNone
  | .textEnd => after.isNone
  | .lineStart => before.isNone || before == some '\n'
  | .lineEnd => after.isNone || after == some '\n'
  | .anyLineStart =>
    before.isNone || before == some '\n' || (before == some '\r' && after != some '\n')
  | .anyLineEnd => after.isNone || after == some '\r' || (after == some '\n' && before != some '\r')
  | .wordBoundary => before.any words.contains != after.any words.contains
  | .noWordBoundary => before.any words.contains == after.any words.contains
  | .wordStart => !before.any words.contains && after.any words.contains
  | .wordEnd => before.any words.contains && !after.any words.contains
  | .wordStartHalf => !before.any words.contains
  | .wordEndHalf => !after.any words.contains

abbrev Marks := List Bool

def across (kind : Char → Bool) (text : List Char) (marks : Marks) : Marks :=
  false :: List.zipWith (fun marked c => marked && kind c) marks text

/-- The characters around each place of a text. -/
def neighbours (before : Option Char) : List Char → List (Option Char × Option Char)
  | [] => [(before, none)]
  | c :: rest => (before, some c) :: neighbours (some c) rest

def both (marks others : Marks) : Marks := List.zipWith (· || ·) marks others

/-- The marks after a number of steps, or fewer if a step changes nothing. -/
def times (step : Marks → Marks) : Nat → Marks → Marks
  | 0, marks => marks
  | count + 1, marks =>
    let next := step marks
    if next = marks then marks else times step count next

/-- The marks reached so far and what a number of steps adds to them. Each step goes on from the
`latest` marks only. -/
def upTo (step : Marks → Marks) : Nat → (reached latest : Marks) → Marks
  | 0, reached, _ => reached
  | count + 1, reached, latest =>
    let fresh := List.zipWith (fun next known => next && !known) (step latest) reached
    if fresh.contains true then upTo step count (both reached fresh) fresh else reached

mutual

def follow (text : List Char) : Pattern → Marks → Marks
  | .literal word, marks => word.foldl (fun marks c => across (· == c) text marks) marks
  | .chars set, marks => across set.contains text marks
  | .look assertion words, marks =>
    List.zipWith (fun marked (before, after) => marked && assertion.holds words before after) marks
      (neighbours none text)
  | .seq parts, marks => followAll text parts marks
  | .alt branches, marks => followAny text branches marks
  | .repeated body least more, marks =>
    let marks := times (follow text body) least marks
    upTo (follow text body) (more.getD (text.length + 1)) marks marks
  | .group _ body, marks => follow text body marks

def followAll (text : List Char) : List Pattern → Marks → Marks
  | [], marks => marks
  | part :: rest, marks => followAll text rest (follow text part marks)

/-- The places that at least one of some patterns leads to. -/
def followAny (text : List Char) : List Pattern → Marks → Marks
  | [], marks => marks.map fun _ => false
  | branch :: rest, marks => both (follow text branch marks) (followAny text rest marks)

end

def isMatch (pattern : Pattern) (text : List Char) : Bool :=
  (pattern.follow text (List.replicate (text.length + 1) true)).contains true

end Pattern

end YamlTypes
