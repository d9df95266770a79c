import YamlTypes.Pattern.ByteRange
import YamlTypes.Pattern.Combine
import YamlTypes.Text.Utf8

/-!
The sizes of patterns.

A pattern can be searched for by an automaton that reads the bytes of a text
from the left, and the place where a match begins by one that reads them from
the right. Both must have at most ten mebibytes. A state takes 32 bytes, and
besides 4 for each state that it leads to without reading, or 8 for each range
of bytes if it reads one of several. A repetition with counts has as many copies
of its body.
-/

set_option autoImplicit false

namespace YamlTypes.Pattern

def stateSize : Nat := 32

def linkSize : Nat := 4

def rangeSize : Nat := 8

def readingSize (count : Nat) : Nat := stateSize + rangeSize * count

def branchingSize (count : Nat) : Nat := stateSize + linkSize * count

def total (sizes : List Nat) : Nat := sizes.foldr (· + ·) 0

/-- The size of a set. From the left, states are shared where the same bytes may follow, and from
the right, where the same bytes come before. -/
def setSize (reverse : Bool) (set : CharSet) : Nat :=
  if set.isAscii then stateSize + readingSize set.ranges.length
  else
    let sequences := ByteRange.ofSet set
    let states := ByteRange.remainders 4 sequences
    if reverse then
      stateSize + branchingSize sequences.length +
        stateSize * total (states.map fun state => (ByteRange.starts state).length)
    else
      stateSize +
        total (states.eraseDups.map fun state => readingSize (ByteRange.starts state).length)

/-- Words in runs between those that are empty, and how many of these there are. -/
def wordRuns : List (List UInt8) → List (List (List UInt8)) × Nat
  | [] => ([[]], 0)
  | [] :: rest =>
    let (runs, count) := wordRuns rest
    ([] :: runs, count + 1)
  | word :: rest =>
    match wordRuns rest with
    | (run :: runs, count) => ((word :: run) :: runs, count)
    | ([], count) => ([[word]], count)

def wordsAfter (byte : UInt8) (words : List (List UInt8)) : List (List UInt8) :=
  words.filterMap fun word =>
    match word with
    | [] => none
    | first :: rest => if first = byte then some rest else none

/-- The size of a tree of words, where a word that ends keeps the words after it apart from those
before it. The length of the words bounds the depth. -/
def treeSize : (depth : Nat) → List (List UInt8) → Nat
  | 0, _ => 0
  | depth + 1, words =>
    let (runs, ends) := wordRuns (words.dropWhile List.isEmpty)
    let ends := if words.head?.any List.isEmpty then ends + 1 else ends
    let runs := runs.filter fun run => !run.isEmpty
    if runs.isEmpty then 0
    else
      branchingSize (runs.length + ends) +
        total (runs.map fun run =>
          let bytes := (run.filterMap List.head?).eraseDups
          (if bytes.length = 1 then stateSize else readingSize bytes.length) +
            total (bytes.map fun byte => treeSize depth (wordsAfter byte run)))

def wordsSize (reverse : Bool) (words : List (List UInt8)) : Nat :=
  let words := if reverse then words.map List.reverse else words
  stateSize + treeSize ((words.map List.length).foldl max 0 + 1) words

def word? : Pattern → Option (List UInt8)
  | .literal word => some (String.ofList word).toUTF8.toList
  | _ => none

mutual

/-- The fewest characters that the pattern takes. A set without characters takes no number. -/
def fewest? : Pattern → Option Nat
  | .literal word => some word.length
  | .chars set => if set.ranges.isEmpty then none else some 1
  | .look .. => some 0
  | .seq parts => do some (total (← fewestOfAll? parts))
  | .alt branches => do (← fewestOfAll? branches).min?
  | .repeated body least _ => do some ((← fewest? body) * least)
  | .group _ body => fewest? body

def fewestOfAll? : List Pattern → Option (List Nat)
  | [] => some []
  | pattern :: rest => do
    let count ← fewest? pattern
    some (count :: (← fewestOfAll? rest))

end

def repeatedSize (takesSome : Bool) (body least : Nat) : Option Nat → Nat
  | none =>
    if least = 0 then
      if takesSome then body + branchingSize 2
      else body + 2 * branchingSize 2 + stateSize
    else body * least + branchingSize 2
  | some more =>
    if more = 0 then body * least
    else if least = 0 ∧ more = 1 then body + branchingSize 2 + stateSize
    else
      (if least = 0 then stateSize else body * least) + stateSize +
        (body + branchingSize 2) * more

mutual

def size (reverse : Bool) : Pattern → Nat
  | .literal word => stateSize * Text.Utf8.byteLength word
  | .chars set => setSize reverse set
  | .look .. => stateSize
  | .seq parts => if parts.isEmpty then stateSize else sizeOfAll reverse parts
  | .alt branches =>
    match branches.mapM word? with
    | some words => wordsSize reverse words
    | none => branchingSize branches.length + stateSize + sizeOfAll reverse branches
  | .repeated body least more =>
    repeatedSize ((fewest? body).any (0 < ·)) (size reverse body) least more
  | .group _ body => if reverse then size reverse body else size reverse body + 2 * stateSize

def sizeOfAll (reverse : Bool) : List Pattern → Nat
  | [] => 0
  | pattern :: rest => size reverse pattern + sizeOfAll reverse rest

end

/-- The size of the automaton that searches for a whole pattern: bytes may come before it, and the
match as a whole is a group. -/
def searchSize (reverse : Bool) (pattern : Pattern) : Nat :=
  branchingSize 2 + stateSize + readingSize 1 + stateSize + size reverse (.group 0 pattern)

def maxSize : Nat := 10 * 1024 * 1024

def fits (pattern : Pattern) : Bool :=
  pattern.searchSize false ≤ maxSize && pattern.searchSize true ≤ maxSize

end YamlTypes.Pattern
