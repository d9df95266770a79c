import YamlTypes.Pattern.CharSet

/-!
Sets of characters as sequences of ranges of bytes.

The characters of a range with equally many bytes are divided where they must be
so that each byte runs through a range of its own, whatever the others are.
-/

set_option autoImplicit false

namespace YamlTypes.Pattern

/-- The least and the greatest of some bytes. -/
abbrev ByteRange := Nat × Nat

namespace ByteRange

/-- How many bytes follow the first, the least and the greatest code point with so many, and the
bits that mark the first byte. Code points that are no characters are left out. -/
def lengths : List (Nat × Nat × Nat × Nat) :=
  [(0, 0, 0x7F, 0), (1, 0x80, 0x7FF, 0xC0), (2, 0x800, 0xD7FF, 0xE0), (2, 0xE000, 0xFFFF, 0xE0),
    (3, 0x10000, 0x10FFFF, 0xF0)]

/-- The numbers from `low` to `high` as ranges of their digits in base 64, of which so many follow
the first. -/
def digits : (later : Nat) → (low high : Nat) → List (List (Nat × Nat))
  | 0, low, high => [[(low, high)]]
  | later + 1, low, high =>
    let unit := Nat.pow 64 (later + 1)
    let first := low / unit
    let last := high / unit
    if first = last then
      (digits later (low % unit) (high % unit)).map fun rest => (first, first) :: rest
    else
      let begins := low % unit ≠ 0
      let ends := high % unit ≠ unit - 1
      let from' := if begins then first + 1 else first
      let upTo := if ends then last else last + 1
      (if begins then
          (digits later (low % unit) (unit - 1)).map fun rest => (first, first) :: rest
        else []) ++
        (if from' < upTo then [(from', upTo - 1) :: List.replicate (later + 1) (0, 63)] else []) ++
        if ends then (digits later 0 (high % unit)).map fun rest => (last, last) :: rest else []

def ofDigits (mark : Nat) : List (Nat × Nat) → List ByteRange
  | [] => []
  | (low, high) :: rest =>
    (low + mark, high + mark) :: rest.map fun (low, high) => (low + 0x80, high + 0x80)

def ofSet (set : CharSet) : List (List ByteRange) :=
  set.ranges.flatMap fun (low, high) =>
    lengths.flatMap fun (later, least, most, mark) =>
      let low := max low least
      let high := min high most
      if low ≤ high then (digits later low high).map (ofDigits mark) else []

/-- The ranges with which sequences begin, each with what follows it. -/
def starts : List (List ByteRange) → List (ByteRange × List (List ByteRange))
  | [] => []
  | [] :: others => starts others
  | (range :: rest) :: others =>
    match starts others with
    | (next, rests) :: groups =>
      if next = range then (range, rest :: rests) :: groups
      else (range, [rest]) :: (next, rests) :: groups
    | [] => [(range, [rest])]

/-- What is left of sequences that begin alike, wherever something is left. The length of the
sequences bounds the depth. -/
def remainders : (depth : Nat) → List (List ByteRange) → List (List (List ByteRange))
  | 0, _ => []
  | depth + 1, sequences =>
    if (starts sequences).isEmpty then []
    else sequences :: (starts sequences).flatMap fun start => remainders depth start.2

end ByteRange

end YamlTypes.Pattern
