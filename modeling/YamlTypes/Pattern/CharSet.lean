import YamlTypes.Pattern.Table.CaseFolding

/-!
Sets of characters as ranges of code points.

The ranges of a set are in ascending order and neither overlap nor touch, so a
set has one form. Sets are closed under the usual operations, and `ignoreCase`
adds to a set the characters that differ from its own in case only.
-/

set_option autoImplicit false

namespace YamlTypes.Pattern

structure CharSet where
  ranges : List (Nat × Nat)
  deriving DecidableEq, Repr, Inhabited

namespace CharSet

def maxCode : Nat := 0x10FFFF

/-- The ranges that begin with one from `low` to `high`, where those that overlap or touch are
joined. The others are in ascending order of their starts, and none starts before `low`. -/
def joinFrom (low high : Nat) : List (Nat × Nat) → List (Nat × Nat)
  | [] => [(low, high)]
  | (nextLow, nextHigh) :: rest =>
    if nextLow ≤ high + 1 then joinFrom low (max high nextHigh) rest
    else (low, high) :: joinFrom nextLow nextHigh rest

/-- Ranges in ascending order of their starts with those joined that overlap or touch. -/
def join : List (Nat × Nat) → List (Nat × Nat)
  | [] => []
  | (low, high) :: rest => joinFrom low high rest

def ofRanges (ranges : List (Nat × Nat)) : CharSet :=
  ⟨join (ranges.mergeSort fun a b => a.1 ≤ b.1)⟩

def empty : CharSet := ⟨[]⟩

def single (c : Char) : CharSet := ⟨[(c.toNat, c.toNat)]⟩

def hasCode (s : CharSet) (n : Nat) : Bool := s.ranges.any fun (low, high) => low ≤ n && n ≤ high

def contains (s : CharSet) (c : Char) : Bool := s.hasCode c.toNat

def union (s t : CharSet) : CharSet := ofRanges (s.ranges ++ t.ranges)

def unions (sets : List CharSet) : CharSet := ofRanges (sets.flatMap ranges)

/-- What lies from `start` on outside of ascending ranges. -/
def gaps (start : Nat) : List (Nat × Nat) → List (Nat × Nat)
  | [] => if start ≤ maxCode then [(start, maxCode)] else []
  | (low, high) :: rest =>
    if start < low then (start, low - 1) :: gaps (high + 1) rest else gaps (high + 1) rest

def complement (s : CharSet) : CharSet := ⟨gaps 0 s.ranges⟩

def inter (s t : CharSet) : CharSet := (s.complement.union t.complement).complement

def diff (s t : CharSet) : CharSet := s.inter t.complement

def symmDiff (s t : CharSet) : CharSet := (s.diff t).union (t.diff s)

def isAscii (s : CharSet) : Bool := s.ranges.all fun range => range.2 < 0x80

/-- The partners of the codes of a set in a run of pairs. -/
def pairPartners (s : CharSet) (first last step distance : Nat) : List Nat :=
  (List.range ((last - first) / step + 1)).flatMap fun i =>
    let n := first + i * step
    (if s.hasCode n then [n + distance] else []) ++ (if s.hasCode (n + distance) then [n] else [])

def ignoreCase (s : CharSet) : CharSet :=
  let pairs := Table.casePairs.flatMap fun (first, last, step, distance) =>
    s.pairPartners first last step distance
  let groups := Table.caseGroups.flatMap fun group => if group.any s.hasCode then group else []
  ofRanges (s.ranges ++ (pairs ++ groups).map fun n => (n, n))

def digitValue (c : Char) : Nat := if c.toNat < 58 then c.toNat - 48 else c.toNat - 87

def numbers (text : List Char) : List Nat :=
  let (done, last) := text.foldl (fun (done, current) c =>
    if c.isAlphanum then (done, some (current.getD 0 * 36 + digitValue c))
    else (current.toList ++ done, none)) ([], none)
  (last.toList ++ done).reverse

def spread (start : Nat) : List Nat → List (Nat × Nat)
  | gap :: length :: rest =>
    let low := start + gap
    (low, low + length) :: spread (low + length + 1) rest
  | _ => []

def ofTable (table : String) : CharSet := ⟨spread 0 (numbers table.toList)⟩

end CharSet

end YamlTypes.Pattern
