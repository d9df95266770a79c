import YamlTypes.Pattern.Basic

/-!
Patterns made of others, in their simplest form.

Sequences hold no sequences and join literals that follow each other.
Alternatives hold no alternatives; if they are single characters or sets, they
become one set, and the parts with which all of them begin stand before them
once. A repetition of what takes no character is made at most once.
-/

set_option autoImplicit false

namespace YamlTypes.Pattern

mutual

def same : Pattern → Pattern → Bool
  | .literal s, .literal t => s == t
  | .chars s, .chars t => s == t
  | .look a s, .look b t => a == b && s == t
  | .seq xs, .seq ys => sameAll xs ys
  | .alt xs, .alt ys => sameAll xs ys
  | .repeated x m i, .repeated y n j => m == n && i == j && same x y
  | .group m x, .group n y => m == n && same x y
  | _, _ => false

def sameAll : List Pattern → List Pattern → Bool
  | [], [] => true
  | x :: xs, y :: ys => same x y && sameAll xs ys
  | _, _ => false

end

def empty : Pattern := .seq []

/-- The characters of a set, as a literal if there is one only. -/
def ofSet (set : CharSet) : Pattern :=
  match set.ranges with
  | [(low, high)] => if low = high then .literal [Char.ofNat low] else .chars set
  | _ => .chars set

def parts : Pattern → List Pattern
  | .seq parts => parts
  | pattern => [pattern]

def branches : Pattern → List Pattern
  | .alt branches => branches
  | pattern => [pattern]

/-- Patterns with literals joined that follow each other. -/
def joinLiterals : List Pattern → List Pattern
  | [] => []
  | .literal word :: rest =>
    match joinLiterals rest with
    | .literal later :: others => .literal (word ++ later) :: others
    | others => .literal word :: others
  | part :: rest => part :: joinLiterals rest

def inSequence (patterns : List Pattern) : Pattern :=
  match joinLiterals (patterns.flatMap parts) with
  | [part] => part
  | parts => .seq parts

def singleChar? : Pattern → Option CharSet
  | .literal [c] => some (.single c)
  | _ => none

def set? : Pattern → Option CharSet
  | .chars set => some set
  | _ => none

/-- A choice as it is, or as one set if it is a choice of characters or of sets. -/
def choice (branches : List Pattern) : Pattern :=
  match (branches.mapM singleChar?).orElse fun _ => branches.mapM set? with
  | some sets => ofSet (.unions sets)
  | none =>
    match branches with
    | [branch] => branch
    | branches => .alt branches

/-- The parts with which both of two sequences begin. -/
def sharedStart : List Pattern → List Pattern → List Pattern
  | x :: xs, y :: ys => if same x y then x :: sharedStart xs ys else []
  | _, _ => []

def sequence? : Pattern → Option (List Pattern)
  | .seq parts => if parts.isEmpty then none else some parts
  | _ => none

def oneOf (patterns : List Pattern) : Pattern :=
  let branches := patterns.flatMap branches
  match branches.mapM sequence? with
  | some (first :: second :: others) =>
    let shared := (second :: others).foldl sharedStart first
    if shared.isEmpty then choice branches
    else
      let rests := (first :: second :: others).map fun parts =>
        inSequence (parts.drop shared.length)
      inSequence (shared ++ [choice (rests.flatMap Pattern.branches)])
  | _ => choice branches

mutual

def isThin : Pattern → Bool
  | .literal word => word.isEmpty
  | .chars _ => false
  | .look .. => true
  | .seq parts => areThin parts
  | .alt branches => areThin branches
  | .repeated body .. => isThin body
  | .group _ body => isThin body

def areThin : List Pattern → Bool
  | [] => true
  | pattern :: rest => isThin pattern && areThin rest

end

/-- A repetition as it is, unless it is none at all or made just once. -/
def repetition (body : Pattern) (least : Nat) (more : Option Nat) : Pattern :=
  match least, more with
  | 0, some 0 => empty
  | 1, some 0 => body
  | _, _ => .repeated body least more

def repeatTimes (body : Pattern) (least : Nat) (more : Option Nat) : Pattern :=
  if body.isThin then
    if least = 0 ∧ more ≠ some 0 then repetition body 0 (some 1)
    else repetition body (min least 1) (some 0)
  else repetition body least more

end YamlTypes.Pattern
