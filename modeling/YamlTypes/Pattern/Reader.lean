import YamlTypes.Pattern.Classes
import YamlTypes.Pattern.Combine
import YamlTypes.Pattern.Size

/-!
The written form of patterns.

The reader goes through the text with the flags in force, the parts of the
sequence that it is in, the branches before it, and the groups around it. Flags
set inside a group end with the group. Back-references and conditions on what
lies ahead or behind are refused, and so is what would match single bytes of a
character, a pattern nested too deeply, and one that is too large.
-/

set_option autoImplicit false

namespace YamlTypes.Pattern

structure Flags where
  ignoreCase : Bool := false
  multiLine : Bool := false
  dotAll : Bool := false
  unicode : Bool := true
  anyLine : Bool := false
  /-- Blanks and comments in the pattern are passed over. -/
  verbose : Bool := false
  deriving DecidableEq, Repr

/-- The text after blanks and comments, where the flags pass over them. -/
def skipBlanksWithin : Nat → Bool → List Char → List Char
  | 0, _, text => text
  | _, _, [] => []
  | bound + 1, comment, c :: rest =>
    if comment then skipBlanksWithin bound (c != '\n') rest
    else if Classes.whiteSpace.contains c then skipBlanksWithin bound false rest
    else if c == '#' then skipBlanksWithin bound true rest
    else c :: rest

def skipBlanks (flags : Flags) (text : List Char) : List Char :=
  if flags.verbose then skipBlanksWithin text.length false text else text

inductive Element where
  /-- `byte` holds for a character given by two hexadecimal digits. -/
  | literal (c : Char) (byte : Bool)
  | set (s : CharSet)
  | look (assertion : Assertion)
  deriving Repr

/-- A set that matches whole characters: where characters are bytes, one of ASCII. -/
def wholeChars? (flags : Flags) (s : CharSet) : Option CharSet :=
  if flags.unicode || s.isAscii then some s else none

def negatedIf (negated : Bool) (s : CharSet) : CharSet := if negated then s.complement else s

def cased (flags : Flags) (s : CharSet) : CharSet :=
  if flags.ignoreCase then
    if flags.unicode then s.ignoreCase else s.ignoreCase.inter Classes.ascii
  else s

def hexValue? (c : Char) : Option Nat :=
  let n := c.toNat
  if '0' ≤ c ∧ c ≤ '9' then some (n - 48)
  else if 'a' ≤ c ∧ c ≤ 'f' then some (n - 87)
  else if 'A' ≤ c ∧ c ≤ 'F' then some (n - 55)
  else none

def codePoint? (n : Nat) : Option Char :=
  if n < 0xD800 ∨ (0xDFFF < n ∧ n ≤ 0x10FFFF) then some (Char.ofNat n) else none

def hexDigits? (flags : Flags) : Nat → Nat → List Char → Option (Nat × List Char)
  | 0, n, text => some (n, text)
  | _ + 1, _, [] => none
  | count + 1, n, c :: rest => do
    let digit ← hexValue? c
    hexDigits? flags count (n * 16 + digit) (if count = 0 then rest else skipBlanks flags rest)

/-- The characters before a closing brace, blanks left out where these are passed over. -/
def braced? (flags : Flags) : Nat → List Char → Option (List Char × List Char)
  | 0, _ => none
  | bound + 1, text =>
    match skipBlanks flags text with
    | [] => none
    | '}' :: rest => some ([], rest)
    | c :: rest => do
      let (inner, after) ← braced? flags bound rest
      some (c :: inner, after)

def hexValueOf? (digits : List Char) : Option Nat :=
  digits.foldl (fun n c => do
    let n ← n
    let d ← hexValue? c
    some (min (n * 16 + d) 0x110000)) (some 0)

/-- A code point after the letter that announces it with so many digits. -/
def hexEscape? (flags : Flags) (width : Nat) (text : List Char) : Option (Element × List Char) := do
  match skipBlanks flags text with
  | '{' :: rest =>
    let (digits, after) ← braced? flags (rest.length + 1) rest
    if digits.isEmpty then none
    else some (.literal (← codePoint? (← hexValueOf? digits)) false, skipBlanks flags after)
  | text =>
    let (n, after) ← hexDigits? flags width 0 text
    some (.literal (← codePoint? n) (width == 2), after)

/-- The text before the first occurrence of some characters, and the text after it. -/
def splitAt? (separator : List Char) : List Char → Option (List Char × List Char)
  | [] => none
  | c :: rest =>
    if separator.isPrefixOf (c :: rest) then some ([], (c :: rest).drop separator.length)
    else (splitAt? separator rest).map fun (before, after) => (c :: before, after)

/-- A class between braces, a name or a property with a value, and whether the property is to be
without the value. -/
def bracedClass? (name : List Char) : Option (CharSet × Bool) := do
  match splitAt? ['!', '='] name with
  | some (property, value) => some (← Classes.valued? property value, true)
  | none =>
    match (splitAt? [':'] name).orElse fun _ => splitAt? ['='] name with
    | some (property, value) => some (← Classes.valued? property value, false)
    | none => some (← Classes.named? name, false)

def namedClass? (flags : Flags) (negated : Bool) (text : List Char) :
    Option (Element × List Char) := do
  if !flags.unicode then none
  else
    let ((s, without), after) ← match skipBlanks flags text with
      | [] => none
      | '{' :: rest => do
        let (name, after) ← braced? flags (rest.length + 1) rest
        some (← bracedClass? name, after)
      | '\\' :: _ => none
      | c :: after => do some ((← Classes.named? [c], false), after)
    some (.set (negatedIf (negated != without) (cased flags s)), after)

def letterClass? (flags : Flags) (negated : Bool) (unicode ascii : CharSet) : Option Element := do
  some (.set (← wholeChars? flags (negatedIf negated (if flags.unicode then unicode else ascii))))

def metaChars : List Char :=
  ['\\', '.', '+', '*', '?', '(', ')', '|', '[', ']', '{', '}', '^', '$', '#', '&', '-', '~']

/-- Whether a backslash before a character makes it a literal. -/
def isEscapable (c : Char) : Bool :=
  metaChars.contains c || (c.toNat < 0x80 && !(c.isAlphanum || c == '<' || c == '>'))

def isBoundaryChar (c : Char) : Bool := c.isAlpha || c == '-'

/-- The name between the braces after a word boundary: characters of names up to another one. -/
def boundaryName (flags : Flags) : Nat → List Char → List Char × List Char
  | 0, text => ([], text)
  | bound + 1, text =>
    match text with
    | [] => ([], [])
    | c :: rest =>
      if isBoundaryChar c then
        let (name, after) := boundaryName flags bound (skipBlanks flags rest)
        (c :: name, after)
      else ([], c :: rest)

/-- A word boundary, perhaps of a kind named in braces; other braces are a repetition. -/
def boundary? (flags : Flags) (text : List Char) : Option (Element × List Char) :=
  match text with
  | '{' :: rest =>
    match skipBlanks flags rest with
    | [] => none
    | c :: rest =>
      if !isBoundaryChar c then some (.look .wordBoundary, text)
      else
        let (name, after) := boundaryName flags (rest.length + 1) (c :: rest)
        match after with
        | '}' :: after =>
          if name = "start".toList then some (.look .wordStart, after)
          else if name = "end".toList then some (.look .wordEnd, after)
          else if name = "start-half".toList then some (.look .wordStartHalf, after)
          else if name = "end-half".toList then some (.look .wordEndHalf, after)
          else none
        | _ => none
  | _ => some (.look .wordBoundary, text)

def escape? (flags : Flags) : List Char → Option (Element × List Char)
  | [] => none
  | 'x' :: rest => hexEscape? flags 2 rest
  | 'u' :: rest => hexEscape? flags 4 rest
  | 'U' :: rest => hexEscape? flags 8 rest
  | 'p' :: rest => namedClass? flags false rest
  | 'P' :: rest => namedClass? flags true rest
  | 'd' :: rest => do
    some (← letterClass? flags false Classes.digits Classes.asciiDigits, rest)
  | 'D' :: rest => do
    some (← letterClass? flags true Classes.digits Classes.asciiDigits, rest)
  | 's' :: rest => do
    some (← letterClass? flags false Classes.whiteSpace Classes.asciiSpace, rest)
  | 'S' :: rest => do
    some (← letterClass? flags true Classes.whiteSpace Classes.asciiSpace, rest)
  | 'w' :: rest => do
    some (← letterClass? flags false Classes.wordChars Classes.asciiWord, rest)
  | 'W' :: rest => do
    some (← letterClass? flags true Classes.wordChars Classes.asciiWord, rest)
  | 'a' :: rest => some (.literal '\x07' false, rest)
  | 'f' :: rest => some (.literal '\x0c' false, rest)
  | 't' :: rest => some (.literal '\t' false, rest)
  | 'n' :: rest => some (.literal '\n' false, rest)
  | 'r' :: rest => some (.literal '\r' false, rest)
  | 'v' :: rest => some (.literal '\x0b' false, rest)
  | 'A' :: rest => some (.look .textStart, rest)
  | 'z' :: rest => some (.look .textEnd, rest)
  | 'b' :: rest => boundary? flags rest
  | 'B' :: rest => some (.look .noWordBoundary, rest)
  | '<' :: rest => some (.look .wordStart, rest)
  | '>' :: rest => some (.look .wordEnd, rest)
  | c :: rest => if isEscapable c then some (.literal c false, rest) else none

/-- The pattern of a literal. A byte that is no character by itself has none; where characters are
bytes, only those of ASCII have a case. -/
def literal? (flags : Flags) (c : Char) (byte : Bool) : Option Pattern :=
  if flags.unicode || c.toNat < 0x80 then some (ofSet (cased flags (.single c)))
  else if byte then none
  else some (.literal [c])

/-! ## Bracketed classes -/

inductive SetOperation where
  | inter
  | diff
  | symmDiff
  deriving DecidableEq, Repr

def SetOperation.apply : SetOperation → CharSet → CharSet → CharSet
  | .inter => CharSet.inter
  | .diff => CharSet.diff
  | .symmDiff => CharSet.symmDiff

structure Operand where
  set : CharSet
  depth : Nat
  operation : SetOperation

/-- A bracketed class part way through: the items of the union that is being read, how deeply they
are nested, and what stands before the union. -/
structure OpenClass where
  negated : Bool
  items : List CharSet := []
  depth : Nat := 0
  before : Option Operand := none

namespace OpenClass

def add (o : OpenClass) (s : CharSet) : OpenClass := { o with items := s :: o.items }

def soFar (flags : Flags) (o : OpenClass) : CharSet :=
  let union := cased flags (CharSet.unions o.items)
  match o.before with
  | none => union
  | some operand => operand.operation.apply operand.set union

/-- The nesting of what was read so far. Several items are a level, and so is an operation. -/
def nesting (o : OpenClass) : Nat :=
  let union := if 1 < o.items.length then o.depth + 1 else o.depth
  match o.before with
  | none => union
  | some operand => max operand.depth union + 1

def operate (flags : Flags) (o : OpenClass) (operation : SetOperation) : OpenClass :=
  { negated := o.negated, before := some ⟨o.soFar flags, o.nesting, operation⟩ }

def finish? (flags : Flags) (o : OpenClass) : Option CharSet :=
  wholeChars? flags (negatedIf o.negated (cased flags (o.soFar flags)))

end OpenClass

/-- The hyphens at the start of a class, which stand for themselves. -/
def leadingHyphens (flags : Flags) : Nat → OpenClass → List Char → OpenClass × List Char
  | bound + 1, o, '-' :: rest =>
    leadingHyphens flags bound (o.add (.single '-')) (skipBlanks flags rest)
  | _, o, text => (o, text)

def openClass (flags : Flags) (text : List Char) : OpenClass × List Char :=
  let (negated, text) := match skipBlanks flags text with
    | '^' :: rest => (true, skipBlanks flags rest)
    | text => (false, text)
  let (o, text) := leadingHyphens flags text.length { negated } text
  match o.items, text with
  | [], ']' :: rest => (o.add (.single ']'), skipBlanks flags rest)
  | _, _ => (o, text)

def posixItem? (flags : Flags) (text : List Char) : Option (Option CharSet × List Char) :=
  match text with
  | '[' :: ':' :: rest => do
    let (negated, rest) := match rest with
      | '^' :: rest => (true, rest)
      | _ => (false, rest)
    let (name, after) ← splitAt? [':'] rest
    match after with
    | ']' :: after =>
      let s ← Classes.posix? name
      some (wholeChars? flags (negatedIf negated (cased flags s)), after)
    | _ => none
  | _ => none

def classElement? (flags : Flags) : List Char → Option (Element × List Char)
  | [] => none
  | '\\' :: rest => escape? flags rest
  | c :: rest => some (.literal c false, rest)

def elementSet? (flags : Flags) : Element → Option CharSet
  | .literal c _ => if flags.unicode || c.toNat < 0x80 then some (.single c) else none
  | .set s => some s
  | .look _ => none

/-- An item or a range of a class. A hyphen before the closing bracket or another hyphen makes no
range. -/
def classItem? (flags : Flags) (text : List Char) : Option (CharSet × List Char) := do
  let (low, rest) ← classElement? flags text
  match skipBlanks flags rest with
  | [] => none
  | '-' :: rest =>
    let next := skipBlanks flags rest
    if next.head? = some ']' ∨ next.head? = some '-' then
      some (← elementSet? flags low, '-' :: rest)
    else
      let (high, rest) ← classElement? flags next
      match low, high with
      | .literal a _, .literal b _ =>
        if b < a ∨ (!flags.unicode ∧ 0x80 ≤ b.toNat) then none
        else some (⟨[(a.toNat, b.toNat)]⟩, rest)
      | _, _ => none
  | rest => some (← elementSet? flags low, rest)

/-- The rest of a class, and of the classes around it, which are innermost first. Every step takes a
character, so the length of the text bounds them. The result has the nesting of the class. -/
def classRest? (flags : Flags) : Nat → OpenClass → List OpenClass → List Char →
    Option (CharSet × Nat × List Char)
  | 0, _, _, _ => none
  | bound + 1, o, outer, text => do
    match skipBlanks flags text with
    | [] => none
    | ']' :: rest =>
      let s ← o.finish? flags
      let depth := o.nesting + 1
      match outer with
      | [] => some (s, depth, rest)
      | around :: outer =>
        classRest? flags bound { around.add s with depth := max around.depth depth } outer rest
    | '&' :: '&' :: rest => classRest? flags bound (o.operate flags .inter) outer rest
    | '-' :: '-' :: rest => classRest? flags bound (o.operate flags .diff) outer rest
    | '~' :: '~' :: rest => classRest? flags bound (o.operate flags .symmDiff) outer rest
    | '[' :: rest =>
      match posixItem? flags ('[' :: rest) with
      | some (s, after) => classRest? flags bound (o.add (← s)) outer after
      | none =>
        let (inner, rest) := openClass flags rest
        classRest? flags bound inner (o :: outer) rest
    | text =>
      let (s, rest) ← classItem? flags text
      classRest? flags bound (o.add s) outer rest

def class? (flags : Flags) (text : List Char) : Option (CharSet × Nat × List Char) :=
  let (o, rest) := openClass flags text
  classRest? flags (text.length + 1) o [] rest

/-! ## Sequences, alternatives and groups -/

structure Part where
  pattern : Pattern
  depth : Nat := 0
  repeatable : Bool := true

def Part.sequence : List Part → Part
  | [] => { pattern := empty }
  | [part] => part
  | parts =>
    { pattern := inSequence (parts.reverse.map Part.pattern)
      depth := 1 + (parts.map Part.depth).foldl max 0 }

def Part.alternatives : List Part → Part
  | [] => { pattern := empty }
  | [part] => part
  | parts =>
    { pattern := oneOf (parts.reverse.map Part.pattern)
      depth := 1 + (parts.map Part.depth).foldl max 0 }

/-- A group part way through: its number if it has one, the flags outside of it, and the branches
and parts before it. -/
structure OpenGroup where
  number : Option Nat
  flags : Flags
  branches : List Part
  parts : List Part

structure Reader where
  flags : Flags := {}
  branches : List Part := []
  parts : List Part := []
  groups : List OpenGroup := []
  /-- How many groups have a number so far. -/
  numbered : Nat := 0
  names : List (List Char) := []

namespace Reader

def add (r : Reader) (part : Part) : Reader := { r with parts := part :: r.parts }

def addSet (r : Reader) (s : CharSet) (depth : Nat) : Reader := r.add { pattern := ofSet s, depth }

def words (flags : Flags) : CharSet :=
  if flags.unicode then Classes.wordChars else Classes.asciiWord

/-- The words that an assertion looks at, where it looks at words. -/
def assertionWords (flags : Flags) : Assertion → CharSet
  | .wordBoundary => words flags
  | .noWordBoundary => words flags
  | .wordStart => words flags
  | .wordEnd => words flags
  | .wordStartHalf => words flags
  | .wordEndHalf => words flags
  | _ => .empty

def addLook (r : Reader) (assertion : Assertion) : Reader :=
  r.add { pattern := .look assertion (assertionWords r.flags assertion) }

def addElement? (r : Reader) : Element → Option Reader
  | .literal c byte => do some (r.add { pattern := ← literal? r.flags c byte })
  | .set s => some (r.addSet s 0)
  | .look assertion => some (r.addLook assertion)

def dot? (flags : Flags) : Option CharSet :=
  if !flags.unicode then none
  else if flags.dotAll then some Classes.any
  else if flags.anyLine then some (CharSet.mk [(10, 10), (13, 13)]).complement
  else some (CharSet.single '\n').complement

def lineStart (flags : Flags) : Assertion :=
  if !flags.multiLine then .textStart else if flags.anyLine then .anyLineStart else .lineStart

def lineEnd (flags : Flags) : Assertion :=
  if !flags.multiLine then .textEnd else if flags.anyLine then .anyLineEnd else .lineEnd

def repeatLast? (r : Reader) (least : Nat) (more : Option Nat) : Option Reader :=
  match r.parts with
  | part :: parts =>
    if part.repeatable then
      some { r with
        parts := { pattern := repeatTimes part.pattern least more, depth := part.depth + 1 } :: parts }
    else none
  | [] => none

def afterLazy : List Char → List Char
  | '?' :: rest => rest
  | text => text

def isDigit (c : Char) : Bool := '0' ≤ c && c ≤ '9'

/-- A number with blanks around it. It must fit in 32 bits. -/
def count? (text : List Char) : Option (Nat × List Char) :=
  let text := text.dropWhile Classes.whiteSpace.contains
  let digits := text.takeWhile isDigit
  let n := digits.foldl (fun n c => n * 10 + (c.toNat - 48)) 0
  if digits.isEmpty || UInt32.size ≤ n then none
  else some (n, (text.dropWhile isDigit).dropWhile Classes.whiteSpace.contains)

def counted? (r : Reader) (text : List Char) : Option (Reader × List Char) := do
  let (least, rest) ← count? (skipBlanks r.flags text)
  let (more, rest) ← match rest with
    | ',' :: rest =>
      match skipBlanks r.flags rest with
      | '}' :: rest => some (none, '}' :: rest)
      | rest => do
        let (most, rest) ← count? rest
        if most < least then none else some (some (most - least), rest)
    | rest => some (some 0, rest)
  match rest with
  | '}' :: rest => some (← r.repeatLast? least more, afterLazy (skipBlanks r.flags rest))
  | _ => none

def groupName? (text : List Char) : Option (List Char × List Char) := do
  let (name, rest) ← splitAt? ['>'] text
  let valid (first : Bool) (c : Char) : Bool :=
    c == '_' || Classes.alphabetic.contains c ||
      (!first && (['.', '[', ']'].contains c || (Classes.categoryGroup 'n').contains c))
  match name with
  | [] => none
  | c :: others => if valid true c && others.all (valid false) then some (name, rest) else none

def setFlag? (on : Bool) (flags : Flags) : Char → Option Flags
  | 'i' => some { flags with ignoreCase := on }
  | 'm' => some { flags with multiLine := on }
  | 's' => some { flags with dotAll := on }
  | 'U' => some flags
  | 'u' => some { flags with unicode := on }
  | 'R' => some { flags with anyLine := on }
  | 'x' => some { flags with verbose := on }
  | _ => none

/-- Flags up to the colon or parenthesis after them. No letter and no hyphen comes twice, and a
letter comes after the hyphen. -/
def flags? (seen : List Char) (flags : Flags) : List Char → Option (Flags × List Char × List Char)
  | [] => none
  | c :: rest =>
    if c = ':' ∨ c = ')' then
      if seen.head? = some '-' then none else some (flags, seen, c :: rest)
    else if seen.contains c then none
    else if c = '-' then flags? (c :: seen) flags rest
    else do
      let flags ← setFlag? (!seen.contains '-') flags c
      flags? (c :: seen) flags rest

def looksAround : List Char → Bool
  | '?' :: '=' :: _ => true
  | '?' :: '!' :: _ => true
  | '?' :: '<' :: '=' :: _ => true
  | '?' :: '<' :: '!' :: _ => true
  | _ => false

def openGroup (r : Reader) (number : Option Nat) (flags : Flags) : Reader :=
  { r with
    flags, branches := [], parts := []
    groups := ⟨number, r.flags, r.branches, r.parts⟩ :: r.groups }

def openNumbered (r : Reader) : Reader :=
  { r with numbered := r.numbered + 1 }.openGroup (some (r.numbered + 1)) r.flags

def openNamed? (r : Reader) (text : List Char) : Option (Reader × List Char) := do
  let (name, rest) ← groupName? text
  if r.names.contains name then none
  else some ({ r with names := name :: r.names }.openNumbered, rest)

/-- What follows an opening parenthesis: a group, or flags for the rest of the group around. -/
def group? (r : Reader) (text : List Char) : Option (Reader × List Char) := do
  let text := skipBlanks r.flags text
  if looksAround text then none
  else
    match text with
    | '?' :: 'P' :: '<' :: rest => r.openNamed? rest
    | '?' :: '<' :: rest => r.openNamed? rest
    | '?' :: rest =>
      let (flags, seen, rest) ← flags? [] r.flags rest
      match rest with
      | ')' :: rest =>
        if seen.isEmpty then none
        else some ({ r with flags }.add { pattern := empty, repeatable := false }, rest)
      | _ :: rest => some (r.openGroup none flags, rest)
      | [] => none
    | rest => some (r.openNumbered, rest)

/-- The branches of the group that is being read as one pattern. -/
def whole (r : Reader) : Part := Part.alternatives (Part.sequence r.parts :: r.branches)

def closeGroup? (r : Reader) : Option Reader :=
  match r.groups with
  | [] => none
  | g :: groups =>
    let inner := r.whole
    let pattern := match g.number with
      | some number => .group number inner.pattern
      | none => inner.pattern
    some { r with
      flags := g.flags, branches := g.branches, groups
      parts := { pattern, depth := inner.depth + 1 } :: g.parts }

def step? (r : Reader) (c : Char) (rest : List Char) : Option (Reader × List Char) :=
  match c with
  | '(' => r.group? rest
  | ')' => do some (← r.closeGroup?, rest)
  | '|' => some ({ r with branches := Part.sequence r.parts :: r.branches, parts := [] }, rest)
  | '[' => do
    let (s, depth, rest) ← class? r.flags rest
    some (r.addSet s depth, rest)
  | '?' => do some (← r.repeatLast? 0 (some 1), afterLazy rest)
  | '*' => do some (← r.repeatLast? 0 none, afterLazy rest)
  | '+' => do some (← r.repeatLast? 1 none, afterLazy rest)
  | '{' => r.counted? rest
  | '\\' => do
    let (element, rest) ← escape? r.flags rest
    some (← r.addElement? element, rest)
  | '.' => do some (r.addSet (← dot? r.flags) 0, rest)
  | '^' => some (r.addLook (lineStart r.flags), rest)
  | '$' => some (r.addLook (lineEnd r.flags), rest)
  | _ => do some (← r.addElement? (.literal c false), rest)

/-- The reader after the whole text. Every step takes a character, so the length of the text bounds
them. -/
def run? : Nat → Reader → List Char → Option Reader
  | 0, r, text => if text.isEmpty then some r else none
  | bound + 1, r, text =>
    match skipBlanks r.flags text with
    | [] => some r
    | c :: rest => do
      let (r, rest) ← r.step? c rest
      run? bound r rest

end Reader

def maxDepth : Nat := 250

def read? (text : List Char) : Option Pattern := do
  let r ← Reader.run? text.length {} text
  let part := r.whole
  if r.groups.isEmpty && part.depth ≤ maxDepth && part.pattern.fits then some part.pattern
  else none

end YamlTypes.Pattern
