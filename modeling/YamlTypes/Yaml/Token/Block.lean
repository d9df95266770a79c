import YamlTypes.Yaml.Cursor

/-!
Block scalars: text after a header line, marked by its indentation.

The indentation is given in the header or found from the first line that is not
empty. In a literal scalar lines stay as they are. In a folded one the break
between two lines that begin with no blank becomes a space, or nothing if empty
lines follow. The header also says what becomes of the line breaks at the end:
all but the first are dropped, or all, or none.
-/

set_option autoImplicit false

namespace YamlTypes.Yaml

inductive Chomping where
  | clip
  | strip
  | keep
  deriving DecidableEq, Repr

structure BlockHeader where
  folded : Bool
  chomping : Chomping
  /-- The indentation over that of the enclosing collection, if it is given. -/
  increment : Option Nat
  deriving DecidableEq, Repr

def chomping? : List Char → Option Chomping
  | '+' :: _ => some .keep
  | '-' :: _ => some .strip
  | _ => none

/-- An indentation digit at the cursor; zero is none. -/
def increment? (cursor : Cursor) : Option (Option Nat × Cursor) :=
  match cursor.rest with
  | c :: _ =>
    if c = '0' then none
    else if isDigit c then some (some (c.toNat - 48), cursor.skip 1)
    else some (none, cursor)
  | [] => some (none, cursor)

def blockHeader? (cursor : Cursor) : Option (BlockHeader × Cursor) := do
  let folded := oneOfNext ['>'] cursor.rest
  let cursor := cursor.skip 1
  match chomping? cursor.rest with
  | some chomping =>
    let (increment, after) ← increment? (cursor.skip 1)
    some (⟨folded, chomping, increment⟩, ← after.endLine?)
  | none =>
    let (increment, after) ← increment? cursor
    match increment, chomping? after.rest with
    | some _, some chomping => some (⟨folded, chomping, increment⟩, ← (after.skip 1).endLine?)
    | _, _ => some (⟨folded, .clip, increment⟩, ← after.endLine?)

/-- Empty lines before the first line of text, where the indentation is not known yet. `widest` is
the widest of the empty lines so far; `breaks` are their breaks, the last one first. -/
def leadingLines? (widest : Nat) (breaks : List Char) (line column : Nat) :
    List Char → Option (Nat × List Char × Cursor)
  | [] => some (max widest column, breaks, ⟨[], line, column⟩)
  | c :: rest =>
    if c = ' ' then leadingLines? widest breaks line (column + 1) rest
    else if c = '\t' then none
    else if isBreak c then leadingLines? (max widest column) (c :: breaks) (line + 1) 0 rest
    else some (max widest column, breaks, ⟨c :: rest, line, column⟩)

def emptyLines? (indent : Nat) (breaks : List Char) (line column : Nat) :
    List Char → Option (List Char × Cursor)
  | [] => some (breaks, ⟨[], line, column⟩)
  | c :: rest =>
    if c = ' ' ∧ column < indent then emptyLines? indent breaks line (column + 1) rest
    else if c = '\t' ∧ column < indent then none
    else if isBreak c then emptyLines? indent (c :: breaks) (line + 1) 0 rest
    else some (breaks, ⟨c :: rest, line, column⟩)

/-- What lies between two lines of text: the break that ended the first one, and those of the empty
lines, the last one first. `folds` holds if the break may become a space. -/
def lineJoint (folds : Bool) (first : Option Char) (later : List Char) : List Char :=
  match folds, first with
  | true, some '\n' => if later.isEmpty then [' '] else later
  | _, _ => later ++ first.toList

/-- The lines of text with an indentation, which end where the indentation is less. `taken` holds
the text so far in reverse, `first` and `later` the line breaks after it. Every line takes a
character, so the length of the text bounds them. -/
def blockLines? (header : BlockHeader) (indent : Nat) : Nat → (taken : List Char) →
    (first : Option Char) → (later : List Char) → (afterBlank : Bool) → Cursor →
    Option (List Char × Cursor)
  | bound + 1, taken, first, later, afterBlank, cursor =>
    if cursor.column = indent ∧ !cursor.rest.isEmpty then do
      let startsBlank := oneOfNext [' ', '\t'] cursor.rest
      let joint := lineJoint (header.folded && !afterBlank && !startsBlank) first later
      let (text, atEnd) := cursor.span fun c => !isBreak c
      let (breaks, next) ← match atEnd.rest with
        | [] => some ([], atEnd)
        | _ :: rest => emptyLines? indent [] (atEnd.line + 1) 0 rest
      blockLines? header indent bound (text.reverse ++ (joint ++ taken)) atEnd.rest.head? breaks
        startsBlank next
    else some (blockEnd header.chomping taken first later, cursor)
  | 0, taken, first, later, _, cursor =>
    some (blockEnd header.chomping taken first later, cursor)
where
  /-- The whole text, with the line breaks at its end that the header keeps. -/
  blockEnd (chomping : Chomping) (taken : List Char) (first : Option Char) (later : List Char) :
      List Char :=
    match chomping with
    | .strip => taken.reverse
    | .clip => (first.toList ++ taken).reverse
    | .keep => (later ++ (first.toList ++ taken)).reverse

/-- The scalar whose header begins at the cursor, inside a block collection of this indentation. -/
def blockScalar? (parent : Int) (cursor : Cursor) : Option (List Char × Cursor) := do
  let (header, start) ← blockHeader? cursor
  match header.increment with
  | some increment =>
    let indent := if 0 ≤ parent then parent.toNat + increment else increment
    let (breaks, first) ← emptyLines? indent [] start.line start.column start.rest
    blockLines? header indent (first.rest.length + 1) [] none breaks false first
  | none =>
    let (widest, breaks, first) ← leadingLines? 0 [] start.line start.column start.rest
    let indent := max widest (max (parent + 1).toNat 1)
    blockLines? header indent (first.rest.length + 1) [] none breaks false first

end YamlTypes.Yaml
