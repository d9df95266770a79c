import YamlTypes.Yaml.Cursor
import YamlTypes.Yaml.Token

/-!
Tags, anchors and directives.

The text of a tag is a URI: besides the characters that URIs are made of it
holds percent signs with two hexadecimal digits, which stand for bytes. The
bytes must come in groups as long as the first of the group says. A zero byte
ends the name that the text spells, whatever follows.
-/

set_option autoImplicit false

namespace YamlTypes.Yaml

/-- The characters of a tag. Inside angle brackets and in directives the flow indicators of
sequences belong to them too. -/
def isUriChar (verbatim : Bool) (c : Char) : Bool :=
  isWordChar c || [';', '/', '?', ':', '@', '&', '=', '+', '$', '.', '%', '!', '~', '*', '\x27', '(',
    ')'].contains c || (verbatim && [',', '[', ']'].contains c)

def followers? (byte : Nat) : Option Nat :=
  if byte < 0x80 then some 0
  else if byte < 0xC0 then none
  else if byte < 0xE0 then some 1
  else if byte < 0xF0 then some 2
  else if byte < 0xF8 then some 3
  else none

/-- The bytes of URI text, of which `missing` must come next to complete a character. -/
def uriBytes? : Nat → List Char → Option (List UInt8)
  | 0, [] => some []
  | _ + 1, [] => none
  | missing, '%' :: a :: b :: rest => do
    let byte ← hexNumber? 0 [a, b]
    match missing with
    | 0 => do
      let later ← uriBytes? (← followers? byte) rest
      some (UInt8.ofNat byte :: later)
    | missing + 1 =>
      if byte / 64 = 2 then do
        let later ← uriBytes? missing rest
        some (UInt8.ofNat byte :: later)
      else none
  | 0, c :: rest => do
    if c = '%' then none
    else
      let later ← uriBytes? 0 rest
      some ((String.singleton c).toUTF8.toList ++ later)
  | _ + 1, _ :: _ => none

/-- The name that URI text spells: its bytes up to the first zero byte. -/
def uriName? (text : List Char) : Option (List UInt8) := do
  some ((← uriBytes? 0 text).takeWhile (· != 0))

def uri? (verbatim : Bool) (cursor : Cursor) : Option (List UInt8 × Cursor) := do
  let (text, after) := cursor.span (isUriChar verbatim)
  if text.isEmpty then none else some (← uriName? text, after)

/-- An exclamation mark, word characters, and the exclamation mark that closes a handle. -/
def handle? (cursor : Cursor) : Option (List Char × Cursor) :=
  if oneOfNext ['!'] cursor.rest then
    let (name, after) := (cursor.skip 1).span isWordChar
    if oneOfNext ['!'] after.rest then some ('!' :: name ++ ['!'], after.skip 1)
    else some ('!' :: name, after)
  else none

def isClosedHandle (handle : List Char) : Bool :=
  1 < handle.length && handle.getLast? == some '!'

def tagMark? (cursor : Cursor) : Option (TagMark × Cursor) :=
  match cursor.rest with
  | '!' :: '<' :: _ => do
    let (suffix, after) ← uri? true (cursor.skip 2)
    if oneOfNext ['>'] after.rest then some (⟨[], suffix⟩, after.skip 1) else none
  | _ => do
    let (handle, after) ← handle? cursor
    if isClosedHandle handle then
      let (suffix, after) ← uri? false after
      some (⟨handle, suffix⟩, after)
    else
      let (text, after) := after.span (isUriChar false)
      let suffix ← uriName? (handle.drop 1 ++ text)
      if suffix.isEmpty then some (⟨[], [UInt8.ofNat '!'.toNat]⟩, after)
      else some (⟨['!'], suffix⟩, after)

/-- A tag ends before a blank, and inside a flow collection before a comma. -/
def tag? (inFlow : Bool) (cursor : Cursor) : Option (TagMark × Cursor) := do
  let (mark, after) ← tagMark? cursor
  if blankNext after.rest || (inFlow && oneOfNext [','] after.rest) then some (mark, after)
  else none

def anchorName? (cursor : Cursor) : Option (List Char × Cursor) :=
  let (name, after) := (cursor.skip 1).span isWordChar
  if name.isEmpty then none
  else if blankNext after.rest ||
      oneOfNext ['?', ':', ',', ']', '}', '%', '@', '\x60'] after.rest then some (name, after)
  else none

def versionNumber? (cursor : Cursor) : Option (Nat × Cursor) :=
  let (digits, after) := cursor.span isDigit
  if digits.isEmpty || 9 < digits.length then none else some (decimalNumber digits, after)

def versionDirective? (cursor : Cursor) : Option (Token × Cursor) := do
  let (major, after) ← versionNumber? cursor.dropBlanks
  if !oneOfNext ['.'] after.rest then none
  else
    let (minor, after) ← versionNumber? (after.skip 1)
    some (.versionDirective major minor, after)

def tagDirective? (cursor : Cursor) : Option (Token × Cursor) := do
  let (handle, after) ← handle? cursor.dropBlanks
  if !(isClosedHandle handle || handle.length = 1) || !oneOfNext [' ', '\t'] after.rest then none
  else
    let (start, after) ← uri? true after.dropBlanks
    if blankNext after.rest then some (.tagDirective handle start, after) else none

def directive? (cursor : Cursor) : Option (Token × Cursor) := do
  let (name, after) := (cursor.skip 1).span isWordChar
  if !blankNext after.rest then none
  else
    let (token, after) ←
      if name = ['Y', 'A', 'M', 'L'] then versionDirective? after
      else if name = ['T', 'A', 'G'] then tagDirective? after
      else none
    some (token, ← after.endLine?)

end YamlTypes.Yaml
