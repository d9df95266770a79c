import YamlTypes.Yaml.Token.Gap

/-!
Quoted scalars.

In single quotes a quote is written twice. In double quotes a backslash begins
an escape: of one character, of a code point in hexadecimal digits, or of a line
break. Neither may hold a document marker at the start of a line.
-/

set_option autoImplicit false

namespace YamlTypes.Yaml

def escaped? : Char → Option Char
  | '0' => some '\x00'
  | 'a' => some '\x07'
  | 'b' => some '\x08'
  | 't' => some '\t'
  | '\t' => some '\t'
  | 'n' => some '\n'
  | 'v' => some '\x0b'
  | 'f' => some '\x0c'
  | 'r' => some '\r'
  | 'e' => some '\x1b'
  | ' ' => some ' '
  | '"' => some '"'
  | '/' => some '/'
  | '\\' => some '\\'
  | 'N' => some '\u0085'
  | '_' => some '\u00a0'
  | 'L' => some '\u2028'
  | 'P' => some '\u2029'
  | _ => none

def codePoint? (digits : List Char) : Option Char := do
  let n ← hexNumber? 0 digits
  if (0xD800 ≤ n ∧ n ≤ 0xDFFF) ∨ 0x10FFFF < n then none else some (Char.ofNat n)

def singleQuotedFrom (taken : List Char) (gap : Gap) (line column : Nat) :
    List Char → Option (List Char × Cursor)
  | [] => none
  | '\x27' :: '\x27' :: rest =>
    singleQuotedFrom ('\x27' :: (gap.folded ++ taken)) {} line (column + 2) rest
  | '\x27' :: rest => some ((gap.folded ++ taken).reverse, ⟨rest, line, column + 1⟩)
  | c :: rest =>
    if column == 0 && isMarker (c :: rest) then none
    else if isBreak c then singleQuotedFrom taken (gap.add c) (line + 1) 0 rest
    else if isSpaceOrTab c then singleQuotedFrom taken (gap.add c) line (column + 1) rest
    else singleQuotedFrom (c :: (gap.folded ++ taken)) {} line (column + 1) rest

def doubleQuotedFrom (taken : List Char) (gap : Gap) (line column : Nat) :
    List Char → Option (List Char × Cursor)
  | [] => none
  | '"' :: rest => some ((gap.folded ++ taken).reverse, ⟨rest, line, column + 1⟩)
  | '\\' :: 'x' :: a :: b :: rest => do
    let c ← codePoint? [a, b]
    doubleQuotedFrom (c :: (gap.folded ++ taken)) {} line (column + 4) rest
  | '\\' :: 'u' :: a :: b :: c :: d :: rest => do
    let c ← codePoint? [a, b, c, d]
    doubleQuotedFrom (c :: (gap.folded ++ taken)) {} line (column + 6) rest
  | '\\' :: 'U' :: a :: b :: c :: d :: e :: f :: g :: h :: rest => do
    let c ← codePoint? [a, b, c, d, e, f, g, h]
    doubleQuotedFrom (c :: (gap.folded ++ taken)) {} line (column + 10) rest
  | '\\' :: c :: rest =>
    if isBreak c then
      doubleQuotedFrom (gap.folded ++ taken) .escapedBreak (line + 1) 0 rest
    else do
      let c ← escaped? c
      doubleQuotedFrom (c :: (gap.folded ++ taken)) {} line (column + 2) rest
  | c :: rest =>
    if column == 0 && isMarker (c :: rest) then none
    else if isBreak c then doubleQuotedFrom taken (gap.add c) (line + 1) 0 rest
    else if isSpaceOrTab c then doubleQuotedFrom taken (gap.add c) line (column + 1) rest
    else doubleQuotedFrom (c :: (gap.folded ++ taken)) {} line (column + 1) rest

def quoted? (cursor : Cursor) : Option (List Char × Cursor) :=
  match cursor.rest with
  | '\x27' :: rest => singleQuotedFrom [] {} cursor.line (cursor.column + 1) rest
  | _ :: rest => doubleQuotedFrom [] {} cursor.line (cursor.column + 1) rest
  | [] => none

end YamlTypes.Yaml
