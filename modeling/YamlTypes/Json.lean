/-!
JSON documents and their text.

Numbers are kept as the literal they are written with, and objects as their
fields in order. A string literal that names half a surrogate pair by an escape
is well formed but stands for no text; it is `halfPair`, and so is an object that
has it among its keys.

There are two layouts: `compact` has no blanks at all, and `pretty` puts every
item and every field on a line of its own, two spaces further in.
-/

set_option autoImplicit false

namespace YamlTypes

inductive Json where
  | null
  | bool (b : Bool)
  | number (literal : String)
  | string (s : String)
  | halfPair
  | array (items : List Json)
  | object (fields : List (String × Json))
  deriving Inhabited

namespace Json

def hexDigit (n : Nat) : Char := (Nat.toDigits 16 (n % 16)).headD '0'

/-- Quotes, backslashes and control characters are escaped, and nothing else. -/
def escape (c : Char) : List Char :=
  if c = '"' then ['\\', '"']
  else if c = '\\' then ['\\', '\\']
  else if c = '\n' then ['\\', 'n']
  else if c = '\r' then ['\\', 'r']
  else if c = '\t' then ['\\', 't']
  else if c = '\x08' then ['\\', 'b']
  else if c = '\x0c' then ['\\', 'f']
  else if c.toNat < 0x20 then ['\\', 'u', '0', '0', hexDigit (c.toNat / 16), hexDigit c.toNat]
  else [c]

def quote (s : String) : String := "\"" ++ String.ofList (s.toList.flatMap escape) ++ "\""

def boolText (b : Bool) : String := if b then "true" else "false"

mutual

def compact : Json → String
  | .null => "null"
  | .bool b => boolText b
  | .number literal => literal
  | .string s => quote s
  | .halfPair => "\"\\ud800\""
  | .array items => "[" ++ compactItems items ++ "]"
  | .object fields => "\x7b" ++ compactFields fields ++ "\x7d"

def compactItems : List Json → String
  | [] => ""
  | [item] => item.compact
  | item :: rest => item.compact ++ "," ++ compactItems rest

def compactFields : List (String × Json) → String
  | [] => ""
  | [(key, value)] => quote key ++ ":" ++ value.compact
  | (key, value) :: rest => quote key ++ ":" ++ value.compact ++ "," ++ compactFields rest

end

mutual

def pretty (indent : String) : Json → String
  | .null => "null"
  | .bool b => boolText b
  | .number literal => literal
  | .string s => quote s
  | .halfPair => "\"\\ud800\""
  | .array [] => "[]"
  | .array items => "[\n" ++ prettyItems (indent ++ "  ") items ++ "\n" ++ indent ++ "]"
  | .object [] => "\x7b\x7d"
  | .object fields =>
    "\x7b\n" ++ prettyFields (indent ++ "  ") fields ++ "\n" ++ indent ++ "\x7d"

def prettyItems (indent : String) : List Json → String
  | [] => ""
  | [item] => indent ++ item.pretty indent
  | item :: rest => indent ++ item.pretty indent ++ ",\n" ++ prettyItems indent rest

def prettyFields (indent : String) : List (String × Json) → String
  | [] => ""
  | [(key, value)] => indent ++ quote key ++ ": " ++ value.pretty indent
  | (key, value) :: rest =>
    indent ++ quote key ++ ": " ++ value.pretty indent ++ ",\n" ++ prettyFields indent rest

end

end Json

end YamlTypes
