/-!
The tokens of a YAML stream.

Indentation has become tokens of its own: a block collection has a token where
it starts and one where it ends. A key is announced by a token before it, also
where the text shows only after the key that it was one.
-/

set_option autoImplicit false

namespace YamlTypes.Yaml

/-- A tag as written: a handle, which is empty for a verbatim tag, and the bytes after it. -/
structure TagMark where
  handle : List Char
  suffix : List UInt8
  deriving DecidableEq, Repr

inductive Token where
  | versionDirective (major minor : Nat)
  | tagDirective (handle : List Char) (start : List UInt8)
  | documentStart
  | documentEnd
  | blockSequenceStart
  | blockMappingStart
  | blockEnd
  | flowSequenceStart
  | flowSequenceEnd
  | flowMappingStart
  | flowMappingEnd
  | blockEntry
  | flowEntry
  | key
  | value
  | alias (name : List Char)
  | anchor (name : List Char)
  | tag (mark : TagMark)
  /-- `plain` holds for text without quotes or a block header. -/
  | scalar (plain : Bool) (text : List Char)
  deriving DecidableEq, Repr

end YamlTypes.Yaml
