import YamlTypes.Text.Utf8

/-!
How the bytes of a file become text.
-/

set_option autoImplicit false

namespace YamlTypes

inductive Encoding where
  /-- Bytes that are not UTF-8 are refused. -/
  | utf8
  /-- Bytes that are not UTF-8 are replaced. -/
  | utf8Lossy
  deriving DecidableEq, Repr, Inhabited

def Encoding.decode (bytes : List UInt8) : Encoding → Except Text.Utf8.Fault (List Char)
  | .utf8 => Text.Utf8.decode bytes
  | .utf8Lossy => .ok (Text.Utf8.decodeLossy bytes)

end YamlTypes
