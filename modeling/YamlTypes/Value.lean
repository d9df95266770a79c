import YamlTypes.Fields
import YamlTypes.Number.Double

/-!
The data that a document holds.

Objects keep the order of their fields. `undefined` is the absence of a
document; `tagged` stands for a node with an application's own tag, of which
only the tag is known.
-/

set_option autoImplicit false

namespace YamlTypes

inductive Value where
  | null
  | undefined
  | bool (b : Bool)
  | number (x : Double)
  | string (s : String)
  | array (items : List Value)
  | object (fields : List (String × Value))
  | tagged (tag : String)
  deriving Inhabited

namespace Value

/-- The value of a field of an object; other values have no fields. -/
def get? (key : String) : Value → Option Value
  | .object fields => Fields.get? key fields
  | _ => none

def isUndefined : Value → Bool
  | .undefined => true
  | _ => false

mutual

/-- Equality of data. Numbers are compared as numbers. -/
def equal : Value → Value → Bool
  | .null, .null => true
  | .undefined, .undefined => true
  | .bool a, .bool b => a == b
  | .number x, .number y => x.equal y
  | .string s, .string t => s == t
  | .array xs, .array ys => equalItems xs ys
  | .object xs, .object ys => equalFields xs ys
  | .tagged s, .tagged t => s == t
  | _, _ => false

def equalItems : List Value → List Value → Bool
  | [], [] => true
  | x :: xs, y :: ys => x.equal y && equalItems xs ys
  | _, _ => false

def equalFields : List (String × Value) → List (String × Value) → Bool
  | [], [] => true
  | (j, x) :: xs, (k, y) :: ys => j == k && x.equal y && equalFields xs ys
  | _, _ => false

end

end Value

end YamlTypes
