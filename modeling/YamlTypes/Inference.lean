import YamlTypes.TypeExpr
import YamlTypes.Value

/-!
The narrowest structural type of a value.

The elements of an array are told apart by the text of their types at the
indent where the type is to be rendered, and the types that remain stand in the
order in which they first occur. One type makes a plain array, several make an
array of their union.
-/

set_option autoImplicit false

namespace YamlTypes

namespace TypeExpr

/-- The first type of each text, in order, leaving out the texts already seen. -/
def distinct (indent : String) (seen : List String) : List TypeExpr → List TypeExpr
  | [] => []
  | type :: rest =>
    let text := type.render indent
    if text ∈ seen then distinct indent seen rest
    else type :: distinct indent (text :: seen) rest

def ofElements (indent : String) (types : List TypeExpr) : TypeExpr :=
  match distinct indent [] types with
  | [] => .emptyArray
  | [type] => .array type
  | variants => .array (.union variants)

mutual

def infer (indent : String) : Value → TypeExpr
  | .null => .null
  | .undefined => .undefined
  | .bool _ => .primitive .boolean
  | .number _ => .primitive .number
  | .string _ => .primitive .string
  | .array items => ofElements indent (inferItems indent items)
  | .object fields => .object (inferFields (indent ++ "  ") fields)
  | .tagged _ => .any

def inferItems (indent : String) : List Value → List TypeExpr
  | [] => []
  | item :: rest => infer indent item :: inferItems indent rest

def inferFields (indent : String) : List (String × Value) → List (String × TypeExpr)
  | [] => []
  | (key, value) :: rest => (key, infer indent value) :: inferFields indent rest

end

theorem inferItems_eq_map (indent : String) (items : List Value) :
    inferItems indent items = items.map (infer indent) := by
  induction items with
  | nil => simp [inferItems]
  | cons item rest ih => simp [inferItems, ih]

end TypeExpr

/-- The text of the type of a value at an indent. -/
def Value.typeText (indent : String) (value : Value) : String :=
  (TypeExpr.infer indent value).render indent

end YamlTypes
