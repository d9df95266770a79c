/-!
Structural types and their text.

`render` writes a type at an indent: the lines inside an object type are
indented by two more spaces, and its closing brace by the indent itself. The
element type of an array and the variants of a union stand at the indent of the
array.
-/

set_option autoImplicit false

namespace YamlTypes

inductive Primitive where
  | string
  | number
  | boolean
  deriving DecidableEq, Repr

def Primitive.keyword : Primitive → String
  | .string => "string"
  | .number => "number"
  | .boolean => "boolean"

inductive TypeExpr where
  | primitive (kind : Primitive)
  | null
  | undefined
  | any
  | object (fields : List (String × TypeExpr))
  | array (element : TypeExpr)
  | union (variants : List TypeExpr)
  /-- An array of which no element is known. -/
  | emptyArray
  deriving Inhabited

namespace TypeExpr

def alternatives : List String → String
  | [] => ""
  | [text] => text
  | text :: rest => text ++ " | " ++ alternatives rest

mutual

def render (indent : String) : TypeExpr → String
  | .primitive kind => kind.keyword
  | .null => "null"
  | .undefined => "undefined"
  | .any => "any"
  | .object fields => "\x7b\n" ++ renderFields (indent ++ "  ") fields ++ indent ++ "\x7d"
  | .array element => element.render indent ++ "[]"
  | .union variants => "(" ++ alternatives (renderEach indent variants) ++ ")"
  | .emptyArray => "any[]"

def renderFields (indent : String) : List (String × TypeExpr) → String
  | [] => ""
  | (key, type) :: rest =>
    indent ++ key ++ ": " ++ type.render indent ++ ";\n" ++ renderFields indent rest

def renderEach (indent : String) : List TypeExpr → List String
  | [] => []
  | type :: rest => type.render indent :: renderEach indent rest

end

theorem renderEach_eq_map (indent : String) (types : List TypeExpr) :
    renderEach indent types = types.map (render indent) := by
  induction types with
  | nil => simp [renderEach]
  | cons type rest ih => simp [renderEach, ih]

end TypeExpr

end YamlTypes
