import YamlTypes.Json
import YamlTypes.Number.Decimal
import YamlTypes.Value

/-!
The body of a script module whose default export is a document's data.

The data is written as JSON. What has no JSON form is treated as JavaScript
does: an undefined field is left out, an undefined item is null, and so are
tagged nodes, infinities and not-a-number. Integers that a double holds exactly
together with their neighbours are written without a fraction; minus zero is 0.
-/

set_option autoImplicit false

namespace YamlTypes

/-- Other numbers have the fewest digits, a point or an exponent, and a sign in the exponent. -/
def Json.numberStyle : Number.DecimalStyle :=
  { least := -5, above := 16, plusSign := true, infinity := "null", notANumber := "null" }

/-- The largest integer whose neighbours are doubles too. -/
def Double.maxSafeInteger : Nat := (1 <<< 53) - 1

def Double.toJson (x : Double) : Json :=
  if x.isFinite then
    match x.toInt? with
    | some n =>
      if n.natAbs ≤ maxSafeInteger then .number (toString n) else .number (Json.numberStyle.text x)
    | none => .number (Json.numberStyle.text x)
  else .null

namespace Value

mutual

def toJson? : Value → Option Json
  | .null => some .null
  | .undefined => none
  | .bool b => some (.bool b)
  | .number x => some x.toJson
  | .string s => some (.string s)
  | .array items => some (.array (jsonItems items))
  | .object fields => some (.object (Fields.ofPairs (jsonFields fields)))
  | .tagged _ => some .null

def jsonItems : List Value → List Json
  | [] => []
  | item :: rest => item.toJson?.getD .null :: jsonItems rest

def jsonFields : List (String × Value) → List (String × Json)
  | [] => []
  | (key, value) :: rest =>
    match value.toJson? with
    | some json => (key, json) :: jsonFields rest
    | none => jsonFields rest

end

def literal (value : Value) : String :=
  match value.toJson? with
  | some json => json.pretty ""
  | none => "undefined"

def moduleBody (value : Value) : String :=
  "const data = " ++ value.literal ++ ";\nexport default data;\n"

end Value

end YamlTypes
