import YamlTypes.Fields
import YamlTypes.Include.Expansion
import YamlTypes.Json.Reader

/-!
Option records and their JSON form.

A record is read from an object of its fields, where each may be missing and
unknown ones are passed over, or from an array of them in order, which may end
early. What is missing keeps its default. A field given twice or with a value of
another type is refused. A word may also be given as an object with the word as
its only key and null as its value.
-/

set_option autoImplicit false

namespace YamlTypes

def Json.word? : Json → Option String
  | .string s => some s
  | .object [(key, .null)] => some key
  | _ => none

def Json.bool? : Json → Option Bool
  | .bool b => some b
  | _ => none

def Json.string? : Json → Option String
  | .string s => some s
  | _ => none

def Json.strings? : Json → Option (List String)
  | .array items => items.mapM Json.string?
  | _ => none

namespace Encoding

def word : Encoding → String
  | .utf8 => "utf8"
  | .utf8Lossy => "utf8-lossy"

def ofWord? (word : String) : Option Encoding :=
  if word = "utf8" ∨ word = "utf-8" then some .utf8
  else if word = "utf8-lossy" then some .utf8Lossy
  else none

end Encoding

namespace Include.CycleMode

def word : CycleMode → String
  | .detect => "detect"
  | .unchecked => "unchecked"

def ofWord? (word : String) : Option CycleMode :=
  if word = "detect" then some .detect
  else if word = "unchecked" then some .unchecked
  else none

end Include.CycleMode

/-- How the fields of a record are named and set, in order. -/
abbrev Schema (α : Type) := List (String × (α → Json → Option α))

namespace Schema

variable {α : Type}

def setField (schema : Schema α) (record : α) (field : String × Json) : Option α :=
  match Fields.get? field.1 schema with
  | some set => set record field.2
  | none => some record

def setFields (schema : Schema α) (record : α) : List (String × Json) → Option α
  | [] => some record
  | field :: rest => (setField schema record field).bind (setFields schema · rest)

def setItems : Schema α → α → List Json → Option α
  | _, record, [] => some record
  | [], _, _ :: _ => none
  | (_, set) :: schema, record, item :: rest => (set record item).bind (setItems schema · rest)

def givenOnce (schema : Schema α) (fields : List (String × Json)) : Bool :=
  schema.all fun entry => (fields.filter fun field => field.1 == entry.1).length ≤ 1

def read? (schema : Schema α) (default : α) : Json → Option α
  | .object fields => if givenOnce schema fields then setFields schema default fields else none
  | .array items => setItems schema default items
  | _ => none

end Schema

namespace Include.Settings

def schema : Schema Settings :=
  [("encoding", fun s j => do some { s with encoding := ← Encoding.ofWord? (← j.word?) }),
   ("cycles", fun s j => do some { s with cycles := ← CycleMode.ofWord? (← j.word?) })]

def ofJson? (json : Json) : Option Settings := schema.read? {} json

def toJson (s : Settings) : Json :=
  .object [("encoding", .string s.encoding.word), ("cycles", .string s.cycles.word)]

end Include.Settings

structure GenerateOptions where
  /-- Whether includes are expanded. -/
  followReferences : Bool := false
  /-- The base directory of includes. -/
  root : Path := ⟨"./"⟩
  resolve : Include.Settings := {}
  deriving DecidableEq, Repr, Inhabited

namespace GenerateOptions

def schema : Schema GenerateOptions :=
  [("followReferences", fun o j => do some { o with followReferences := ← j.bool? }),
   ("root", fun o j => do some { o with root := ⟨← j.string?⟩ }),
   ("resolve", fun o j => do some { o with resolve := ← Include.Settings.ofJson? j })]

def ofJson? (json : Json) : Option GenerateOptions := schema.read? {} json

def toJson (o : GenerateOptions) : Json :=
  .object [("followReferences", .bool o.followReferences), ("root", .string o.root.text),
    ("resolve", o.resolve.toJson)]

end GenerateOptions

structure TransformOptions where
  /-- Whether a declaration file is written beside the document. -/
  emitTypes : Bool := false
  encoding : Encoding := .utf8
  /-- Patterns of the names that are left alone. -/
  exclude : List String := []
  /-- Whether includes are expanded. -/
  followReferences : Bool := false
  /-- The base directory of includes. -/
  root : Path := ⟨"./"⟩
  cycles : Include.CycleMode := .detect
  deriving DecidableEq, Repr, Inhabited

namespace TransformOptions

def schema : Schema TransformOptions :=
  [("isTS", fun o j => do some { o with emitTypes := ← j.bool? }),
   ("encoding", fun o j => do some { o with encoding := ← Encoding.ofWord? (← j.word?) }),
   ("exclude", fun o j => do some { o with exclude := ← j.strings? }),
   ("followReferences", fun o j => do some { o with followReferences := ← j.bool? }),
   ("root", fun o j => do some { o with root := ⟨← j.string?⟩ }),
   ("cycles", fun o j => do some { o with cycles := ← Include.CycleMode.ofWord? (← j.word?) })]

def ofJson? (json : Json) : Option TransformOptions := schema.read? {} json

def toJson (o : TransformOptions) : Json :=
  .object [("isTS", .bool o.emitTypes), ("encoding", .string o.encoding.word),
    ("exclude", .array (o.exclude.map .string)), ("followReferences", .bool o.followReferences),
    ("root", .string o.root.text), ("cycles", .string o.cycles.word)]

def settings (o : TransformOptions) : Include.Settings := ⟨o.encoding, o.cycles⟩

end TransformOptions

end YamlTypes
