import YamlTypes.Text.Blank
import YamlTypes.Value
import YamlTypes.Yaml.Document
import YamlTypes.Yaml.Merge
import YamlTypes.Yaml.Printer

/-!
The data of a YAML document.

Merge keys are applied first. The keys of an object are the texts of the
mapping's keys: a string is its own text, and a collection its block text
without the blanks at its end. When two keys have the same text, the later value
stands at the first position. A node under an application's tag is opaque unless
the tag spells out a core type. A text of blanks and comments only is no
document.
-/

set_option autoImplicit false

namespace YamlTypes.Yaml

/-- Whether a tag stands for one of the core types, whose nodes are taken as they are. -/
def isStandardTag (tag : String) : Bool :=
  let name := bareTag tag
  ['!'].isPrefixOf name || "tag:yaml.org,2002:".toList.isPrefixOf (name.dropWhile (· == '!'))

def tagName (tag : String) : String := String.ofList ((bareTag tag).dropWhile (· == '!'))

namespace Node

def keyName? : Node → Option String
  | .null => some "null"
  | .bool b => some (if b then "true" else "false")
  | .number n => some n.text
  | .string s => some s
  | .tagged _ content => content.keyName?
  | .sequence items => do some (String.ofList (Text.trimEnd (← (Node.sequence items).text?)))
  | .mapping entries => do some (String.ofList (Text.trimEnd (← (Node.mapping entries).text?)))

mutual

/-- The data of a node, if all its keys have a text. -/
def toValue? : Node → Option Value
  | .null => some .null
  | .bool b => some (.bool b)
  | .number n => some (.number n.toDouble)
  | .string s => some (.string s)
  | .sequence items => do some (.array (← toItems? items))
  | .mapping entries => do some (.object (Fields.ofPairs (← toFields? entries)))
  | .tagged tag content =>
    if isStandardTag tag then toValue? content else some (.tagged (tagName tag))

def toItems? : List Node → Option (List Value)
  | [] => some []
  | item :: rest => do
    let value ← toValue? item
    some (value :: (← toItems? rest))

def toFields? : List (Node × Node) → Option (List (String × Value))
  | [] => some []
  | (key, value) :: rest => do
    let name ← key.keyName?
    let value ← toValue? value
    some ((name, value) :: (← toFields? rest))

end

end Node

def isBlankDocument (text : List Char) : Bool :=
  (Text.splitOn '\n' text).all fun line =>
    match Text.trim line with
    | [] => true
    | c :: _ => c == '#'

def decode? (text : List Char) : Option Value :=
  if isBlankDocument text then some .undefined
  else do
    let node ← Node.ofText? text
    (← node.merge?).toValue?

end YamlTypes.Yaml
