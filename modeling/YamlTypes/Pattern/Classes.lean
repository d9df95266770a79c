import YamlTypes.Pattern.Classes.Boundary
import YamlTypes.Pattern.Classes.Category
import YamlTypes.Pattern.Classes.Property
import YamlTypes.Pattern.Classes.Script

/-!
Classes of characters by name.

Names are compared without case, spaces, hyphens and underscores, and without
`is` if they begin with it as they are written. A name alone is a property, a
general category or a script, in this order; some properties are given with one
of their values.
-/

set_option autoImplicit false

namespace YamlTypes.Pattern.Classes

/-- The characters of a name that count, in lowercase. -/
def plainName (name : List Char) : List Char :=
  (name.filter fun c => c.toNat < 0x80 && !(c == ' ' || c == '_' || c == '-')).map Char.toLower

/-- The form in which names are compared. What begins with `is` does not become the name of a
category of one letter that stands for something else in full. -/
def simplify (name : List Char) : String :=
  match name with
  | i :: s :: rest =>
    if i.toLower = 'i' ∧ s.toLower = 's' then
      let rest := plainName rest
      String.ofList (if rest = ['c'] then ['i', 's', 'c'] else rest)
    else String.ofList (plainName name)
  | _ => String.ofList (plainName name)

def named? (name : List Char) : Option CharSet :=
  let name := simplify name
  (property? name).orElse fun _ => (category? name).orElse fun _ => script? name

def valued? (property value : List Char) : Option CharSet :=
  let value := simplify value
  match simplify property with
  | "gc" | "generalcategory" => category? value
  | "sc" | "script" => script? value
  | "scx" | "scriptextensions" => scriptExtension? value
  | "age" => age? value
  | "gcb" | "graphemeclusterbreak" => graphemeBoundary? value
  | "wb" | "wordbreak" => wordBoundary? value
  | "sb" | "sentencebreak" => sentenceBoundary? value
  | _ => none

end YamlTypes.Pattern.Classes
