import YamlTypes.Pattern.CharSet
import YamlTypes.Pattern.Table.Age
import YamlTypes.Pattern.Table.Script
import YamlTypes.Pattern.Table.ScriptExtension

/-!
Classes of characters by the script that they belong to, by the scripts that
they are used with, and by the version that added them.
-/

set_option autoImplicit false

namespace YamlTypes.Pattern.Classes

open CharSet Table

def script? (name : String) : Option CharSet :=
  (scripts.find? fun entry => entry.1.contains name).map fun entry => ofTable entry.2

/-- The characters that are used with a script: its own, unless a list of scripts is given for them,
and those that list it. -/
def scriptExtension? (name : String) : Option CharSet :=
  (scripts.find? fun entry => entry.1.contains name).map fun (names, own) =>
    let listing := scriptExtensions.filter fun entry => names.any entry.1.contains
    ((ofTable own).diff (unions (scriptExtensions.map fun entry => ofTable entry.2))).union
      (unions (listing.map fun entry => ofTable entry.2))

/-- Whether a name is that of a version: its number, or a letter and its digits. -/
def namesVersion (name version : String) : Bool :=
  name == version || name.toList == 'v' :: version.toList.filter (· != '.')

/-- The characters that a version has, those of earlier versions among them. -/
def age? (name : String) : Option CharSet :=
  (ages.findIdx? fun entry => namesVersion name entry.1).map fun index =>
    unions ((ages.take (index + 1)).map fun entry => ofTable entry.2)

end YamlTypes.Pattern.Classes
