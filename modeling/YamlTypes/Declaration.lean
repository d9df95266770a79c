import YamlTypes.Inference

/-!
Declaration files: the type of a document's data, in a file beside the
document.
-/

set_option autoImplicit false

namespace YamlTypes.Declaration

def suffix : String := ".d.ts"

/-- The declaration file of a document, whatever the document's own extension. -/
def pathText (source : String) : String := source ++ suffix

def contents (value : Value) : String :=
  "declare const data: " ++ value.typeText "" ++ ";\nexport default data;\n"

end YamlTypes.Declaration
