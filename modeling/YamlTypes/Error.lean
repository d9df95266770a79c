import YamlTypes.Include.Expansion

/-!
Why work on a document fails.
-/

set_option autoImplicit false

namespace YamlTypes

open Include (FileFault)

inductive Error where
  /-- The document or one that it includes cannot be had. -/
  | include (failure : Include.Failure)
  /-- The text is no YAML document. -/
  | notYaml
  | unwritable (path : Path) (fault : FileFault)
  /-- A pattern has no meaning. -/
  | badPattern
  deriving DecidableEq, Repr

def Error.message : Error → String
  | .include failure => failure.message
  | .notYaml => "the document is not valid YAML"
  | .unwritable path fault => "cannot write " ++ path.text ++ ": " ++ fault.message
  | .badPattern => "invalid exclude pattern"

end YamlTypes
