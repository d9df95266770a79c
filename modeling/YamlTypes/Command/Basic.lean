import YamlTypes.Include.Expansion

/-!
The commands of the program, and what arguments may be instead of one.
-/

set_option autoImplicit false

namespace YamlTypes

namespace Command

structure IncludeOptions where
  root : Path := ⟨"."⟩
  settings : Include.Settings := {}
  deriving DecidableEq, Repr, Inhabited

/-- What arguments ask for instead of a command. -/
inductive Inquiry where
  | help
  | version
  deriving DecidableEq, Repr

inductive Misuse where
  | missingCommand
  | unknownCommand (word : String)
  | unknownOption (word : String)
  | unexpectedValue (option : String)
  | missingValue (option : String)
  /-- A directory has no empty path. -/
  | emptyValue (name : String)
  | repeated (option : String)
  | unexpectedOperand (word : String)
  /-- An option needs another one beside it. -/
  | needs (option other : String)
  deriving DecidableEq, Repr

def Misuse.message : Misuse → String
  | .missingCommand => "a command is required"
  | .unknownCommand word => "unknown command: " ++ word
  | .unknownOption word => "unknown option: " ++ word
  | .unexpectedValue option => "the option takes no value: --" ++ option
  | .missingValue option => "the option needs a value: --" ++ option
  | .emptyValue name => "the value must not be empty: " ++ name
  | .repeated option => "the option is given twice: --" ++ option
  | .unexpectedOperand word => "unexpected argument: " ++ word
  | .needs option other => "the option --" ++ option ++ " needs --" ++ other

end Command

open Command (IncludeOptions)

inductive Command where
  /-- Write a declaration file for every YAML file below a directory. -/
  | generate (directory : Path) (exclude : String) (follow : Bool) (includes : IncludeOptions)
  /-- Print a document with its includes expanded, or only what it includes. -/
  | resolve (input output : Option Path) (list : Bool) (includes : IncludeOptions)
  /-- Print the type of a document, or its declaration. -/
  | infer (input : Option Path) (declaration follow : Bool) (includes : IncludeOptions)
  /-- Print the module of a document. -/
  | module (input output : Option Path) (types follow : Bool) (includes : IncludeOptions)
  deriving DecidableEq, Repr

namespace Command

/-- The document that a command is given by path. -/
def input? : Command → Option Path
  | .generate .. => none
  | .resolve input .. => input
  | .infer input .. => input
  | .module input .. => input

/-- The file that a command writes its result to. -/
def output? : Command → Option Path
  | .generate .. => none
  | .resolve _ output .. => output
  | .infer .. => none
  | .module _ output .. => output

def readsStandardInput : Command → Bool
  | .generate .. => false
  | command => command.input?.isNone

end Command

end YamlTypes
