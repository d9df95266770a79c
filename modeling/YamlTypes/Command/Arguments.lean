import YamlTypes.Command.Basic

/-!
Commands as argument words.

Options are written `--name`, `--name value` or `--name=value`, and those with a
letter also `-x`, `-xvalue`, `-x value` or `-x=value`; letters without a value
may share one hyphen. A value in a word of its own must not begin with a hyphen,
unless it is the hyphen alone. After `--` every word is an operand. Arguments
are read from left to right, and the first thing that is wrong, or an inquiry,
decides.
-/

set_option autoImplicit false

namespace YamlTypes.Command

inductive OptionKind where
  | flag
  /-- A flag that may be repeated. -/
  | counted
  | value
  /-- A value that is not empty. -/
  | directory
  | inquiry (inquiry : Inquiry)
  deriving DecidableEq, Repr

def OptionKind.takesValue : OptionKind → Bool
  | .value | .directory => true
  | _ => false

structure OptionForm where
  name : String
  letter : Option Char := none
  kind : OptionKind := .flag
  deriving DecidableEq, Repr

structure Form where
  options : List OptionForm
  /-- How many operands it takes at most. -/
  operands : Nat := 0
  deriving DecidableEq, Repr

/-- What has been given: options with their values, and operands, each in order. -/
structure Given where
  options : List (String × Option String) := []
  operands : List String := []
  deriving DecidableEq, Repr

namespace Given

def has (given : Given) (name : String) : Bool := (given.options.lookup name).isSome

def value? (given : Given) (name : String) : Option String := (given.options.lookup name).join

def path? (given : Given) (name : String) : Option Path := (given.value? name).map Path.mk

end Given

inductive Stop where
  | inquiry (inquiry : Inquiry)
  | misuse (cause : Misuse)
  deriving DecidableEq, Repr

/-- An option given, with a value if it takes one. -/
def addOption (given : Given) (option : OptionForm) (value : Option String) : Except Stop Given :=
  match option.kind with
  | .inquiry inquiry => .error (.inquiry inquiry)
  | kind =>
    if kind = .directory ∧ value = some "" then .error (.misuse (.emptyValue option.name))
    else if given.has option.name then
      if kind = .counted then .ok given else .error (.misuse (.repeated option.name))
    else .ok { given with options := given.options ++ [(option.name, value)] }

def addOperand (form : Form) (given : Given) (word : String) : Except Stop Given :=
  if given.operands.length < form.operands then
    if word = "" then .error (.misuse (.emptyValue "directory"))
    else .ok { given with operands := given.operands ++ [word] }
  else .error (.misuse (.unexpectedOperand word))

def isOption (word : String) : Bool :=
  match word.toList with
  | '-' :: _ :: _ => true
  | _ => false

/-- A value right after the letter of its option, where an equals sign may stand between. -/
def attached : List Char → String
  | '=' :: value => String.ofList value
  | value => String.ofList value

/-- The letters of one word. The result names an option that still waits for its value. -/
def readLetters (form : Form) : Given → List Char → Except Stop (Given × Option OptionForm)
  | given, [] => .ok (given, none)
  | given, c :: rest =>
    match form.options.find? fun option => option.letter == some c with
    | none => .error (.misuse (.unknownOption (String.ofList ['-', c])))
    | some option =>
      if option.kind.takesValue then
        if rest = [] then .ok (given, some option)
        else (addOption given option (some (attached rest))).map fun given => (given, none)
      else (addOption given option none).bind fun given => readLetters form given rest

/-- A word after two hyphens: a name, and a value after the first equals sign. -/
def readName (form : Form) (given : Given) (word : List Char) :
    Except Stop (Given × Option OptionForm) :=
  let name := String.ofList (word.takeWhile (· ≠ '='))
  let value := (word.dropWhile (· ≠ '=')).tail?.map String.ofList
  match form.options.find? fun option => option.name == name with
  | none => .error (.misuse (.unknownOption ("--" ++ name)))
  | some option =>
    if option.kind.takesValue ∧ value = none then .ok (given, some option)
    else if !option.kind.takesValue ∧ value ≠ none then
      .error (.misuse (.unexpectedValue option.name))
    else (addOption given option value).map fun given => (given, none)

/-- A word that begins like an option. -/
def readOption (form : Form) (given : Given) (word : String) :
    Except Stop (Given × Option OptionForm) :=
  match word.toList with
  | '-' :: '-' :: rest => readName form given rest
  | rest => readLetters form given rest.tail

/-- The words of a command. `waiting` is an option whose value is the next word. -/
def readWords (form : Form) : Given → Option OptionForm → List String → Except Stop Given
  | given, none, [] => .ok given
  | _, some option, [] => .error (.misuse (.missingValue option.name))
  | given, some option, word :: rest =>
    if isOption word then .error (.misuse (.missingValue option.name))
    else (addOption given option (some word)).bind fun given => readWords form given none rest
  | given, none, word :: rest =>
    if word = "--" then rest.foldlM (addOperand form) given
    else if isOption word then
      (readOption form given word).bind fun (given, waiting) => readWords form given waiting rest
    else (addOperand form given word).bind fun given => readWords form given none rest

def commonOptions : List OptionForm :=
  [⟨"verbose", some 'v', .counted⟩, ⟨"help", some 'h', .inquiry .help⟩]

def leadingForm : Form := ⟨commonOptions ++ [⟨"version", some 'V', .inquiry .version⟩], 0⟩

def resolveOptions : List OptionForm :=
  [⟨"root", none, .directory⟩, ⟨"lossy", none, .flag⟩, ⟨"no-cycle-check", none, .flag⟩]

def followOption : OptionForm := ⟨"follow-references", none, .flag⟩

def inputOption : OptionForm := ⟨"input", some 'i', .value⟩

def outputOption : OptionForm := ⟨"output", some 'o', .value⟩

def includeOptions (given : Given) : IncludeOptions where
  root := (given.path? "root").getD ⟨"."⟩
  settings :=
    { encoding := if given.has "lossy" then .utf8Lossy else .utf8
      cycles := if given.has "no-cycle-check" then .unchecked else .detect }

/-- What the commands may be given, and what they are then. -/
def forms : List (String × Form × (Given → Except Stop Command)) :=
  [("generate",
      ⟨[⟨"exclude", none, .value⟩, followOption] ++ resolveOptions ++ commonOptions, 1⟩,
      fun given => .ok (.generate ⟨given.operands.head?.getD "."⟩
        ((given.value? "exclude").getD "") (given.has "follow-references") (includeOptions given))),
   ("resolve",
      ⟨[inputOption, outputOption, ⟨"list", none, .flag⟩] ++ resolveOptions ++ commonOptions, 0⟩,
      fun given => .ok (.resolve (given.path? "input") (given.path? "output") (given.has "list")
        (includeOptions given))),
   ("infer",
      ⟨[inputOption, ⟨"declaration", none, .flag⟩, followOption] ++ resolveOptions ++
        commonOptions, 0⟩,
      fun given => .ok (.infer (given.path? "input") (given.has "declaration")
        (given.has "follow-references") (includeOptions given))),
   ("module",
      ⟨[inputOption, outputOption, ⟨"types", none, .flag⟩, followOption] ++ resolveOptions ++
        commonOptions, 0⟩,
      fun given =>
        if given.has "types" ∧ !given.has "input" then
          .error (.misuse (.needs "types" "input"))
        else .ok (.module (given.path? "input") (given.path? "output") (given.has "types")
          (given.has "follow-references") (includeOptions given)))]

def readHelp : List String → Except Stop Command
  | [] => .error (.inquiry .help)
  | [word] =>
    if word = "help" ∨ (forms.lookup word).isSome then .error (.inquiry .help)
    else .error (.misuse (.unknownCommand word))
  | word :: other :: _ =>
    if word = "help" ∨ (forms.lookup word).isSome then .error (.misuse (.unknownCommand other))
    else .error (.misuse (.unknownCommand word))

def read : List String → Except Stop Command
  | [] => .error (.misuse .missingCommand)
  | word :: rest =>
    match forms.lookup word with
    | some (form, build) => (readWords form {} none rest).bind build
    | none =>
      if word = "help" then readHelp rest
      else if word = "--" then
        match rest with
        | [] => .error (.misuse .missingCommand)
        | operand :: _ => .error (.misuse (.unexpectedOperand operand))
      else if isOption word then
        (readOption leadingForm {} word).bind fun _ => read rest
      else .error (.misuse (.unknownCommand word))

end YamlTypes.Command
