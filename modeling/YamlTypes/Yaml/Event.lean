import YamlTypes.Yaml.Token

/-!
The events of a YAML document: its nodes in the order in which they begin and
end, with their anchors and tags.

Events come from tokens by a machine that knows what may stand next and keeps
the states to return to. A node that is missing where one may be left out is an
empty plain scalar. A stream holds at most one document.
-/

set_option autoImplicit false

namespace YamlTypes.Yaml

/-- What stands before a node. The bytes of a tag are those of its URI. -/
structure Properties where
  anchor : Option (List Char) := none
  tag : Option (List UInt8) := none
  deriving DecidableEq, Repr

inductive Event where
  | alias (name : List Char)
  | scalar (properties : Properties) (plain : Bool) (text : List Char)
  | sequenceStart (properties : Properties)
  | sequenceEnd
  | mappingStart (properties : Properties)
  | mappingEnd
  deriving DecidableEq, Repr

namespace Event

def empty (properties : Properties) : Event := .scalar properties true []

abbrev Handles := List (List Char × List UInt8)

def defaultHandles : Handles :=
  [(['!'], "!".toUTF8.toList), (['!', '!'], "tag:yaml.org,2002:".toUTF8.toList)]

def tagBytes? (handles : Handles) (mark : TagMark) : Option (List UInt8) :=
  if mark.handle = [] then some mark.suffix
  else (handles.lookup mark.handle).map (· ++ mark.suffix)

/-- What may come next. `first` holds right after the start of a collection. -/
inductive State where
  | blockNode
  | documentContent
  | blockEntry (first : Bool)
  | indentlessEntry
  | blockKey (first : Bool)
  | blockValue
  | flowEntry (first : Bool)
  /-- The key of a mapping of one entry that stands in a flow sequence without braces. -/
  | pairKey
  | pairValue
  | pairEnd
  | flowKey (first : Bool)
  | flowValue
  /-- The value of a key that was not announced as one. -/
  | flowNoValue
  deriving DecidableEq, Repr

/-- The states to go on with, innermost first, and the tokens left. -/
structure Machine where
  states : List State
  tokens : List Token
  deriving Repr

abbrev Step := Option (Event × Machine)

def properties? (handles : Handles) : List Token → Option (Properties × List Token)
  | .anchor name :: .tag mark :: rest => do
    some (⟨some name, some (← tagBytes? handles mark)⟩, rest)
  | .tag mark :: .anchor name :: rest => do
    some (⟨some name, some (← tagBytes? handles mark)⟩, rest)
  | .anchor name :: rest => some (⟨some name, none⟩, rest)
  | .tag mark :: rest => do some (⟨none, some (← tagBytes? handles mark)⟩, rest)
  | rest => some ({}, rest)

/-- A node, after which the machine goes on with `states`. Only a block node may be a block
collection, and only after a key may a block sequence lack its own indentation. -/
def node? (handles : Handles) (block indentless : Bool) (states : List State) :
    List Token → Step
  | .alias name :: rest => some (.alias name, ⟨states, rest⟩)
  | tokens => do
    let (properties, rest) ← properties? handles tokens
    match rest with
    | .scalar plain text :: after =>
      some (.scalar properties plain text, ⟨states, after⟩)
    | .flowSequenceStart :: after =>
      some (.sequenceStart properties, ⟨.flowEntry true :: states, after⟩)
    | .flowMappingStart :: after =>
      some (.mappingStart properties, ⟨.flowKey true :: states, after⟩)
    | token :: after =>
      if indentless ∧ token = .blockEntry then
        some (.sequenceStart properties, ⟨.indentlessEntry :: states, rest⟩)
      else if block ∧ token = .blockSequenceStart then
        some (.sequenceStart properties, ⟨.blockEntry true :: states, after⟩)
      else if block ∧ token = .blockMappingStart then
        some (.mappingStart properties, ⟨.blockKey true :: states, after⟩)
      else if properties = {} then none
      else some (.empty properties, ⟨states, rest⟩)
    | [] => if properties = {} then none else some (.empty properties, ⟨states, rest⟩)

/-- A node, unless the next token is one that shows that it was left out. -/
def nodeBefore? (handles : Handles) (block indentless : Bool) (ends : List Token)
    (states : List State) (tokens : List Token) : Step :=
  if (tokens.head?.map ends.contains).getD false then
    some (.empty {}, ⟨states, tokens⟩)
  else node? handles block indentless states tokens

def flowItem? (handles : Handles) (states : List State) : List Token → Step
  | .key :: rest => some (.mappingStart {}, ⟨.pairKey :: .flowEntry false :: states, rest⟩)
  | .flowSequenceEnd :: rest => some (.sequenceEnd, ⟨states, rest⟩)
  | tokens => node? handles false false (.flowEntry false :: states) tokens

/-- An entry of a flow mapping, which is a key without a value if no key is announced. -/
def flowPair? (handles : Handles) (states : List State) : List Token → Step
  | .key :: rest =>
    nodeBefore? handles false false [.value, .flowEntry, .flowMappingEnd] (.flowValue :: states)
      rest
  | .flowMappingEnd :: rest => some (.mappingEnd, ⟨states, rest⟩)
  | tokens => node? handles false false (.flowNoValue :: states) tokens

/-- The next event of a machine in a state, which has been taken off the states. -/
def step? (handles : Handles) (states : List State) : State → List Token → Step
  | .blockNode, tokens => node? handles true false states tokens
  | .documentContent, [] => some (.empty {}, ⟨states, []⟩)
  | .documentContent, token :: rest =>
    match token with
    | .versionDirective .. | .tagDirective .. | .documentStart | .documentEnd =>
      some (.empty {}, ⟨states, token :: rest⟩)
    | _ => node? handles true false states (token :: rest)
  | .blockEntry _, .blockEntry :: rest =>
    nodeBefore? handles true false [.blockEntry, .blockEnd] (.blockEntry false :: states) rest
  | .blockEntry _, .blockEnd :: rest => some (.sequenceEnd, ⟨states, rest⟩)
  | .blockEntry _, _ => none
  | .indentlessEntry, .blockEntry :: rest =>
    nodeBefore? handles true false [.blockEntry, .key, .value, .blockEnd]
      (.indentlessEntry :: states) rest
  | .indentlessEntry, tokens => some (.sequenceEnd, ⟨states, tokens⟩)
  | .blockKey _, .key :: rest =>
    nodeBefore? handles true true [.key, .value, .blockEnd] (.blockValue :: states) rest
  | .blockKey _, .blockEnd :: rest => some (.mappingEnd, ⟨states, rest⟩)
  | .blockKey _, _ => none
  | .blockValue, .value :: rest =>
    nodeBefore? handles true true [.key, .value, .blockEnd] (.blockKey false :: states) rest
  | .blockValue, tokens => some (.empty {}, ⟨.blockKey false :: states, tokens⟩)
  | .flowEntry true, tokens => flowItem? handles states tokens
  | .flowEntry false, .flowEntry :: rest => flowItem? handles states rest
  | .flowEntry false, .flowSequenceEnd :: rest => some (.sequenceEnd, ⟨states, rest⟩)
  | .flowEntry false, _ => none
  | .pairKey, token :: rest =>
    -- The token that shows that the key was left out is taken with it.
    if [Token.value, .flowEntry, .flowSequenceEnd].contains token then
      some (.empty {}, ⟨.pairValue :: states, rest⟩)
    else node? handles false false (.pairValue :: states) (token :: rest)
  | .pairKey, [] => none
  | .pairValue, .value :: rest =>
    nodeBefore? handles false false [.flowEntry, .flowSequenceEnd] (.pairEnd :: states) rest
  | .pairValue, tokens => some (.empty {}, ⟨.pairEnd :: states, tokens⟩)
  | .pairEnd, tokens => some (.mappingEnd, ⟨states, tokens⟩)
  | .flowKey true, tokens => flowPair? handles states tokens
  | .flowKey false, .flowEntry :: rest => flowPair? handles states rest
  | .flowKey false, .flowMappingEnd :: rest => some (.mappingEnd, ⟨states, rest⟩)
  | .flowKey false, _ => none
  | .flowValue, .value :: rest =>
    nodeBefore? handles false false [.flowEntry, .flowMappingEnd] (.flowKey false :: states) rest
  | .flowValue, tokens => some (.empty {}, ⟨.flowKey false :: states, tokens⟩)
  | .flowNoValue, tokens => some (.empty {}, ⟨.flowKey false :: states, tokens⟩)

/-- The events of a machine until it has no state left, and the tokens after them. There are at
most four events for each token and two more. -/
def run? (handles : Handles) : Nat → Machine → Option (List Event × List Token)
  | _, ⟨[], tokens⟩ => some ([], tokens)
  | 0, _ => none
  | bound + 1, ⟨state :: states, tokens⟩ => do
    let (event, machine) ← step? handles states state tokens
    let (events, rest) ← run? handles bound machine
    some (event :: events, rest)

/-- The handles that the directives at the start of some tokens give, and the tokens after them.
There may be one version, of the first edition, and one meaning for each handle. -/
def directives? (version : Bool) (handles : Handles) : List Token → Option (Handles × List Token)
  | .versionDirective major minor :: rest =>
    if version ∨ major ≠ 1 ∨ (minor ≠ 1 ∧ minor ≠ 2) then none
    else directives? true handles rest
  | .tagDirective handle start :: rest =>
    if (handles.lookup handle).isSome then none
    else directives? version ((handle, start) :: handles) rest
  | tokens => some (handles, tokens)

def isDirective : Token → Bool
  | .versionDirective .. => true
  | .tagDirective .. => true
  | _ => false

/-- The events of the only document of a stream; none at all if the stream is empty. -/
def ofTokens? (tokens : List Token) : Option (List Event) :=
  let bound := 4 * tokens.length + 8
  if tokens.isEmpty then some []
  else do
    let (given, rest) ← directives? false [] tokens
    let handles := given ++ defaultHandles
    let (events, rest) ←
      match rest with
      | .documentStart :: content => run? handles bound ⟨[.documentContent], content⟩
      | content =>
        if (tokens.head?.map isDirective).getD false then none
        else run? handles bound ⟨[.blockNode], content⟩
    if rest.all (· == .documentEnd) then some events else none

end Event

end YamlTypes.Yaml
