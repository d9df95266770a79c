import YamlTypes.Text.Utf8
import YamlTypes.Yaml.Event
import YamlTypes.Yaml.Scalar
import YamlTypes.Yaml.Token.Lexer

/-!
From events to the node of a document.

Every anchored node gets a number, the count of the different names before it,
and an alias stands for the last node that got the number its name has last
been given. Names are mostly given once, and then an alias stands for the node
of its name.

A node nests at most 128 collections, aliases included, and a document may use
its aliases at most a hundred times as often as it has events.
-/

set_option autoImplicit false

namespace YamlTypes.Yaml

def coreTag (name : String) : List Char := "tag:yaml.org,2002:".toList ++ name.toList

def Tag.ofBytes (bytes : List UInt8) : Tag :=
  match Text.Utf8.decode bytes with
  | .error _ => if bytes.head? = some 0x21 then .unreadable else .other
  | .ok text =>
    match text with
    | ['!'] => .application "!"
    | '!' :: name => .application (String.ofList name)
    | _ =>
      if text = coreTag "null" then .null
      else if text = coreTag "bool" then .bool
      else if text = coreTag "int" then .int
      else if text = coreTag "float" then .float
      else .other

/-- An event with its anchor or alias as a number and its tag understood. -/
inductive LinkedEvent where
  | alias (id : Nat)
  | scalar (anchor : Option Nat) (tag : Option Tag) (plain : Bool) (text : List Char)
  | sequenceStart (anchor : Option Nat) (tag : Option Tag)
  | sequenceEnd
  | mappingStart (anchor : Option Nat) (tag : Option Tag)
  | mappingEnd
  deriving DecidableEq, Repr

namespace LinkedEvent

structure Names where
  numbers : List (List Char × Nat) := []
  count : Nat := 0
  deriving Repr

/-- The number that a name is given, and the names after that. -/
def Names.give (names : Names) (anchor : Option (List Char)) : Option Nat × Names :=
  match anchor with
  | none => (none, names)
  | some name =>
    let known := (names.numbers.lookup name).isSome
    (some names.count,
      ⟨(name, names.count) :: names.numbers, if known then names.count else names.count + 1⟩)

/-- Events with numbers for names. An alias must follow an anchor of its name. -/
def link? (names : Names) : List Event → Option (List LinkedEvent)
  | [] => some []
  | .alias name :: rest => do
    let id ← names.numbers.lookup name
    some (.alias id :: (← link? names rest))
  | .scalar properties plain text :: rest => do
    let (id, names) := names.give properties.anchor
    some (.scalar id (properties.tag.map Tag.ofBytes) plain text :: (← link? names rest))
  | .sequenceStart properties :: rest => do
    let (id, names) := names.give properties.anchor
    some (.sequenceStart id (properties.tag.map Tag.ofBytes) :: (← link? names rest))
  | .mappingStart properties :: rest => do
    let (id, names) := names.give properties.anchor
    some (.mappingStart id (properties.tag.map Tag.ofBytes) :: (← link? names rest))
  | .sequenceEnd :: rest => do some (.sequenceEnd :: (← link? names rest))
  | .mappingEnd :: rest => do some (.mappingEnd :: (← link? names rest))

def anchor? : LinkedEvent → Option Nat
  | .alias _ => none
  | .scalar id .. => id
  | .sequenceStart id _ => id
  | .sequenceEnd => none
  | .mappingStart id _ => id
  | .mappingEnd => none

/-- The anchored events by number, each with all that follows it, the last one first. -/
def targets : List (Nat × List LinkedEvent) → List LinkedEvent → List (Nat × List LinkedEvent)
  | found, [] => found
  | found, event :: rest =>
    match event.anchor? with
    | some id => targets ((id, event :: rest) :: found) rest
    | none => targets found rest

end LinkedEvent

namespace Node

/-- A node, the events after it, and how many more aliases may be used. -/
abbrev Read := Option (Node × List LinkedEvent × Nat)

def underTag (tag : Option Tag) (content : Node) : Node :=
  match tag with
  | some (.application name) => .tagged name content
  | _ => content

/-- The items of a sequence up to its end. Each takes an event, so the number of events bounds
them. -/
def readItems (read : List LinkedEvent → Nat → Read) : Nat → List LinkedEvent → Nat →
    Option (List Node × List LinkedEvent × Nat)
  | _, .sequenceEnd :: rest, uses => some ([], rest, uses)
  | 0, _, _ => none
  | bound + 1, events, uses => do
    let (item, events, uses) ← read events uses
    let (items, events, uses) ← readItems read bound events uses
    some (item :: items, events, uses)

/-- The entries of a mapping up to its end, after some others; no key may come twice. -/
def readEntries (read : List LinkedEvent → Nat → Read) : Nat → List (Node × Node) →
    List LinkedEvent → Nat → Option (List (Node × Node) × List LinkedEvent × Nat)
  | _, entries, .mappingEnd :: rest, uses => some (entries.reverse, rest, uses)
  | 0, _, _, _ => none
  | bound + 1, entries, events, uses => do
    let (key, events, uses) ← read events uses
    if hasKey key entries then none
    else
      let (value, events, uses) ← read events uses
      readEntries read bound ((key, value) :: entries) events uses

/-- The node that begins with an event that is no alias. `inner` reads nodes one level further in,
if there may be any. -/
def readAt (inner : Option (List LinkedEvent → Nat → Read)) (events : List LinkedEvent)
    (uses : Nat) : Read :=
  match events with
  | .scalar _ tag plain text :: rest => do
    some (underTag tag (← Scalar.resolve? tag plain text), rest, uses)
  | .sequenceStart _ tag :: rest => do
    let (items, rest, uses) ← readItems (← inner) rest.length rest uses
    some (underTag tag (.sequence items), rest, uses)
  | .mappingStart _ tag :: rest => do
    let (entries, rest, uses) ← readEntries (← inner) rest.length [] rest uses
    some (underTag tag (.mapping entries), rest, uses)
  | _ => none

/-- The node that begins with the first event, reading through aliases. -/
def readThrough (targets : List (Nat × List LinkedEvent))
    (inner : Option (List LinkedEvent → Nat → Read)) : List LinkedEvent → Nat → Read
  | .alias _ :: _, 0 => none
  | .alias id :: rest, uses + 1 => do
    let (node, _, uses) ← readAt inner (← targets.lookup id) uses
    some (node, rest, uses)
  | events, uses => readAt inner events uses

def read (targets : List (Nat × List LinkedEvent)) : Nat → List LinkedEvent → Nat → Read
  | 0 => readThrough targets none
  | depth + 1 => readThrough targets (some (read targets depth))

def maxDepth : Nat := 128

def aliasUses : Nat := 100

/-- The node that some events are, with an empty document as null. -/
def ofEvents? (events : List Event) : Option Node :=
  if events.isEmpty then some .null
  else do
    let linked ← LinkedEvent.link? {} events
    match ← read (LinkedEvent.targets [] linked) maxDepth linked (aliasUses * linked.length) with
    | (node, [], _) => some node
    | _ => none

def ofText? (text : List Char) : Option Node := do
  ofEvents? (← Event.ofTokens? (← tokens? text))

end Node

end YamlTypes.Yaml
