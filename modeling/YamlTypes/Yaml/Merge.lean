import YamlTypes.Yaml.Node

/-!
Merge keys.

The entry of a mapping whose key is the string `<<` names other mappings: one,
or a sequence of them. It is taken out, the last entry moving into its place,
and the entries of the named mappings are added at the end where their key is
not there yet. Nothing else can stand under a merge key.

Merging goes from the outside in. So the entries that come from a named mapping
are those it was written with, its own merge key among them as an ordinary one,
and only their values are merged afterwards. Keys are left as they are.
-/

set_option autoImplicit false

namespace YamlTypes.Yaml.Node

def isMergeKey : Node → Bool
  | .string s => s == "<<"
  | _ => false

/-- A key, and what merging makes of its value. It is asked for only where the entry is kept. -/
abbrev Pending := Node × (Unit → Option Node)

/-- What merging makes of a value, and the entries that the value names under a merge key. -/
structure Merging where
  merged : Unit → Option Node
  sources : Unit → Option (List Pending)

/-- The value of the merge key, and the entries without it, the last one in its place. -/
def takeMerge {α : Type} : List (Node × α) → Option α × List (Node × α)
  | [] => (none, [])
  | (key, x) :: rest =>
    if isMergeKey key then
      match rest.getLast? with
      | none => (some x, [])
      | some last => (some x, last :: rest.dropLast)
    else
      let (found, others) := takeMerge rest
      (found, (key, x) :: others)

/-- The entries, and after them those of a named mapping whose keys they lack. -/
def addMissing {α : Type} (entries : List (Node × α)) : List (Node × α) → List (Node × α)
  | [] => entries
  | (key, x) :: rest =>
    if entries.any fun entry => key.same entry.1 then addMissing entries rest
    else addMissing (entries ++ [(key, x)]) rest

/-- The entries with their values merged, if that succeeds for all of them. -/
def settle? : List Pending → Option (List (Node × Node))
  | [] => some []
  | (key, value) :: rest => do
    let value ← value ()
    some ((key, value) :: (← settle? rest))

def pending (entries : List (Node × Merging)) : List Pending :=
  entries.map fun (key, value) => (key, value.merged)

def applyMergeKey? (entries : List (Node × Merging)) : Option (List Pending) :=
  match takeMerge entries with
  | (none, _) => some (pending entries)
  | (some source, others) => do some (addMissing (pending others) (← source.sources ()))

mutual

def merge? : Node → Option Node
  | .sequence items => do some (.sequence (← mergeItems? items))
  | .mapping entries => do
    some (.mapping (← settle? (← applyMergeKey? (mergingEntries entries))))
  | .tagged tag content => do some (.tagged tag (← merge? content))
  | node => some node

def mergeItems? : List Node → Option (List Node)
  | [] => some []
  | item :: rest => do
    let item ← merge? item
    some (item :: (← mergeItems? rest))

def mergingEntries : List (Node × Node) → List (Node × Merging)
  | [] => []
  | (key, value) :: rest =>
    (key, ⟨fun _ => merge? value, fun _ => sources? value⟩) :: mergingEntries rest

def sources? : Node → Option (List Pending)
  | .mapping entries => some (pending (mergingEntries entries))
  | .sequence items => itemSources? items
  | _ => none

def itemSources? : List Node → Option (List Pending)
  | [] => some []
  | .mapping entries :: rest => do
    some (pending (mergingEntries entries) ++ (← itemSources? rest))
  | _ :: _ => none

end

end YamlTypes.Yaml.Node
