import YamlTypes.Yaml.Document

/-!
What holds of every mapping in a document.

A key is compared with those before it as it is read. So no mapping in the node
of a document has the same key twice, however deep it stands.
-/

set_option autoImplicit false

namespace YamlTypes.Yaml.Node

abbrev Entries := List (Node × Node)

/-- The entries of every mapping in a node have a property, also in keys and under tags. -/
inductive Everywhere (property : Entries → Prop) : Node → Prop
  | null : Everywhere property .null
  | bool (b : Bool) : Everywhere property (.bool b)
  | number (n : Number) : Everywhere property (.number n)
  | string (s : String) : Everywhere property (.string s)
  | sequence {items : List Node} (each : ∀ item ∈ items, Everywhere property item) :
      Everywhere property (.sequence items)
  | mapping {entries : Entries} (here : property entries)
      (keys : ∀ entry ∈ entries, Everywhere property entry.1)
      (values : ∀ entry ∈ entries, Everywhere property entry.2) :
      Everywhere property (.mapping entries)
  | tagged {tag : String} {content : Node} (inside : Everywhere property content) :
      Everywhere property (.tagged tag content)

section
variable {property : Entries → Prop}

@[simp] theorem everywhere_number (n : Number) : Everywhere property (.number n) := .number n

@[simp] theorem everywhere_string (s : String) : Everywhere property (.string s) := .string s

@[simp] theorem everywhere_sequence_iff {items : List Node} :
    Everywhere property (.sequence items) ↔ ∀ item ∈ items, Everywhere property item :=
  ⟨fun holds => by cases holds with | sequence each => exact each, .sequence⟩

@[simp] theorem everywhere_mapping_iff {entries : Entries} :
    Everywhere property (.mapping entries) ↔ property entries ∧
      (∀ entry ∈ entries, Everywhere property entry.1) ∧
        ∀ entry ∈ entries, Everywhere property entry.2 :=
  ⟨fun holds => by cases holds with | mapping here keys values => exact ⟨here, keys, values⟩,
    fun ⟨here, keys, values⟩ => .mapping here keys values⟩

@[simp] theorem everywhere_tagged_iff {tag : String} {content : Node} :
    Everywhere property (.tagged tag content) ↔ Everywhere property content :=
  ⟨fun holds => by cases holds with | tagged inside => exact inside, .tagged⟩

theorem Everywhere.here {entries : Entries} (holds : Everywhere property (.mapping entries)) :
    property entries := (everywhere_mapping_iff.mp holds).1

theorem Everywhere.value {entries : Entries} (holds : Everywhere property (.mapping entries))
    {entry : Node × Node} (member : entry ∈ entries) : Everywhere property entry.2 :=
  (everywhere_mapping_iff.mp holds).2.2 entry member

end

theorem Everywhere.and {property other : Entries → Prop} {node : Node}
    (holds : Everywhere property node) (also : Everywhere other node) :
    Everywhere (fun entries => property entries ∧ other entries) node := by
  induction holds with
  | null => exact .null
  | bool b => exact .bool b
  | number n => exact .number n
  | string s => exact .string s
  | sequence _ inductionHypothesis =>
      cases also with
      | sequence each =>
          exact .sequence fun item member => inductionHypothesis item member (each item member)
  | mapping here _ _ ofKeys ofValues =>
      cases also with
      | mapping alsoHere keys values =>
          exact .mapping ⟨here, alsoHere⟩
            (fun entry member => ofKeys entry member (keys entry member))
            fun entry member => ofValues entry member (values entry member)
  | tagged _ inductionHypothesis =>
      cases also with
      | tagged inside => exact .tagged (inductionHypothesis inside)

/-- A scalar without an application's tag. -/
def isScalar : Node → Bool
  | .null | .bool _ | .number _ | .string _ => true
  | .sequence _ | .mapping _ | .tagged .. => false

theorem Everywhere.of_isScalar {property : Entries → Prop} {node : Node}
    (scalar : node.isScalar = true) : Everywhere property node := by
  cases node with
  | null => exact .null
  | bool b => exact .bool b
  | number n => exact .number n
  | string s => exact .string s
  | sequence items => cases scalar
  | mapping entries => cases scalar
  | tagged tag content => cases scalar

theorem isScalar_of_plain? {text : List Char} {node : Node}
    (resolved : Scalar.plain? text = some node) : node.isScalar = true := by
  unfold Scalar.plain? at resolved
  dsimp only at resolved
  generalize tail : (if Scalar.isPaddedDigits text then _ else _ : Option Node) = number at resolved
  have isNumber : ∀ found, number = some found → found.isScalar = true := by
    rintro found rfl
    split at tail
    next => cases tail; rfl
    next => split at tail <;> cases tail <;> rfl
  split at resolved
  next => cases resolved; rfl
  next =>
    split at resolved
    next => cases resolved; rfl
    next =>
      split at resolved
      next => exact isNumber node resolved
      next =>
        split at resolved
        next => cases resolved; rfl
        next => cases resolved
        next => exact isNumber node resolved

theorem isScalar_of_resolve? {tag : Option Tag} {plain : Bool} {text : List Char} {node : Node}
    (resolved : Scalar.resolve? tag plain text = some node) : node.isScalar = true := by
  have untagged : ∀ node,
      (if plain then Scalar.plain? text else some (.string (String.ofList text))) = some node →
        node.isScalar = true := by
    intro node isNode
    split at isNode
    next => exact isScalar_of_plain? isNode
    next => cases isNode; rfl
  unfold Scalar.resolve? at resolved
  dsimp only at resolved
  split at resolved
  next => exact untagged node resolved
  next => exact untagged node resolved
  next => exact untagged node resolved
  next =>
    split at resolved
    next => cases resolved; rfl
    next => cases resolved
  next =>
    rcases Option.map_eq_some_iff.mp resolved with ⟨b, -, rfl⟩
    rfl
  next =>
    split at resolved
    next =>
      split at resolved
      next => cases resolved; rfl
      next => cases resolved
    next => cases resolved
  next =>
    rcases Option.map_eq_some_iff.mp resolved with ⟨x, -, rfl⟩
    rfl
  next => cases resolved; rfl

/-- No key is the same as one before it. -/
def DistinctKeys (entries : Entries) : Prop :=
  entries.Pairwise fun earlier later => later.1.same earlier.1 = false

/-- What is read has distinct keys everywhere. -/
def ReadsDistinct (read : List LinkedEvent → Nat → Read) : Prop :=
  ∀ {events uses node rest left}, read events uses = some (node, rest, left) →
    Everywhere DistinctKeys node

theorem Everywhere.underTag {property : Entries → Prop} {content : Node}
    (inside : Everywhere property content) (tag : Option Tag) :
    Everywhere property (underTag tag content) := by
  unfold Node.underTag
  split
  next => exact .tagged inside
  next => exact inside

theorem everywhere_of_readItems {read : List LinkedEvent → Nat → Read} (reads : ReadsDistinct read)
    {bound : Nat} {events rest : List LinkedEvent} {uses left : Nat} {items : List Node}
    (found : readItems read bound events uses = some (items, rest, left)) :
    ∀ item ∈ items, Everywhere DistinctKeys item := by
  fun_induction readItems read bound events uses generalizing items with
  | case1 bound rest uses =>
      cases found
      exact nofun
  | case2 => cases found
  | case3 events uses bound _ inductionHypothesis =>
      simp only [Option.bind_eq_bind, Option.bind_eq_some_iff, Prod.exists, Option.some.injEq,
        Prod.mk.injEq] at found
      rcases found with ⟨first, middle, used, isFirst, others, _, _, areOthers, rfl, rfl, rfl⟩
      rw [List.forall_mem_cons]
      exact ⟨reads isFirst, inductionHypothesis middle used areOthers⟩

/-- What a mapping has read so far, the last entry first. -/
structure ReadSoFar (entries : Entries) : Prop where
  distinct : entries.Pairwise fun later earlier => later.1.same earlier.1 = false
  keys : ∀ entry ∈ entries, Everywhere DistinctKeys entry.1
  values : ∀ entry ∈ entries, Everywhere DistinctKeys entry.2

theorem ReadSoFar.everywhere {entries : Entries} (soFar : ReadSoFar entries) :
    Everywhere DistinctKeys (.mapping entries.reverse) :=
  .mapping (List.pairwise_reverse.mpr soFar.distinct)
    (fun entry member => soFar.keys entry (List.mem_reverse.mp member))
    fun entry member => soFar.values entry (List.mem_reverse.mp member)

theorem ReadSoFar.cons {entries : Entries} (soFar : ReadSoFar entries) {key value : Node}
    (new : hasKey key entries = false) (inKey : Everywhere DistinctKeys key)
    (inValue : Everywhere DistinctKeys value) : ReadSoFar ((key, value) :: entries) where
  distinct := by
    unfold hasKey at new
    rw [List.any_eq_false] at new
    exact List.pairwise_cons.mpr
      ⟨fun entry member => Bool.eq_false_iff.mpr (new entry member), soFar.distinct⟩
  keys := List.forall_mem_cons.mpr ⟨inKey, soFar.keys⟩
  values := List.forall_mem_cons.mpr ⟨inValue, soFar.values⟩

theorem everywhere_of_readEntries {read : List LinkedEvent → Nat → Read}
    (reads : ReadsDistinct read) {bound : Nat} {before entries : Entries}
    {events rest : List LinkedEvent} {uses left : Nat} (soFar : ReadSoFar before)
    (found : readEntries read bound before events uses = some (entries, rest, left)) :
    Everywhere DistinctKeys (.mapping entries) := by
  fun_induction readEntries read bound before events uses with
  | case1 bound before rest uses =>
      cases found
      exact soFar.everywhere
  | case2 => cases found
  | case3 before events uses bound _ inductionHypothesis =>
      simp only [Option.bind_eq_bind, Option.bind_eq_some_iff, Prod.exists] at found
      rcases found with ⟨key, behindKey, usedByKey, isKey, found⟩
      split at found
      next => cases found
      next new =>
        simp only [Option.bind_eq_some_iff, Prod.exists] at found
        rcases found with ⟨value, middle, used, isValue, found⟩
        exact inductionHypothesis key value middle used
          (soFar.cons (Bool.eq_false_iff.mpr new) (reads isKey) (reads isValue)) found

theorem readsDistinct_readAt {inner : Option (List LinkedEvent → Nat → Read)}
    (reads : ∀ read ∈ inner, ReadsDistinct read) : ReadsDistinct (readAt inner) := by
  intro events uses node rest left found
  unfold readAt at found
  split at found
  next =>
    simp only [Option.bind_eq_bind, Option.bind_eq_some_iff, Option.some.injEq] at found
    rcases found with ⟨scalar, resolved, built⟩
    cases built
    exact (Everywhere.of_isScalar (isScalar_of_resolve? resolved)).underTag _
  next =>
    simp only [Option.bind_eq_bind, Option.bind_eq_some_iff, Prod.exists, Option.some.injEq]
      at found
    rcases found with ⟨read, within, items, _, _, areItems, built⟩
    cases built
    exact (Everywhere.sequence (everywhere_of_readItems (reads read within) areItems)).underTag _
  next =>
    simp only [Option.bind_eq_bind, Option.bind_eq_some_iff, Prod.exists, Option.some.injEq]
      at found
    rcases found with ⟨read, within, entries, _, _, areEntries, built⟩
    cases built
    exact (everywhere_of_readEntries (reads read within) ⟨.nil, nofun, nofun⟩ areEntries).underTag _
  next => cases found

theorem readsDistinct_readThrough {targets : List (Nat × List LinkedEvent)}
    {inner : Option (List LinkedEvent → Nat → Read)}
    (reads : ∀ read ∈ inner, ReadsDistinct read) : ReadsDistinct (readThrough targets inner) := by
  intro events uses node rest left found
  unfold readThrough at found
  split at found
  next => cases found
  next =>
    simp only [Option.bind_eq_bind, Option.bind_eq_some_iff, Prod.exists, Option.some.injEq]
      at found
    rcases found with ⟨_, _, target, _, _, isTarget, built⟩
    cases built
    exact readsDistinct_readAt reads isTarget
  next => exact readsDistinct_readAt reads found

theorem readsDistinct_read (targets : List (Nat × List LinkedEvent)) (depth : Nat) :
    ReadsDistinct (read targets depth) := by
  induction depth with
  | zero =>
      refine readsDistinct_readThrough fun inner isInner => ?_
      cases isInner
  | succ depth inductionHypothesis =>
      refine readsDistinct_readThrough fun inner isInner => ?_
      cases isInner
      exact inductionHypothesis

theorem distinctKeys_of_ofText? {text : List Char} {node : Node}
    (parsed : ofText? text = some node) : Everywhere DistinctKeys node := by
  simp only [ofText?, Option.bind_eq_bind, Option.bind_eq_some_iff] at parsed
  rcases parsed with ⟨tokens, -, events, -, parsed⟩
  unfold ofEvents? at parsed
  split at parsed
  next =>
    cases parsed
    exact .null
  next =>
    simp only [Option.bind_eq_bind, Option.bind_eq_some_iff] at parsed
    rcases parsed with ⟨linked, -, ⟨found, rest, left⟩, isRead, parsed⟩
    split at parsed
    next same =>
      cases same
      cases parsed
      exact readsDistinct_read _ _ isRead
    next => cases parsed

end YamlTypes.Yaml.Node
