import YamlTypes.Declaration
import YamlTypes.ModuleBody
import YamlTypes.Proofs.Yaml.MergedFields

/-!
What a declaration does not tell.

A veil is laid over a document: it hides what stands beneath an application's tag,
and of every scalar outside keys what the veil chooses. Merging looks at keys only,
so it does the same under the veil. Hence documents that look alike under a veil
have data that differ only in what it hides. Types tell no more of a scalar than
its kind, and nothing but `any` of a tagged node.
-/

set_option autoImplicit false

namespace YamlTypes

open Yaml (Node isStandardTag)

/-- What is still seen of a scalar: again a scalar. -/
structure Veil where
  scalar : Node → Node
  isScalar : ∀ node : Node, node.isScalar = true → (scalar node).isScalar = true

namespace Veil

variable (veil : Veil)

mutual

/-- A node under a veil. Keys are seen as they are. -/
def cover : Node → Node
  | .sequence items => .sequence (coverItems items)
  | .mapping entries => .mapping (coverEntries entries)
  | .tagged tag content => .tagged tag (if isStandardTag tag then cover content else .null)
  | node => veil.scalar node

def coverItems : List Node → List Node
  | [] => []
  | item :: rest => cover item :: coverItems rest

def coverEntries : List (Node × Node) → List (Node × Node)
  | [] => []
  | (key, value) :: rest => (key, cover value) :: coverEntries rest

end

/-- Of a scalar only its kind is seen. -/
def kinds : Veil where
  scalar
    | .bool _ => .bool false
    | .number _ => .number (.int 0)
    | .string _ => .string ""
    | node => node
  isScalar node scalar := by
    cases node with
    | null | bool _ | number _ | string _ => rfl
    | sequence _ | mapping _ | tagged _ _ => cases scalar

/-- Scalars are seen as they are. -/
def scalars : Veil := ⟨id, fun _ scalar => scalar⟩

theorem coverItems_eq_map (items : List Node) : veil.coverItems items = items.map veil.cover := by
  induction items with
  | nil => simp only [coverItems, List.map_nil]
  | cons item rest inductionHypothesis =>
      simp only [coverItems, inductionHypothesis, List.map_cons]

theorem coverEntries_eq_map (entries : List (Node × Node)) :
    veil.coverEntries entries = entries.map fun entry => (entry.1, veil.cover entry.2) := by
  induction entries with
  | nil => simp only [coverEntries, List.map_nil]
  | cons entry rest inductionHypothesis =>
      simp only [coverEntries, inductionHypothesis, List.map_cons]

theorem cover_of_isScalar {node : Node} (scalar : node.isScalar = true) :
    veil.cover node = veil.scalar node := by
  cases node with
  | null | bool _ | number _ | string _ => simp only [cover]
  | sequence _ | mapping _ | tagged _ _ => cases scalar

theorem isScalar_cover (node : Node) : (veil.cover node).isScalar = node.isScalar := by
  by_cases scalar : node.isScalar = true
  · rw [veil.cover_of_isScalar scalar, veil.isScalar node scalar, scalar]
  · cases node with
    | null | bool _ | number _ | string _ => exact absurd rfl scalar
    | sequence _ | mapping _ | tagged _ _ => simp only [cover, Node.isScalar]

/-- The entries of a node that is a mapping. -/
def entries? : Node → Option Node.Entries
  | .mapping entries => some entries
  | _ => none

theorem entries?_of_isScalar {node : Node} (scalar : node.isScalar = true) :
    entries? node = none := by
  cases node with
  | null | bool _ | number _ | string _ => rfl
  | sequence _ | mapping _ | tagged _ _ => cases scalar

theorem entries?_cover (node : Node) :
    entries? (veil.cover node) = (entries? node).map veil.coverEntries := by
  by_cases scalar : node.isScalar = true
  · have alsoScalar : (veil.cover node).isScalar = true := by rw [isScalar_cover, scalar]
    rw [entries?_of_isScalar scalar, entries?_of_isScalar alsoScalar, Option.map_none]
  · cases node with
    | null | bool _ | number _ | string _ => exact absurd rfl scalar
    | mapping entries => simp only [cover, entries?, Option.map_some]
    | sequence items => simp only [cover, entries?, Option.map_none]
    | tagged tag content => simp only [cover, entries?, Option.map_none]

theorem named_sequence (items : List Node) :
    (Node.sequence items).named = items.filterMap entries? := by
  unfold Node.named
  refine congrArg (List.filterMap · items) (funext fun item => ?_)
  cases item <;> rfl

theorem named_of_isScalar {node : Node} (scalar : node.isScalar = true) : node.named = [] := by
  cases node with
  | null | bool _ | number _ | string _ => rfl
  | sequence _ | mapping _ | tagged _ _ => cases scalar

theorem named_cover (node : Node) :
    (veil.cover node).named = node.named.map veil.coverEntries := by
  by_cases scalar : node.isScalar = true
  · have alsoScalar : (veil.cover node).isScalar = true := by rw [isScalar_cover, scalar]
    rw [named_of_isScalar scalar, named_of_isScalar alsoScalar, List.map_nil]
  · cases node with
    | null | bool _ | number _ | string _ => exact absurd rfl scalar
    | mapping entries => simp only [cover, Node.named, List.map_singleton]
    | sequence items =>
        rw [cover, named_sequence, named_sequence, coverItems_eq_map, List.filterMap_map,
          List.map_filterMap]
        exact List.filterMap_congr fun item _ => veil.entries?_cover item
    | tagged tag content => simp only [cover, Node.named, List.map_nil]

theorem sources_coverEntries (entries : Node.Entries) :
    Node.sources (veil.coverEntries entries) = (Node.sources entries).map veil.coverEntries := by
  have found : ((veil.coverEntries entries).find? fun entry => Node.isMergeKey entry.1) =
      (entries.find? fun entry => Node.isMergeKey entry.1).map
        fun entry => (entry.1, veil.cover entry.2) := by
    rw [coverEntries_eq_map, List.find?_map]
    rfl
  unfold Node.sources
  rw [found]
  cases entries.find? fun entry => Node.isMergeKey entry.1 with
  | none => rfl
  | some entry => exact veil.named_cover entry.2

theorem gathered_coverEntries (entries : Node.Entries) :
    Node.gathered (veil.coverEntries entries) = veil.coverEntries (Node.gathered entries) := by
  have incoming : (Node.sources (veil.coverEntries entries)).flatten =
      veil.coverEntries (Node.sources entries).flatten := by
    rw [sources_coverEntries, coverEntries_eq_map, List.map_flatten]
    apply congrArg List.flatten
    exact List.map_congr_left fun source _ => veil.coverEntries_eq_map source
  have kept : (Node.takeMerge (veil.coverEntries entries)).2 =
      veil.coverEntries (Node.takeMerge entries).2 := by
    rw [coverEntries_eq_map, Node.takeMerge_map, coverEntries_eq_map]
  rw [Node.gathered, ← Node.addMissing_eq, kept, incoming, coverEntries_eq_map,
    coverEntries_eq_map veil (Node.sources entries).flatten, Node.addMissing_map,
    Node.addMissing_eq, coverEntries_eq_map]
  rfl

/-- A relation between data that does not ask for what a veil hides. -/
structure Admits (R : Value → Value → Prop) : Prop where
  scalar : ∀ {first second : Node} {value other : Value}, first.isScalar = true →
    second.isScalar = true → veil.scalar first = veil.scalar second →
    first.data? = some value → second.data? = some other → R value other
  array : ∀ {items others : List Value}, List.Forall₂ R items others →
    R (.array items) (.array others)
  object : ∀ {fields others : List (String × Value)},
    List.Forall₂ (Fields.Corresponds R) fields others → R (.object fields) (.object others)
  tagged : ∀ tag, R (.tagged tag) (.tagged tag)

theorem mem_of_mem_takeMerge {entries : Node.Entries} {entry : Node × Node}
    (member : entry ∈ (Node.takeMerge entries).2) : entry ∈ entries := by
  induction entries with
  | nil => cases member
  | cons first rest inductionHypothesis =>
      obtain ⟨key, value⟩ := first
      rw [Node.takeMerge] at member
      by_cases isMerge : Node.isMergeKey key = true
      · rw [if_pos isMerge] at member
        apply List.mem_cons_of_mem
        cases last : rest.getLast? with
        | none =>
            rw [last] at member
            cases member
        | some final =>
            rw [last] at member
            rcases List.mem_cons.mp member with rfl | inFront
            · exact List.mem_of_getLast? last
            · exact List.dropLast_subset _ inFront
      · rw [if_neg isMerge] at member
        rcases List.mem_cons.mp member with rfl | later
        · exact List.mem_cons_self
        · exact List.mem_cons_of_mem _ (inductionHypothesis later)

theorem sizeOf_value_lt {entries : Node.Entries} {entry : Node × Node} (member : entry ∈ entries) :
    sizeOf entry.2 < sizeOf entries := by
  have smaller := List.sizeOf_lt_of_mem member
  obtain ⟨key, value⟩ := entry
  simp only [Prod.mk.sizeOf_spec] at smaller ⊢
  omega

theorem sizeOf_named_le {node : Node} {source : Node.Entries} (isSource : source ∈ node.named) :
    sizeOf source ≤ sizeOf node := by
  cases node with
  | mapping entries =>
      rw [Node.named, List.mem_singleton] at isSource
      simp only [isSource, Node.mapping.sizeOf_spec]
      omega
  | sequence items =>
      rcases List.mem_filterMap.mp isSource with ⟨item, member, isMapping⟩
      have smaller := List.sizeOf_lt_of_mem member
      cases item with
      | mapping entries =>
          cases isMapping
          simp only [Node.mapping.sizeOf_spec, Node.sequence.sizeOf_spec] at smaller ⊢
          omega
      | null | bool _ | number _ | string _ | sequence _ | tagged _ _ => cases isMapping
  | null | bool _ | number _ | string _ | tagged _ _ => cases isSource

/-- What merging gathers for a mapping is smaller than the mapping, wherever it comes from. -/
theorem sizeOf_gathered_lt {entries : Node.Entries} {entry : Node × Node}
    (member : entry ∈ Node.gathered entries) : sizeOf entry.2 < sizeOf entries := by
  rcases List.mem_append.mp member with kept | isMissing
  · exact sizeOf_value_lt (mem_of_mem_takeMerge kept)
  · rcases List.mem_flatten.mp (Node.mem_of_mem_missing isMissing) with ⟨source, isSource, inSource⟩
    rcases Node.exists_mem_of_mem_sources isSource with ⟨carrier, isCarrier, isNamed⟩
    calc sizeOf entry.2 < sizeOf source := sizeOf_value_lt inSource
      _ ≤ sizeOf carrier.2 := sizeOf_named_le isNamed
      _ ≤ sizeOf entries := Nat.le_of_lt (sizeOf_value_lt isCarrier)

theorem forall₂_of_map_eq {α β γ : Type} {gives : α → β → Prop} {R : β → β → Prop} {view : α → γ}
    {first second : List α} {results others : List β} (same : first.map view = second.map view)
    (given : List.Forall₂ gives first results) (alsoGiven : List.Forall₂ gives second others)
    (each : ∀ x ∈ first, ∀ y, view x = view y → ∀ a b, gives x a → gives y b → R a b) :
    List.Forall₂ R results others := by
  induction given generalizing second others with
  | nil =>
      rw [List.map_nil, eq_comm, List.map_eq_nil_iff] at same
      subst same
      cases alsoGiven
      exact .nil
  | @cons x a rest results gives _ inductionHypothesis =>
      cases alsoGiven with
      | nil => cases same
      | @cons y b more others alsoGives alsoRest =>
          obtain ⟨sameHere, sameLater⟩ := List.cons.inj same
          refine .cons (each x List.mem_cons_self y sameHere a b gives alsoGives) ?_
          exact inductionHypothesis sameLater alsoRest fun x member =>
            each x (List.mem_cons_of_mem _ member)

namespace Admits

variable {veil} {R : Value → Value → Prop} {value other : Value}

theorem of_items (admits : veil.Admits R) {items others : List Node}
    (alike : veil.cover (.sequence items) = veil.cover (.sequence others))
    (isData : (Node.sequence items).data? = some value)
    (isOther : (Node.sequence others).data? = some other)
    (each : ∀ item ∈ items, ∀ otherItem, veil.cover item = veil.cover otherItem →
      ∀ data otherData, item.data? = some data → otherItem.data? = some otherData →
        R data otherData) : R value other := by
  simp only [cover, coverItems_eq_map, Node.sequence.injEq] at alike
  rcases Node.exists_items_of_data? isData with ⟨values, rfl, given⟩
  rcases Node.exists_items_of_data? isOther with ⟨otherValues, rfl, otherGiven⟩
  apply admits.array
  exact forall₂_of_map_eq alike given otherGiven each

theorem of_entries (admits : veil.Admits R) {entries others : Node.Entries}
    (alike : veil.cover (.mapping entries) = veil.cover (.mapping others))
    (isData : (Node.mapping entries).data? = some value)
    (isOther : (Node.mapping others).data? = some other)
    (each : ∀ entry ∈ Node.gathered entries, ∀ otherValue,
      veil.cover entry.2 = veil.cover otherValue →
        ∀ data otherData, entry.2.data? = some data → otherValue.data? = some otherData →
          R data otherData) : R value other := by
  simp only [cover, Node.mapping.injEq] at alike
  rcases Node.exists_fields_of_data? isData with ⟨fields, rfl, given⟩
  rcases Node.exists_fields_of_data? isOther with ⟨otherFields, rfl, otherGiven⟩
  have gathered := congrArg Node.gathered alike
  rw [gathered_coverEntries, gathered_coverEntries, coverEntries_eq_map, coverEntries_eq_map]
    at gathered
  apply admits.object
  apply Fields.forall₂_ofPairs
  apply forall₂_of_map_eq gathered given otherGiven
  intro entry member otherEntry alikeEntry field otherField gives otherGives
  obtain ⟨sameKey, alikeValue⟩ := Prod.mk.inj alikeEntry
  constructor
  · have name := gives.name
    rw [sameKey, otherGives.name] at name
    exact (Option.some.inj name).symm
  · exact each entry member otherEntry.2 alikeValue _ _ gives.data otherGives.data

theorem related (admits : veil.Admits R) {first second : Node}
    (alike : veil.cover first = veil.cover second) (isData : first.data? = some value)
    (isOther : second.data? = some other) : R value other := by
  -- A gathered entry may stand deeper than in the mapping itself, so the induction is on the size.
  induction size : sizeOf first using Nat.strongRecOn generalizing first second value other with
  | ind _ inductionHypothesis =>
      subst size
      have kind := congrArg Node.isScalar alike
      rw [isScalar_cover, isScalar_cover] at kind
      cases first with
      | null | bool _ | number _ | string _ =>
          have scalar : second.isScalar = true := kind.symm
          rw [veil.cover_of_isScalar scalar, veil.cover_of_isScalar rfl] at alike
          exact admits.scalar rfl scalar alike isData isOther
      | sequence items =>
          cases second with
          | sequence others =>
              apply admits.of_items alike isData isOther
              intro item member otherItem alikeItem data otherData itemData otherItemData
              have smaller := List.sizeOf_lt_of_mem member
              refine inductionHypothesis _ ?_ alikeItem itemData otherItemData rfl
              simp only [Node.sequence.sizeOf_spec]
              omega
          | null | bool _ | number _ | string _ => cases kind
          | mapping _ | tagged _ _ => simp only [cover, reduceCtorEq] at alike
      | mapping entries =>
          cases second with
          | mapping others =>
              apply admits.of_entries alike isData isOther
              intro entry member otherValue alikeValue data otherData entryData otherEntryData
              have smaller := sizeOf_gathered_lt member
              refine inductionHypothesis _ ?_ alikeValue entryData otherEntryData rfl
              simp only [Node.mapping.sizeOf_spec]
              omega
          | null | bool _ | number _ | string _ => cases kind
          | sequence _ | tagged _ _ => simp only [cover, reduceCtorEq] at alike
      | tagged tag content =>
          cases second with
          | tagged otherTag otherContent =>
              simp only [cover, Node.tagged.injEq] at alike
              obtain ⟨rfl, alike⟩ := alike
              by_cases standard : isStandardTag tag = true
              · rw [if_pos standard, if_pos standard] at alike
                rw [Node.data?_of_isStandardTag standard] at isData isOther
                refine inductionHypothesis _ ?_ alike isData isOther rfl
                simp only [Node.tagged.sizeOf_spec]
                omega
              · rw [Node.eq_tagged_of_data? standard isData,
                  Node.eq_tagged_of_data? standard isOther]
                exact admits.tagged _
          | null | bool _ | number _ | string _ => cases kind
          | sequence _ | mapping _ => simp only [cover, reduceCtorEq] at alike

end Admits

/-- Types tell the kinds of scalars only. -/
theorem kinds_admits : kinds.Admits fun value other =>
    ∀ indent, TypeExpr.infer indent value = TypeExpr.infer indent other where
  scalar {first second value other} scalar alsoScalar alike isData isOther := by
    cases first <;> cases scalar <;> cases second <;> cases alsoScalar <;> cases alike <;>
      cases isData <;> cases isOther <;> intro indent <;> simp only [TypeExpr.infer]
  array {items others} given := by
    intro indent
    have types : items.map (TypeExpr.infer indent) = others.map (TypeExpr.infer indent) := by
      induction given with
      | nil => rfl
      | cons alike _ inductionHypothesis =>
          rw [List.map_cons, List.map_cons, alike indent, inductionHypothesis]
    simp only [TypeExpr.infer, TypeExpr.inferItems_eq_map, types]
  object {fields others} given := by
    intro indent
    have types : ∀ indent,
        TypeExpr.inferFields indent fields = TypeExpr.inferFields indent others := by
      intro indent
      induction given with
      | nil => rfl
      | @cons field other _ _ alike _ inductionHypothesis =>
          simp only [TypeExpr.inferFields, alike.1, alike.2 indent, inductionHypothesis]
    simp only [TypeExpr.infer, types]
  tagged _ _ := rfl

/-- What stands beneath tags is no part of the data. -/
theorem scalars_admits : scalars.Admits Eq where
  scalar {first second value other} _ _ alike isData isOther := by
    obtain rfl : first = second := alike
    exact Option.some.inj (isData.symm.trans isOther)
  array {items others} given := by
    rw [List.forall₂_eq_eq_eq] at given
    rw [given]
  object {fields others} given := by
    have same : List.Forall₂ Eq fields others :=
      given.imp fun _ _ corresponds => Prod.ext corresponds.1 corresponds.2
    rw [List.forall₂_eq_eq_eq] at same
    rw [same]
  tagged _ := rfl

end Veil

namespace Declaration

/-- Documents that differ only in the contents of scalars of one kind outside keys, and in what
stands beneath application tags, have the same declaration. Those that differ only beneath tags have
the same data. -/
theorem hides_contents (first second : Node) (value other : Value)
    (isData : first.data? = some value) (isOther : second.data? = some other) :
    (Veil.kinds.cover first = Veil.kinds.cover second → contents value = contents other) ∧
    (Veil.scalars.cover first = Veil.scalars.cover second →
      value = other ∧ value.moduleBody = other.moduleBody) := by
  constructor
  · intro alike
    have sameType := Veil.kinds_admits.related alike isData isOther
    unfold contents Value.typeText
    rw [sameType ""]
  · intro alike
    have same := Veil.scalars_admits.related alike isData isOther
    exact ⟨same, congrArg Value.moduleBody same⟩

/-- A document with a password beneath a tag and a number that its merge source overlays. -/
def guardedText : List Char := "user: bob\nkey: !vault pass\n<<: {key: 7, on: true}\n".toList

def guarded (user : String) (beneath : Node) (number : Int) (on : Bool) : Node :=
  .mapping [(.string "user", .string user), (.string "key", .tagged "vault" beneath),
    (.string "<<", .mapping [(.string "key", .number (.int number)), (.string "on", .bool on)])]

theorem ofText?_guardedText :
    Node.ofText? guardedText = some (guarded "bob" (.string "pass") 7 true) := by
  have scanned : (Yaml.tokens? guardedText).bind Yaml.Event.ofTokens? =
      some [.mappingStart {}, Node.word "user", Node.word "bob", Node.word "key",
        .scalar ⟨none, some "!vault".toUTF8.data.toList⟩ true "pass".toList, Node.word "<<",
        .mappingStart {}, Node.word "key", Node.word "7", Node.word "on", Node.word "true",
        .mappingEnd, .mappingEnd] := by
    decide +kernel
  rw [Node.ofText?_of_events scanned]
  rfl

theorem hides_contents_guarded :
    Node.ofText? guardedText = some (guarded "bob" (.string "pass") 7 true) ∧
    (∃ value other, (guarded "bob" (.string "pass") 7 true).data? = some value ∧
      (guarded "eve" (.sequence []) 8 false).data? = some other ∧
      contents value = contents other) ∧
    ∃ value other, (guarded "bob" (.string "pass") 7 true).data? = some value ∧
      (guarded "bob" (.mapping []) 7 true).data? = some other ∧
      value = other ∧ value.moduleBody = other.moduleBody := by
  refine ⟨ofText?_guardedText, ⟨_, _, rfl, rfl, ?_⟩, _, _, rfl, rfl, ?_⟩
  · exact (hides_contents (guarded "bob" (.string "pass") 7 true)
      (guarded "eve" (.sequence []) 8 false) _ _ rfl rfl).1 rfl
  · exact (hides_contents (guarded "bob" (.string "pass") 7 true)
      (guarded "bob" (.mapping []) 7 true) _ _ rfl rfl).2 rfl

end Declaration

end YamlTypes
