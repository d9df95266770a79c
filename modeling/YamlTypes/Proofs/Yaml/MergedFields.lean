import YamlTypes.Proofs.Fields
import YamlTypes.Proofs.Value
import YamlTypes.Proofs.Yaml.MergeRule

/-!
The fields of decoded objects.

Every mapping whose data goes into that of a document becomes an object, and each
field of it holds the data of one entry. An entry of a merge source that is
written like one of the mapping, but is another key, counts as the later one.
-/

set_option autoImplicit false

namespace YamlTypes.Yaml.Node

def ScalarKeys (entries : Entries) : Prop := ∀ entry ∈ entries, entry.1.isScalar = true

inductive Part : Node → Node → Prop
  | self (node : Node) : Part node node
  | item {items : List Node} {item node : Node} :
      item ∈ items → Part item node → Part (.sequence items) node
  | content {tag : String} {content node : Node} :
      isStandardTag tag = true → Part content node → Part (.tagged tag content) node
  | entry {entries : Entries} {entry : Node × Node} {node : Node} :
      entry ∈ gathered entries → Part entry.2 node → Part (.mapping entries) node

/-- A field holds the data of the node that it comes from, and there is none without a node. -/
inductive Holds (fields : List (String × Value)) (name : String) : Option Node → Prop
  | field {node : Node} {data : Value} :
      node.data? = some data → Fields.get? name fields = some data → Holds fields name (some node)
  | absent : Fields.get? name fields = none → Holds fields name none

theorem mem_of_mem_kept {entries : Entries} {entry : Node × Node}
    (member : entry ∈ (takeMerge entries).2) : entry ∈ entries := by
  induction entries with
  | nil => cases member
  | cons first rest inductionHypothesis =>
      unfold takeMerge at member
      split at member
      next =>
        have moved : entry ∈ lastFirst rest := by
          unfold lastFirst
          cases last : rest.getLast? with
          | none => rwa [last] at member
          | some final => rwa [last] at member
        exact List.mem_cons_of_mem _ (mem_lastFirst.mp moved)
      next =>
        rcases List.mem_cons.mp member with rfl | later
        · exact List.mem_cons_self
        · exact List.mem_cons_of_mem _ (inductionHypothesis later)

theorem mem_gathered {entries : Entries} {entry : Node × Node} (member : entry ∈ gathered entries) :
    entry ∈ (takeMerge entries).2 ∨ ∃ source ∈ sources entries, entry ∈ source :=
  (List.mem_append.mp member).imp_right fun isMissing =>
    List.mem_flatten.mp (mem_of_mem_missing isMissing)

theorem Everywhere.gathered {property : Entries → Prop} {entries : Entries}
    (holds : Everywhere property (.mapping entries)) {entry : Node × Node}
    (member : entry ∈ gathered entries) : Everywhere property entry.2 := by
  rcases mem_gathered member with kept | ⟨source, isSource, inSource⟩
  · exact holds.value (mem_of_mem_kept kept)
  · exact (holds.source isSource).value inSource

theorem Everywhere.part {property : Entries → Prop} {root node : Node} (part : Part root node)
    (holds : Everywhere property root) : Everywhere property node := by
  induction part with
  | self node => exact holds
  | item member _ inductionHypothesis =>
      exact inductionHypothesis (everywhere_sequence_iff.mp holds _ member)
  | content _ _ inductionHypothesis =>
      exact inductionHypothesis (everywhere_tagged_iff.mp holds)
  | entry member _ inductionHypothesis => exact inductionHypothesis (holds.gathered member)

theorem sizeOf_lt_of_mem_gathered {entries : Entries} {entry : Node × Node}
    (member : entry ∈ gathered entries) : sizeOf entry.2 < sizeOf (mapping entries) := by
  have inEntries : sizeOf entry.2 < sizeOf entries := by
    rcases mem_gathered member with kept | ⟨source, isSource, inSource⟩
    · exact sizeOf_value_lt_of_mem (mem_of_mem_kept kept)
    · exact Nat.lt_trans (sizeOf_value_lt_of_mem inSource) (sizeOf_lt_of_mem_sources isSource)
  rw [mapping.sizeOf_spec]
  omega

theorem exists_items_of_data? {items : List Node} {value : Value}
    (isData : (sequence items).data? = some value) :
    ∃ values, value = .array values ∧
      List.Forall₂ (fun item data => item.data? = some data) items values := by
  rcases Option.bind_eq_some_iff.mp isData with ⟨merged, isMerged, converted⟩
  simp only [merge?, Option.bind_eq_bind, Option.bind_eq_some_iff, Option.some.injEq] at isMerged
  rcases isMerged with ⟨mergedItems, areMerged, rfl⟩
  simp only [toValue?, Option.bind_eq_bind, Option.bind_eq_some_iff, Option.some.injEq]
    at converted
  rcases converted with ⟨values, areValues, rfl⟩
  refine ⟨values, rfl, ?_⟩
  clear isData
  induction items generalizing mergedItems values with
  | nil =>
      cases areMerged
      cases areValues
      exact .nil
  | cons item rest inductionHypothesis =>
      simp only [mergeItems?, Option.bind_eq_bind, Option.bind_eq_some_iff, Option.some.injEq]
        at areMerged
      rcases areMerged with ⟨first, isFirst, others, areOthers, rfl⟩
      simp only [toItems?, Option.bind_eq_bind, Option.bind_eq_some_iff, Option.some.injEq]
        at areValues
      rcases areValues with ⟨data, isData, later, areLater, rfl⟩
      refine .cons ?_ (inductionHypothesis others areOthers later areLater)
      rw [data?, isFirst]
      exact isData

theorem data?_of_isStandardTag {tag : String} (standard : isStandardTag tag = true)
    (content : Node) : (tagged tag content).data? = content.data? := by
  unfold data?
  rw [merge?]
  cases content.merge? with
  | none => rfl
  | some merged =>
      change (tagged tag merged).toValue? = merged.toValue?
      rw [toValue?, if_pos standard]

/-- The data under an application's tag is nothing but the tag. -/
theorem eq_tagged_of_data? {tag : String} {content : Node} {value : Value}
    (other : ¬isStandardTag tag = true) (isData : (tagged tag content).data? = some value) :
    value = .tagged (tagName tag) := by
  rcases Option.bind_eq_some_iff.mp isData with ⟨merged, isMerged, converted⟩
  simp only [merge?, Option.bind_eq_bind, Option.bind_eq_some_iff, Option.some.injEq] at isMerged
  rcases isMerged with ⟨mergedContent, -, rfl⟩
  rw [toValue?, if_neg other] at converted
  exact (Option.some.inj converted).symm

theorem exists_rel_of_mem {α β : Type} {R : α → β → Prop} {left : List α} {right : List β}
    (given : List.Forall₂ R left right) {x : α} (member : x ∈ left) : ∃ y ∈ right, R x y := by
  induction given with
  | nil => cases member
  | @cons first second lefts rights related _ inductionHypothesis =>
      rcases List.mem_cons.mp member with rfl | later
      · exact ⟨second, List.mem_cons_self, related⟩
      · rcases inductionHypothesis later with ⟨y, inRights, relatedLater⟩
        exact ⟨y, List.mem_cons_of_mem _ inRights, relatedLater⟩

theorem exists_data?_of_mem_gathered {entries : Entries}
    (hasData : ∃ value, (mapping entries).data? = some value) {entry : Node × Node}
    (member : entry ∈ gathered entries) : ∃ value, entry.2.data? = some value := by
  rcases hasData with ⟨value, isData⟩
  rcases exists_fields_of_data? isData with ⟨fields, -, given⟩
  rcases exists_rel_of_mem given member with ⟨field, -, gives⟩
  exact ⟨field.2, gives.data⟩

theorem exists_data?_of_part {root node : Node} (part : Part root node)
    (hasData : ∃ value, root.data? = some value) : ∃ value, node.data? = some value := by
  induction part with
  | self node => exact hasData
  | item member _ inductionHypothesis =>
      obtain ⟨value, isData⟩ := hasData
      obtain ⟨values, -, given⟩ := exists_items_of_data? isData
      obtain ⟨data, -, itemData⟩ := exists_rel_of_mem given member
      exact inductionHypothesis ⟨data, itemData⟩
  | content standard _ inductionHypothesis =>
      rw [data?_of_isStandardTag standard] at hasData
      exact inductionHypothesis hasData
  | entry member _ inductionHypothesis =>
      exact inductionHypothesis (exists_data?_of_mem_gathered hasData member)

/-- Each name in the data of a node is written in a mapping whose data goes into it. -/
theorem exists_part_of_mem_keys {node : Node} {value : Value} (isData : node.data? = some value)
    {name : String} (isKey : name ∈ value.keys) :
    ∃ entries, Part node (.mapping entries) ∧
      ∃ entry ∈ gathered entries, entry.1.keyName? = some name := by
  -- An entry of a source stands two levels down, so the induction is on the size of the node.
  induction size : sizeOf node using Nat.strongRecOn generalizing node value with
  | ind bound inductionHypothesis =>
    subst size
    cases node with
    | null | bool b | number n | string s =>
        cases isData
        cases isKey
    | sequence items =>
        obtain ⟨values, rfl, given⟩ := exists_items_of_data? isData
        rw [Value.keys_array, List.mem_flatMap] at isKey
        obtain ⟨data, member, inData⟩ := isKey
        obtain ⟨item, inItems, itemData⟩ := exists_rel_of_mem given.flip member
        have smaller : sizeOf item < sizeOf (sequence items) := by
          have inList := List.sizeOf_lt_of_mem inItems
          rw [sequence.sizeOf_spec]
          omega
        obtain ⟨entries, part, written⟩ := inductionHypothesis _ smaller itemData inData rfl
        exact ⟨entries, .item inItems part, written⟩
    | mapping entries =>
        obtain ⟨fields, rfl, given⟩ := exists_fields_of_data? isData
        rw [Value.keys_object, List.mem_flatMap] at isKey
        obtain ⟨field, member, isKey⟩ := isKey
        obtain ⟨entry, isGathered, gives⟩ :=
          exists_rel_of_mem given.flip (Fields.mem_of_mem_ofPairs member)
        rcases List.mem_cons.mp isKey with isName | inData
        · exact ⟨entries, .self _, entry, isGathered, isName ▸ gives.name⟩
        · have smaller := sizeOf_lt_of_mem_gathered isGathered
          obtain ⟨others, part, written⟩ := inductionHypothesis _ smaller gives.data inData rfl
          exact ⟨others, .entry isGathered part, written⟩
    | tagged tag content =>
        by_cases standard : isStandardTag tag = true
        · rw [data?_of_isStandardTag standard] at isData
          have smaller : sizeOf content < sizeOf (tagged tag content) := by
            rw [tagged.sizeOf_spec]
            omega
          obtain ⟨entries, part, written⟩ := inductionHypothesis _ smaller isData isKey rfl
          exact ⟨entries, .content standard part, written⟩
        · rw [eq_tagged_of_data? standard isData] at isKey
          cases isKey

theorem holds_lastNamed? {entries : Entries} {fields : List (String × Value)}
    (given : List.Forall₂ Gives entries fields) (name : String) :
    Holds (Fields.ofPairs fields) name (lastNamed? name entries) := by
  have field := get?_ofPairs given name
  cases isLast : lastNamed? name entries with
  | none =>
      rw [isLast] at field
      exact .absent field
  | some value =>
      rcases mem_of_lastNamed? isLast with ⟨entry, member, -, rfl⟩
      rcases exists_rel_of_mem given member with ⟨pair, -, gives⟩
      rw [isLast] at field
      exact .field gives.data (field.trans gives.data)

/-- Only a merge key of a source is passed on under its name. -/
theorem not_unchained_of_mem_gathered {entries : Entries}
    (scalar : Everywhere ScalarKeys (.mapping entries)) (distinct : DistinctKeys entries)
    {entry : Node × Node} (member : entry ∈ gathered entries)
    (isNamed : entry.1.keyName? = some "<<") : ¬Unchained entries := by
  intro unchained
  rcases mem_gathered member with kept | ⟨source, isSource, inSource⟩
  · obtain ⟨inEntries, other⟩ := mem_own_iff.mp ((mem_kept_iff distinct).mp kept)
    exact keyName?_ne_of_isScalar (scalar.here entry inEntries) other isNamed
  · have other := unchained source isSource entry inSource
    exact keyName?_ne_of_isScalar ((scalar.source isSource).here entry inSource) other isNamed

theorem data?_of_decode? {text : List Char} {root : Node} {value : Value}
    (written : isBlankDocument text = false) (parsed : ofText? text = some root)
    (decoded : decode? text = some value) : root.data? = some value := by
  simp only [decode?, written, Bool.false_eq_true, if_false, parsed, Option.bind_eq_bind,
    Option.bind_some] at decoded
  exact decoded

/-- Every mapping that goes into the data of a document is an object of it. Its fields hold the data
of the entries that merging adds, and of its own where none of these has the name; so a name that is
written for one key only is given by the merge rule. Left out are the names that a source gives by
its own merge key, and the name of that key itself: no field is named like one in the object of a
mapping without such a source. -/
theorem decoded_fields (text : List Char) (root : Node) (value : Value)
    (written : isBlankDocument text = false) (parsed : ofText? text = some root)
    (scalar : Everywhere ScalarKeys root) (decoded : decode? text = some value) :
    root.data? = some value ∧
    (∀ entries, Part root (.mapping entries) →
      ∃ fields, (mapping entries).data? = some (.object fields) ∧
        ∀ name, (name = "<<" → Unchained entries) → ¬GivenByChain name entries →
          (Undisturbed name entries → Holds fields name
            ((lastNamed? name (added entries)).or (lastNamed? name (own entries)))) ∧
          (Faithful name (own entries ++ (sources entries).flatMap own) →
            Holds fields name (lookup? name entries))) ∧
    ("<<" ∈ value.keys → ∃ entries, Part root (.mapping entries) ∧ ¬Unchained entries) := by
  have isData := data?_of_decode? written parsed decoded
  have distinct := distinctKeys_of_ofText? parsed
  refine ⟨isData, ?_, ?_⟩
  · intro entries part
    have distinctHere := distinct.part part
    obtain ⟨object, isObject⟩ := exists_data?_of_part part ⟨value, isData⟩
    obtain ⟨fields, rfl, given⟩ := exists_fields_of_data? isObject
    refine ⟨Fields.ofPairs fields, isObject, fun name apart direct => ?_⟩
    have reach : Unchained entries ∨ name ≠ "<<" := (Decidable.em (name = "<<")).imp_left apart
    have holds := holds_lastNamed? given name
    constructor
    · intro undisturbed
      rwa [lastNamed?_gathered distinctHere.here undisturbed reach] at holds
    · intro faithful
      rwa [faithful.lastNamed?_gathered_eq_lookup? distinctHere reach direct] at holds
  · intro isKey
    obtain ⟨entries, part, entry, isGathered, isNamed⟩ := exists_part_of_mem_keys isData isKey
    exact ⟨entries, part,
      not_unchained_of_mem_gathered (scalar.part part) (distinct.part part).here isGathered isNamed⟩

theorem ofText?_of_events {text : List Char} {events : List Event}
    (scanned : (tokens? text).bind Event.ofTokens? = some events) :
    ofText? text = ofEvents? events := by
  rcases Option.bind_eq_some_iff.mp scanned with ⟨tokens, isTokens, isEvents⟩
  simp only [ofText?, Option.bind_eq_bind, isTokens, isEvents, Option.bind_some]

def word (text : String) : Event := .scalar {} true text.toList

/-- A mapping in a sequence, with two sources that share a key; the first has a merge key. -/
def overlaidText : List Char := "- <<: [{x: a, <<: {v: e}}, {x: c, y: b}]\n  y: d\n".toList

def overlaidEntries : Entries :=
  [(.string "<<", .sequence [
      .mapping [(.string "x", .string "a"), (.string "<<", .mapping [(.string "v", .string "e")])],
      .mapping [(.string "x", .string "c"), (.string "y", .string "b")]]),
    (.string "y", .string "d")]

theorem ofText?_overlaidText :
    ofText? overlaidText = some (.sequence [.mapping overlaidEntries]) := by
  have scanned : (tokens? overlaidText).bind Event.ofTokens? =
      some [.sequenceStart {}, .mappingStart {}, word "<<", .sequenceStart {}, .mappingStart {},
        word "x", word "a", word "<<", .mappingStart {}, word "v", word "e", .mappingEnd,
        .mappingEnd, .mappingStart {}, word "x", word "c", word "y", word "b", .mappingEnd,
        .sequenceEnd, word "y", word "d", .mappingEnd, .sequenceEnd] := by
    decide +kernel
  rw [ofText?_of_events scanned]
  rfl

theorem decoded_fields_overlaid :
    ∃ fields, (mapping overlaidEntries).data? = some (.object fields) ∧
      Holds fields "x" (some (.string "a")) ∧ Holds fields "y" (some (.string "d")) ∧
      Holds fields "z" none ∧
      ∃ entries, Part (.sequence [.mapping overlaidEntries]) (.mapping entries) ∧
        ¬Unchained entries := by
  have written : isBlankDocument overlaidText = false := by decide
  have decoded : decode? overlaidText =
      some (.array [.object [("y", .string "d"), ("x", .string "a"),
        ("<<", .object [("v", .string "e")])]]) := by
    simp only [decode?, written, Bool.false_eq_true, if_false, ofText?_overlaidText]
    rfl
  have scalar : Everywhere ScalarKeys (.sequence [.mapping overlaidEntries]) := by
    simp [overlaidEntries, ScalarKeys, isScalar]
  have faithful : ∀ name ∈ ["x", "y", "z"],
      Faithful name (own overlaidEntries ++ (sources overlaidEntries).flatMap own) := by
    unfold Faithful
    decide
  have direct : ∀ name ∈ ["x", "y", "z"], name ≠ "<<" ∧ ¬GivenByChain name overlaidEntries := by
    simp [GivenByChain, lookup?_eq, overlaidEntries, own, sources, named, isMergeKey, lastNamed?,
      keyName?]
  have looked : lookup? "x" overlaidEntries = some (.string "a") ∧
      lookup? "y" overlaidEntries = some (.string "d") ∧ lookup? "z" overlaidEntries = none := by
    simp [lookup?_eq, overlaidEntries, own, sources, named, isMergeKey, lastNamed?, keyName?]
  obtain ⟨-, objects, chained⟩ := decoded_fields _ _ _ written ofText?_overlaidText scalar decoded
  obtain ⟨fields, isData, rule⟩ := objects overlaidEntries (.item List.mem_cons_self (.self _))
  have holds : ∀ name ∈ ["x", "y", "z"], Holds fields name (lookup? name overlaidEntries) := by
    intro name isName
    obtain ⟨other, given⟩ := direct name isName
    exact (rule name (fun same => absurd same other) given).2 (faithful name isName)
  rw [List.forall_mem_cons, List.forall_mem_cons, List.forall_mem_singleton, looked.1, looked.2.1,
    looked.2.2] at holds
  exact ⟨fields, isData, holds.1, holds.2.1, holds.2.2, chained (by decide)⟩

/-- An entry of the mapping itself, and one of its source that is written alike but is another
key. -/
def overtakenText : List Char := "1: a\n<<:\n  '1': b\n".toList

def overtakenEntries : Entries :=
  [(.number (.int 1), .string "a"), (.string "<<", .mapping [(.string "1", .string "b")])]

/-- The entry of a source that is written like one of the mapping itself comes before it. -/
theorem overtaken_own_entry :
    isBlankDocument overtakenText = false ∧
      ofText? overtakenText = some (.mapping overtakenEntries) ∧
      Everywhere ScalarKeys (.mapping overtakenEntries) ∧
      decode? overtakenText = some (.object [("1", .string "b")]) ∧
      lastNamed? "1" (own overtakenEntries) = some (.string "a") ∧
      ¬Holds [("1", .string "b")] "1" (some (.string "a")) := by
  have written : isBlankDocument overtakenText = false := by decide
  have scanned : (tokens? overtakenText).bind Event.ofTokens? =
      some [.mappingStart {}, word "1", word "a", word "<<", .mappingStart {},
        .scalar {} false ['1'], word "b", .mappingEnd, .mappingEnd] := by
    decide +kernel
  have parsed : ofText? overtakenText = some (.mapping overtakenEntries) := by
    rw [ofText?_of_events scanned]
    rfl
  refine ⟨written, parsed, ?_, ?_, rfl, ?_⟩
  · simp [overtakenEntries, ScalarKeys, isScalar]
  · simp only [decode?, written, Bool.false_eq_true, if_false, parsed]
    rfl
  · intro holds
    cases holds with
    | field isData isField =>
        cases isData
        have same := Value.string.inj (Option.some.inj isField)
        exact absurd same (by decide)

end YamlTypes.Yaml.Node
