import YamlTypes.Proofs.Types.Unions
import YamlTypes.Proofs.Yaml.KeyOrder

/-!
Keys that are written alike.

Keys that differ in a document, a number and the string of its digits for
instance, may be written alike. An object has one field for all of them, in the
place of the first one and with the data of the last one. So whoever takes the
first field of a key, the last one or all of them comes to the same: a look-up,
the JSON of a module and a declaration.
-/

set_option autoImplicit false

namespace YamlTypes

open Value (Step)

namespace Yaml.Node

/-- The nodes that are converted where a node is. -/
inductive Converted (root : Node) : Node → Prop
  | root : Converted root root
  | item {items : List Node} {item : Node} :
      Converted root (.sequence items) → item ∈ items → Converted root item
  | value {entries : Entries} {entry : Node × Node} :
      Converted root (.mapping entries) → entry ∈ entries → Converted root entry.2
  | content {tag : String} {content : Node} :
      Converted root (.tagged tag content) → isStandardTag tag = true → Converted root content

/-- The fields that entries come to. Each name that a key is written as stands once, in the order
in which the names first occur, and holds what the last entry of the name is converted to. -/
structure Keeps (entries : Entries) (fields : List (String × Value)) : Prop where
  named : ∀ entry ∈ entries, ∃ name, entry.1.keyName? = some name
  sameNames : ∀ name, name ∈ fields.map Prod.fst ↔ name ∈ names entries
  distinct : (fields.map Prod.fst).Nodup
  inOrder : (fields.map Prod.fst).Pairwise fun first second =>
    (names entries).idxOf first < (names entries).idxOf second
  holds : ∀ name value, Fields.get? name fields = some value →
    ∃ front entry back, entries = front ++ entry :: back ∧ entry.1.keyName? = some name ∧
      name ∉ names back ∧ entry.2.toValue? = some value

/-- An entry is converted to a field. -/
structure Becomes (entry : Node × Node) (field : String × Value) : Prop where
  name : entry.1.keyName? = some field.1
  value : entry.2.toValue? = some field.2

theorem forall₂_of_toItems? {items : List Node} {values : List Value}
    (converted : toItems? items = some values) :
    List.Forall₂ (fun item value => item.toValue? = some value) items values := by
  induction items generalizing values with
  | nil =>
      cases converted
      exact .nil
  | cons item rest inductionHypothesis =>
      simp only [toItems?, Option.bind_eq_bind, Option.bind_eq_some_iff, Option.some.injEq]
        at converted
      rcases converted with ⟨first, isFirst, others, areOthers, rfl⟩
      exact .cons isFirst (inductionHypothesis areOthers)

theorem forall₂_of_toFields? {entries : Entries} {pairs : List (String × Value)}
    (converted : toFields? entries = some pairs) : List.Forall₂ Becomes entries pairs := by
  induction entries generalizing pairs with
  | nil =>
      cases converted
      exact .nil
  | cons entry rest inductionHypothesis =>
      obtain ⟨key, value⟩ := entry
      simp only [toFields?, Option.bind_eq_bind, Option.bind_eq_some_iff, Option.some.injEq]
        at converted
      rcases converted with ⟨name, isName, first, isFirst, others, areOthers, rfl⟩
      exact .cons ⟨isName, isFirst⟩ (inductionHypothesis areOthers)

theorem exists_pairs_of_toValue? {entries : Entries} {value : Value}
    (converted : (mapping entries).toValue? = some value) :
    ∃ pairs, value = .object (Fields.ofPairs pairs) ∧ List.Forall₂ Becomes entries pairs := by
  simp only [toValue?, Option.bind_eq_bind, Option.bind_eq_some_iff, Option.some.injEq]
    at converted
  rcases converted with ⟨pairs, arePairs, rfl⟩
  exact ⟨pairs, rfl, forall₂_of_toFields? arePairs⟩

theorem Converted.exists_value {root node : Node} (within : Converted root node)
    (hasValue : ∃ value, root.toValue? = some value) : ∃ value, node.toValue? = some value := by
  induction within with
  | root => exact hasValue
  | item _ member inductionHypothesis =>
      rcases inductionHypothesis with ⟨value, converted⟩
      simp only [toValue?, Option.bind_eq_bind, Option.bind_eq_some_iff, Option.some.injEq]
        at converted
      rcases converted with ⟨values, areValues, -⟩
      rcases exists_rel_of_mem (forall₂_of_toItems? areValues) member with ⟨item, -, isItem⟩
      exact ⟨item, isItem⟩
  | value _ member inductionHypothesis =>
      rcases inductionHypothesis with ⟨value, converted⟩
      rcases exists_pairs_of_toValue? converted with ⟨pairs, -, given⟩
      rcases exists_rel_of_mem given member with ⟨field, -, becomes⟩
      exact ⟨field.2, becomes.value⟩
  | content _ standard inductionHypothesis =>
      rwa [toValue?, if_pos standard] at inductionHypothesis

theorem keeps_of_becomes {entries : Entries} {pairs : List (String × Value)}
    (given : List.Forall₂ Becomes entries pairs) : Keeps entries (Fields.ofPairs pairs) := by
  have written : pairs.map Prod.fst = names entries :=
    keys_of_named (given.imp fun _ _ becomes => becomes.name)
  have keys := Fields.keys_ofPairs pairs
  rw [written] at keys
  refine ⟨?_, ?_, Fields.nodup_keys_ofPairs pairs, ?_, ?_⟩
  · intro entry member
    rcases exists_rel_of_mem given member with ⟨field, -, becomes⟩
    exact ⟨field.1, becomes.name⟩
  · intro name
    rw [keys, List.mem_eraseDups]
  · rw [keys]
    exact Fields.pairwise_idxOf_eraseDups _
  · intro name value found
    rcases Fields.last_of_get?_ofPairs found with ⟨first, later, rfl, last⟩
    have others := List.forall₂_take_append entries first _ given
    rcases List.forall₂_cons_right_iff.mp (List.forall₂_drop_append entries first _ given) with
      ⟨entry, back, becomes, behind, split⟩
    refine ⟨entries.take first.length, entry, back, ?_, becomes.name, ?_, becomes.value⟩
    · rw [← split, List.take_append_drop]
    · rwa [← keys_of_named (behind.imp fun _ _ becomes => becomes.name)]

end Yaml.Node

theorem infix_of_append (first middle last : String) :
    middle.toList <:+: (first ++ middle ++ last).toList := by
  rw [String.toList_append, String.toList_append]
  exact List.infix_append _ _ _

namespace Json

theorem prettyItems_eq (indent : String) (items : List Json) :
    prettyItems indent items =
      String.intercalate ",\n" (items.map fun item => indent ++ item.pretty indent) := by
  induction items with
  | nil => rfl
  | cons item rest inductionHypothesis =>
      cases rest with
      | nil => simp only [prettyItems, List.map_cons, List.map_nil, String.intercalate_singleton]
      | cons second later =>
          rw [prettyItems, inductionHypothesis, List.map_cons, List.map_cons]
          · simp only [List.map_cons, String.intercalate_cons_cons]
          · exact nofun

theorem infix_pretty_array {items : List Json} {item : Json} (member : item ∈ items)
    (indent : String) :
    (item.pretty (indent ++ "  ")).toList <:+: ((array items).pretty indent).toList := by
  have line := infix_intercalate ",\n" (List.mem_map_of_mem (f := fun item =>
    indent ++ "  " ++ item.pretty (indent ++ "  ")) member)
  rw [← prettyItems_eq, String.toList_append] at line
  cases items with
  | nil => cases member
  | cons first rest =>
      simp only [pretty, String.toList_append, List.append_assoc]
      exact ((List.suffix_append _ _).isInfix.trans line).trans (List.infix_append' _ _ _)

theorem infix_pretty_object {fields : List (String × Json)} {field : String × Json}
    (member : field ∈ fields) (indent : String) :
    (field.2.pretty (indent ++ "  ")).toList <:+: ((object fields).pretty indent).toList := by
  have line := infix_intercalate ",\n" (List.mem_map_of_mem (f := fun field : String × Json =>
    indent ++ "  " ++ quote field.1 ++ ": " ++ field.2.pretty (indent ++ "  ")) member)
  rw [← prettyFields_eq, String.toList_append] at line
  cases fields with
  | nil => cases member
  | cons first rest =>
      simp only [pretty, String.toList_append, List.append_assoc]
      exact ((List.suffix_append _ _).isInfix.trans line).trans (List.infix_append' _ _ _)

end Json

/-- The indent of what stands at the end of some steps in JSON, where items stand further in too. -/
def jsonIndent (path : List Step) : String := path.foldl (fun indent _ => indent ++ "  ") ""

theorem jsonIndent_concat (path : List Step) (step : Step) :
    jsonIndent (path ++ [step]) = jsonIndent path ++ "  " := by
  simp only [jsonIndent, List.foldl_append, List.foldl_cons, List.foldl_nil]

namespace Value

def fieldLine (indent : String) (field : String × Value) : String :=
  indent ++ "  " ++ field.1 ++ ": " ++ field.2.typeText (indent ++ "  ") ++ ";\n"

/-- How an object in a value is written: its type stands in the declaration, with one line for each
key, and its JSON in the module, with the same data as a look-up finds. -/
structure Shown (value : Value) (path : List Step) (fields : List (String × Value))
    (members : List (String × Json)) : Prop where
  declared : ((object fields).typeText (indentAt "" path)).toList <:+:
    (Declaration.contents value).toList
  once : ∀ key found, (object fields).get? key = some found →
    ∃ front back, fields = front ++ (key, found) :: back ∧
      key ∉ front.map Prod.fst ∧ key ∉ back.map Prod.fst ∧
      ∀ indent, (object fields).typeText indent =
        "\x7b\n" ++ String.join (front.map (fieldLine indent)) ++ fieldLine indent (key, found) ++
          String.join (back.map (fieldLine indent)) ++ indent ++ "\x7d"
  exported : ((Json.object members).pretty (jsonIndent path)).toList <:+: value.moduleBody.toList
  isJson : (object fields).toJson? = some (.object members)
  sameKeys : members.map Prod.fst = fields.map Prod.fst
  sameData : ∀ key, Fields.get? key members = ((object fields).get? key).bind toJson?

theorem Within.infix_typeText {value part : Value} {path : List Step}
    (within : value.Within path part) (indent : String) :
    (part.typeText (indentAt indent path)).toList <:+: (value.typeText indent).toList := by
  induction within with
  | whole => exact List.infix_refl _
  | item _ member inductionHypothesis =>
      refine List.IsInfix.trans ?_ inductionHypothesis
      rw [indentAt_item, typeText_array]
      exact infix_arrayText (List.mem_map_of_mem member)
  | @field path fields position field _ isField inductionHypothesis =>
      refine List.IsInfix.trans ?_ inductionHypothesis
      have member := List.mem_map_of_mem (f := fun field : String × Value =>
        (field.1, TypeExpr.infer (indentAt indent path ++ "  ") field.2))
        (List.mem_of_getElem? isField)
      rw [← TypeExpr.inferFields_eq_map] at member
      rw [indentAt_field]
      simp only [typeText, TypeExpr.infer, TypeExpr.render, String.toList_append,
        List.append_assoc]
      exact (TypeExpr.infix_renderFields member).trans (List.infix_append' _ _ _)

theorem Within.infix_literal {value part : Value} {path : List Step} {json : Json}
    (within : value.Within path part) (decoded : value.Decoded)
    (isJson : part.toJson? = some json) :
    (json.pretty (jsonIndent path)).toList <:+: value.literal.toList := by
  induction within generalizing json with
  | whole =>
      rw [literal, isJson]
      exact List.infix_refl _
  | @item path items item within member inductionHypothesis =>
      have around := inductionHypothesis (by rw [toJson?])
      refine List.IsInfix.trans ?_ around
      rw [jsonIndent_concat]
      apply Json.infix_pretty_array
      rw [jsonItems_eq_map]
      exact List.mem_map.mpr ⟨item, member, by rw [isJson, Option.getD_some]⟩
  | @field path fields position field within isField inductionHypothesis =>
      have around := inductionHypothesis (toJson?_object (decoded.within within))
      refine List.IsInfix.trans ?_ around
      have member := List.mem_map_of_mem (f := fun field : String × Value =>
        (field.1, field.2.toJson?.getD .null)) (List.mem_of_getElem? isField)
      rw [isJson, Option.getD_some] at member
      rw [jsonIndent_concat]
      exact Json.infix_pretty_object member _

theorem exists_line_of_get? {fields : List (String × Value)} {key : String} {found : Value}
    (distinct : (fields.map Prod.fst).Nodup) (isFound : Fields.get? key fields = some found) :
    ∃ front back, fields = front ++ (key, found) :: back ∧
      key ∉ front.map Prod.fst ∧ key ∉ back.map Prod.fst ∧
      ∀ indent, (object fields).typeText indent =
        "\x7b\n" ++ String.join (front.map (fieldLine indent)) ++ fieldLine indent (key, found) ++
          String.join (back.map (fieldLine indent)) ++ indent ++ "\x7d" := by
  rcases Fields.exists_of_get?_eq_some isFound with ⟨front, back, rfl, new⟩
  rw [List.map_append, List.map_cons] at distinct
  have only := (List.nodup_cons.mp (List.nodup_append.mp distinct).2.1).1
  refine ⟨front, back, rfl, new, only, fun indent => ?_⟩
  have lines : (object (front ++ (key, found) :: back)).typeText indent = "\x7b\n" ++
      String.join ((front ++ (key, found) :: back).map (fieldLine indent)) ++ indent ++ "\x7d" :=
    typeText_object indent _
  rw [lines, List.map_append, List.map_cons, String.join_append, String.join_cons]
  simp only [String.append_assoc]

theorem Decoded.shown {value : Value} {path : List Step} {fields : List (String × Value)}
    (decoded : value.Decoded) (within : value.Within path (.object fields)) :
    Shown value path fields (fields.map fun field => (field.1, field.2.toJson?.getD .null)) := by
  have isJson := toJson?_object (decoded.within within)
  cases decoded.within within with
  | object distinct each =>
      refine ⟨?_, fun key found => exists_line_of_get? distinct, ?_, isJson, ?_, ?_⟩
      · exact (within.infix_typeText "").trans (infix_of_append _ _ _)
      · exact (within.infix_literal decoded isJson).trans (infix_of_append _ _ _)
      · rw [List.map_map]
        rfl
      · intro key
        rw [Fields.get?_map (fun value : Value => value.toJson?.getD .null), get?]
        cases isFound : Fields.get? key fields with
        | none => rfl
        | some found =>
            rcases Fields.exists_of_get?_eq_some isFound with ⟨front, back, rfl, -⟩
            rcases (each (key, found) (by simp)).exists_toJson? with ⟨json, hasJson⟩
            rw [Option.map_some, Option.bind_some, hasJson, Option.getD_some]

end Value

namespace Yaml.Node

/-- Every mapping that is converted becomes an object that keeps one field for each name of a key.
And every object in the data of a document stands with all its keys, each of them once, in the
declaration and in the module, where they hold what a look-up finds. -/
theorem keys_kept_once :
    (∀ root value, root.toValue? = some value → ∀ entries, Converted root (.mapping entries) →
      ∃ fields, (mapping entries).toValue? = some (.object fields) ∧ Keeps entries fields) ∧
    ∀ text value, decode? text = some value → ∀ path fields,
      value.Within path (.object fields) → ∃ members, value.Shown path fields members := by
  constructor
  · intro root value converted entries within
    rcases within.exists_value ⟨value, converted⟩ with ⟨object, isObject⟩
    rcases exists_pairs_of_toValue? isObject with ⟨pairs, rfl, given⟩
    exact ⟨_, isObject, keeps_of_becomes given⟩
  · intro text value decodes path fields within
    rcases decoded_of_decode? decodes with rfl | decoded
    · cases (Value.eq_undefined_of_within within).2
    · exact ⟨_, decoded.shown within⟩

/-- A number, a string and a tagged number that are written alike, as well as null and a string, a
sequence and a string. -/
def collidingText : List Char :=
  "1: a\n~: b\n'1': c\n'null': \x7b[1]: d, '- 1': e\x7d\n!t 1: f\n".toList

def innerEntries : Entries :=
  [(.sequence [.number (.int 1)], .string "d"), (.string "- 1", .string "e")]

def collidingEntries : Entries :=
  [(.number (.int 1), .string "a"), (.null, .string "b"), (.string "1", .string "c"),
    (.string "null", .mapping innerEntries), (.tagged "t" (.number (.int 1)), .string "f")]

def collidedFields : List (String × Value) :=
  [("1", .string "f"), ("null", .object [("- 1", .string "e")])]

theorem keys_kept_once_colliding :
    (∃ fields, (mapping innerEntries).toValue? = some (.object fields) ∧
      Keeps innerEntries fields) ∧
    ∃ members, (Value.object collidedFields).Shown [.field 1] [("- 1", .string "e")] members := by
  have converted : (mapping collidingEntries).toValue? = some (.object collidedFields) := by rfl
  have written : isBlankDocument collidingText = false := by decide
  have scanned : (tokens? collidingText).bind Event.ofTokens? =
      some [.mappingStart {}, word "1", word "a", word "~", word "b",
        .scalar {} false ['1'], word "c", .scalar {} false "null".toList, .mappingStart {},
        .sequenceStart {}, word "1", .sequenceEnd, word "d", .scalar {} false "- 1".toList,
        word "e", .mappingEnd, .scalar ⟨none, some [33, 116]⟩ true ['1'], word "f", .mappingEnd] := by
    decide +kernel
  have parsed : ofText? collidingText = some (.mapping collidingEntries) := by
    rw [ofText?_of_events scanned]
    rfl
  have decoded : decode? collidingText = some (.object collidedFields) := by
    simp only [decode?, written, Bool.false_eq_true, if_false, parsed]
    rfl
  have inner : Converted (.mapping collidingEntries) (.mapping innerEntries) :=
    @Converted.value _ collidingEntries (.string "null", .mapping innerEntries) .root
      (by simp [collidingEntries])
  have place : (Value.object collidedFields).Within [.field 1] (.object [("- 1", .string "e")]) :=
    @Value.Within.field _ [] collidedFields 1 _ .whole rfl
  exact ⟨keys_kept_once.1 _ _ converted innerEntries inner,
    keys_kept_once.2 collidingText _ decoded _ _ place⟩

end Yaml.Node

end YamlTypes
