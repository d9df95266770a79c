import YamlTypes.Proofs.Types.Inferred
import YamlTypes.Proofs.Types.Texts
import YamlTypes.Proofs.Yaml.MergedFields

/-!
The order of keys.

The fields of an object stand as merging has gathered them: first the entries that
the mapping keeps, and then those that its sources add. A kept entry keeps its
place too, but for one: where a merge key is taken out, the last entry moves into
the gap. So the written keys stay in order exactly if no more than one of them is
written behind the merge key.
-/

set_option autoImplicit false

namespace YamlTypes

namespace Yaml.Node

def names (entries : Entries) : List String := entries.filterMap fun entry => entry.1.keyName?

def before : Entries → Entries
  | [] => []
  | entry :: rest => if isMergeKey entry.1 then [] else entry :: before rest

def behind : Entries → Entries
  | [] => []
  | entry :: rest => if isMergeKey entry.1 then rest else behind rest

theorem names_append (first second : Entries) :
    names (first ++ second) = names first ++ names second := List.filterMap_append

theorem names_cons {entry : Node × Node} {name : String} (isNamed : entry.1.keyName? = some name)
    (rest : Entries) : names (entry :: rest) = name :: names rest :=
  List.filterMap_cons_some isNamed

theorem mem_names_iff {name : String} {entries : Entries} :
    name ∈ names entries ↔ ∃ entry ∈ entries, entry.1.keyName? = some name :=
  List.mem_filterMap

/-- Where a merge key is taken out, the last entry moves into the gap. -/
theorem takeMerge_eq (entries : Entries) :
    (takeMerge entries).2 = before entries ++ lastFirst (behind entries) := by
  induction entries with
  | nil => rfl
  | cons entry rest inductionHypothesis =>
      obtain ⟨key, value⟩ := entry
      by_cases isMerge : isMergeKey key = true
      · rw [takeMerge, if_pos isMerge, before, if_pos isMerge, behind, if_pos isMerge, lastFirst]
        cases rest.getLast? <;> rfl
      · rw [takeMerge, if_neg isMerge, before, if_neg isMerge, behind, if_neg isMerge]
        exact congrArg _ inductionHypothesis

theorem own_eq {entries : Entries} (distinct : DistinctKeys entries) :
    own entries = before entries ++ behind entries := by
  induction entries with
  | nil => rfl
  | cons entry rest inductionHypothesis =>
      obtain ⟨apart, distinctRest⟩ := List.pairwise_cons.mp distinct
      by_cases isMerge : isMergeKey entry.1 = true
      · have others : ∀ other ∈ rest, isMergeKey other.1 = false := by
          intro other member
          rw [← same_mergeKey isMerge]
          exact apart other member
        rw [own_cons_of_isMergeKey isMerge, own_of_forall others, before, if_pos isMerge, behind,
          if_pos isMerge, List.nil_append]
      · rw [own_cons_of_not_isMergeKey (Bool.eq_false_iff.mpr isMerge), before, if_neg isMerge,
          behind, if_neg isMerge, inductionHypothesis distinctRest, List.cons_append]

/-- Moving the last entry to the front changes the order of two or more keys. -/
theorem names_lastFirst_iff {entries : Entries}
    (named : ∀ entry ∈ entries, ∃ name, entry.1.keyName? = some name)
    (distinct : (names entries).Nodup) :
    names (lastFirst entries) = names entries ↔ entries.length ≤ 1 := by
  match entries with
  | [] => exact iff_of_true rfl (by decide)
  | [entry] => exact iff_of_true rfl (Nat.le_refl 1)
  | first :: second :: rest =>
    apply iff_of_false
    · intro same
      rcases named first List.mem_cons_self with ⟨firstName, isFirst⟩
      cases last : (second :: rest).getLast? with
      | none => exact absurd (List.getLast?_eq_none_iff.mp last) (List.cons_ne_nil _ _)
      | some final =>
          have inRest : final ∈ second :: rest := List.mem_of_getLast? last
          rcases named final (List.mem_cons_of_mem _ inRest) with ⟨lastName, isLast⟩
          have moved : lastFirst (first :: second :: rest) =
              final :: (first :: second :: rest).dropLast := by
            rw [lastFirst, List.getLast?_cons_cons, last]
          rw [moved, names_cons isLast, names_cons isFirst] at same
          obtain ⟨rfl, -⟩ := List.cons.inj same
          rw [names_cons isFirst, List.nodup_cons] at distinct
          exact distinct.1 (mem_names_iff.mpr ⟨final, inRest, isLast⟩)
    · intro short
      simp only [List.length_cons] at short
      omega

theorem keys_of_named {entries : Entries} {fields : List (String × Value)}
    (named : List.Forall₂ (fun entry field => entry.1.keyName? = some field.1) entries fields) :
    fields.map Prod.fst = names entries := by
  induction named with
  | nil => rfl
  | cons isNamed _ inductionHypothesis =>
      rw [List.map_cons, inductionHypothesis, names_cons isNamed]

theorem keys_of_gives {entries : Entries} {fields : List (String × Value)}
    (given : List.Forall₂ Gives entries fields) : fields.map Prod.fst = names entries :=
  keys_of_named (given.imp fun _ _ gives => gives.name)

theorem lastFirst_perm (entries : Entries) : (lastFirst entries).Perm entries := by
  unfold lastFirst
  cases last : entries.getLast? with
  | none => rw [List.getLast?_eq_none_iff.mp last]
  | some final =>
      rcases List.getLast?_eq_some_iff.mp last with ⟨front, rfl⟩
      rw [List.dropLast_concat]
      exact (List.perm_append_singleton final front).symm

theorem names_kept_perm {entries : Entries} (distinct : DistinctKeys entries) :
    (names (takeMerge entries).2).Perm (names (own entries)) := by
  rw [takeMerge_eq, own_eq distinct]
  exact ((lastFirst_perm _).append_left _).filterMap _

/-- Of the keys of an object, those that are written in its mapping stand as they are kept. -/
theorem written_keys_of_gives {entries : Entries} {fields : List (String × Value)}
    (distinct : DistinctKeys entries) (apart : (names (own entries)).Nodup)
    (given : List.Forall₂ Gives (gathered entries) fields) :
    ((Fields.ofPairs fields).map Prod.fst).filter (· ∈ names (own entries)) =
      names (takeMerge entries).2 := by
  have sameNames := names_kept_perm distinct
  have keys : (Fields.ofPairs fields).map Prod.fst = names (takeMerge entries).2 ++
      ((names (missing (takeMerge entries).2 (sources entries).flatten)).removeAll
        (names (takeMerge entries).2)).eraseDups := by
    rw [Fields.keys_ofPairs, keys_of_gives given, gathered, names_append, List.eraseDups_append,
      Fields.eraseDups_of_nodup (sameNames.nodup_iff.mpr apart)]
  have kept : ∀ name ∈ names (takeMerge entries).2, decide (name ∈ names (own entries)) = true := by
    intro name member
    exact decide_eq_true (sameNames.mem_iff.mp member)
  have others : ∀ name ∈
      ((names (missing (takeMerge entries).2 (sources entries).flatten)).removeAll
        (names (takeMerge entries).2)).eraseDups,
      ¬decide (name ∈ names (own entries)) = true := by
    intro name member isOwn
    rw [List.mem_eraseDups, List.removeAll, List.mem_filter, Bool.not_eq_true', List.elem_eq_mem,
      decide_eq_false_iff_not] at member
    exact member.2 (sameNames.mem_iff.mpr (of_decide_eq_true isOwn))
  rw [keys, List.filter_append, List.filter_eq_self.mpr kept, List.filter_eq_nil_iff.mpr others,
    List.append_nil]

def writtenKeys {α : Type} (entries : Entries) (fields : List (String × α)) : List String :=
  (fields.map Prod.fst).filter (· ∈ names (own entries))

end Yaml.Node

theorem Json.prettyFields_eq (indent : String) (fields : List (String × Json)) :
    prettyFields indent fields = String.intercalate ",\n" (fields.map fun field =>
      indent ++ quote field.1 ++ ": " ++ field.2.pretty indent) := by
  induction fields with
  | nil => rfl
  | cons field rest inductionHypothesis =>
      cases rest with
      | nil => simp only [prettyFields, List.map_cons, List.map_nil, String.intercalate_singleton]
      | cons second later =>
          rw [prettyFields, inductionHypothesis, List.map_cons, List.map_cons]
          · simp only [List.map_cons, String.intercalate_cons_cons]
          · exact nofun

namespace Value

theorem Decoded.exists_toJson? {value : Value} (decoded : value.Decoded) :
    ∃ json, value.toJson? = some json := by
  cases decoded with
  | null | bool _ | number _ | string _ | tagged _ | array _ | object _ _ =>
      simp only [toJson?]
      exact ⟨_, rfl⟩

theorem jsonFields_eq_map {fields : List (String × Value)}
    (decoded : ∀ field ∈ fields, field.2.Decoded) :
    jsonFields fields = fields.map fun field => (field.1, field.2.toJson?.getD .null) := by
  induction fields with
  | nil => rfl
  | cons field rest inductionHypothesis =>
      rw [List.forall_mem_cons] at decoded
      rcases decoded.1.exists_toJson? with ⟨json, hasJson⟩
      simp only [jsonFields, hasJson, inductionHypothesis decoded.2, List.map_cons,
        Option.getD_some]

theorem toJson?_object {fields : List (String × Value)} (decoded : (object fields).Decoded) :
    (object fields).toJson? =
      some (.object (fields.map fun field => (field.1, field.2.toJson?.getD .null))) := by
  cases decoded with
  | object distinct each =>
      have keys : ((jsonFields fields).map Prod.fst).Nodup := by
        rw [jsonFields_eq_map each, List.map_map]
        exact distinct
      rw [toJson?, Fields.ofPairs_of_nodup keys, jsonFields_eq_map each]

end Value

namespace Yaml.Node

/-- Every mapping that goes into the data of a document and whose written keys have distinct texts
is an object with these keys in the order of writing, but that the last of them stands in the place
of the merge key. So they are in order exactly if no more than one stands behind the merge key. The
object's type and its JSON list all fields as the object does. -/
theorem written_key_order (text : List Char) (root : Node) (value : Value)
    (written : isBlankDocument text = false) (parsed : ofText? text = some root)
    (decoded : decode? text = some value) (entries : Entries)
    (part : Part root (.mapping entries)) (apart : (names (own entries)).Nodup) :
    ∃ fields, (mapping entries).data? = some (.object fields) ∧
      writtenKeys entries fields = names (before entries ++ lastFirst (behind entries)) ∧
      (writtenKeys entries fields = names (own entries) ↔ (behind entries).length ≤ 1) ∧
      (∀ indent, (Value.object fields).typeText indent =
        "\x7b\n" ++ String.join (fields.map fun field =>
          indent ++ "  " ++ field.1 ++ ": " ++ field.2.typeText (indent ++ "  ") ++ ";\n") ++
          indent ++ "\x7d") ∧
      ∃ json, (Value.object fields).toJson? = some (.object json) ∧
        json.map Prod.fst = fields.map Prod.fst ∧
        (json ≠ [] → ∀ indent, (Json.object json).pretty indent =
          "\x7b\n" ++ String.intercalate ",\n" (json.map fun field =>
            indent ++ "  " ++ Json.quote field.1 ++ ": " ++ field.2.pretty (indent ++ "  ")) ++
            "\n" ++ indent ++ "\x7d") := by
  have isData := data?_of_decode? written parsed decoded
  have distinct := ((distinctKeys_of_ofText? parsed).part part).here
  rcases exists_data?_of_part part ⟨value, isData⟩ with ⟨object, isObject⟩
  rcases Option.bind_eq_some_iff.mp isObject with ⟨merged, -, converted⟩
  have objectDecoded := merged.decoded_of_toValue? converted
  rcases exists_fields_of_data? isObject with ⟨fields, rfl, given⟩
  have kept := written_keys_of_gives distinct apart given
  refine ⟨Fields.ofPairs fields, isObject, ?_, ?_, fun indent => Value.typeText_object _ _, _,
    Value.toJson?_object objectDecoded, ?_, ?_⟩
  · rw [writtenKeys, kept, takeMerge_eq]
  · have named : ∀ entry ∈ behind entries, ∃ name, entry.1.keyName? = some name := by
      intro entry member
      have isOwn : entry ∈ own entries := by
        rw [own_eq distinct]
        exact List.mem_append_right _ member
      rcases exists_rel_of_mem given (mem_gathered_of_mem_own distinct isOwn) with
        ⟨field, -, gives⟩
      exact ⟨field.1, gives.name⟩
    rw [own_eq distinct, names_append] at apart
    rw [writtenKeys, kept, takeMerge_eq, own_eq distinct, names_append, names_append,
      List.append_cancel_left_eq]
    exact names_lastFirst_iff named (List.nodup_append.mp apart).2.1
  · rw [List.map_map]
    rfl
  · intro nonempty indent
    rw [Json.pretty, Json.prettyFields_eq]
    exact nonempty

/-- A mapping in a sequence with its merge key before the last of its own entries. -/
def orderedText : List Char := "- b: x\n  <<: {c: u, b: v}\n  a: y\n".toList

def orderedEntries : Entries :=
  [(.string "b", .string "x"),
    (.string "<<", .mapping [(.string "c", .string "u"), (.string "b", .string "v")]),
    (.string "a", .string "y")]

theorem ofText?_orderedText : ofText? orderedText = some (.sequence [.mapping orderedEntries]) := by
  have scanned : (tokens? orderedText).bind Event.ofTokens? =
      some [.sequenceStart {}, .mappingStart {}, word "b", word "x", word "<<", .mappingStart {},
        word "c", word "u", word "b", word "v", .mappingEnd, word "a", word "y", .mappingEnd,
        .sequenceEnd] := by
    decide +kernel
  rw [ofText?_of_events scanned]
  rfl

theorem written_key_order_ordered :
    ∃ fields, (mapping orderedEntries).data? = some (.object fields) ∧
      writtenKeys orderedEntries fields = ["b", "a"] := by
  have written : isBlankDocument orderedText = false := by decide
  have decoded : decode? orderedText =
      some (.array [.object [("b", .string "x"), ("a", .string "y"), ("c", .string "u")]]) := by
    simp only [decode?, written, Bool.false_eq_true, if_false, ofText?_orderedText]
    rfl
  have apart : (names (own orderedEntries)).Nodup := by decide
  rcases written_key_order _ _ _ written ofText?_orderedText decoded orderedEntries
    (.item List.mem_cons_self (.self _)) apart with ⟨fields, isData, -, inOrder, -⟩
  exact ⟨fields, isData, inOrder.mpr (by decide)⟩

def displacedText : List Char := "<<: {}\na: x\nb: y\n".toList

def displacedEntries : Entries :=
  [(.string "<<", .mapping []), (.string "a", .string "x"), (.string "b", .string "y")]

/-- The later of two keys behind a merge key becomes the first one. -/
theorem written_key_displaced :
    isBlankDocument displacedText = false ∧
      ofText? displacedText = some (.mapping displacedEntries) ∧
      (names (own displacedEntries)).Nodup ∧ "<<" ∉ names (own displacedEntries) ∧
      decode? displacedText = some (.object [("b", .string "y"), ("a", .string "x")]) ∧
      writtenKeys displacedEntries [("b", Value.string "y"), ("a", Value.string "x")] ≠
        names (own displacedEntries) := by
  have written : isBlankDocument displacedText = false := by decide
  have scanned : (tokens? displacedText).bind Event.ofTokens? =
      some [.mappingStart {}, word "<<", .mappingStart {}, .mappingEnd, word "a", word "x",
        word "b", word "y", .mappingEnd] := by
    decide +kernel
  have parsed : ofText? displacedText = some (.mapping displacedEntries) := by
    rw [ofText?_of_events scanned]
    rfl
  refine ⟨written, parsed, by decide, by decide, ?_, by decide⟩
  simp only [decode?, written, Bool.false_eq_true, if_false, parsed]
  rfl

end Yaml.Node

end YamlTypes
