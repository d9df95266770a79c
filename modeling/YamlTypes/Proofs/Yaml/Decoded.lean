import YamlTypes.Proofs.Fields
import YamlTypes.Proofs.Value
import YamlTypes.Yaml.Decode

/-!
What the data of a document looks like: an absent document is the whole of the
data, never a part of it, and no object holds a key twice.
-/

set_option autoImplicit false

namespace YamlTypes

/-- Data without absent parts in which objects hold every key once. -/
inductive Value.Decoded : Value → Prop
  | null : Decoded .null
  | bool (b : Bool) : Decoded (.bool b)
  | number (x : Double) : Decoded (.number x)
  | string (s : String) : Decoded (.string s)
  | tagged (tag : String) : Decoded (.tagged tag)
  | array {items : List Value} (each : ∀ item ∈ items, Decoded item) : Decoded (.array items)
  | object {fields : List (String × Value)} (distinct : (fields.map Prod.fst).Nodup)
      (each : ∀ field ∈ fields, Decoded field.2) : Decoded (.object fields)

theorem Value.Decoded.within {value part : Value} {path : List Value.Step}
    (decoded : value.Decoded) (within : value.Within path part) : part.Decoded := by
  induction within with
  | whole => exact decoded
  | item _ member inductionHypothesis =>
    cases inductionHypothesis with
    | array each => exact each _ member
  | field _ isField inductionHypothesis =>
    cases inductionHypothesis with
    | object _ each => exact each _ (List.mem_of_getElem? isField)

theorem Value.eq_undefined_of_within {part : Value} {path : List Value.Step}
    (within : Value.undefined.Within path part) : path = [] ∧ part = .undefined := by
  induction within with
  | whole => exact ⟨rfl, rfl⟩
  | item _ _ inductionHypothesis => cases inductionHypothesis.2
  | field _ _ inductionHypothesis => cases inductionHypothesis.2

namespace Yaml

mutual

theorem Node.decoded_of_toValue? (node : Node) {value : Value}
    (converted : node.toValue? = some value) : value.Decoded := by
  match node with
  | .null =>
    simp only [toValue?, Option.some.injEq] at converted
    exact converted ▸ .null
  | .bool b =>
    simp only [toValue?, Option.some.injEq] at converted
    exact converted ▸ .bool b
  | .number n =>
    simp only [toValue?, Option.some.injEq] at converted
    exact converted ▸ .number _
  | .string s =>
    simp only [toValue?, Option.some.injEq] at converted
    exact converted ▸ .string s
  | .sequence items =>
    simp only [toValue?, Option.bind_eq_bind, Option.bind_eq_some_iff, Option.some.injEq]
      at converted
    rcases converted with ⟨values, all, rfl⟩
    exact .array (decoded_of_toItems? items all)
  | .mapping entries =>
    simp only [toValue?, Option.bind_eq_bind, Option.bind_eq_some_iff, Option.some.injEq]
      at converted
    rcases converted with ⟨fields, all, rfl⟩
    exact .object (Fields.nodup_keys_ofPairs fields) fun field member =>
      decoded_of_toFields? entries all field (Fields.mem_of_mem_ofPairs member)
  | .tagged tag content =>
    simp only [toValue?] at converted
    split at converted
    · exact decoded_of_toValue? content converted
    · simp only [Option.some.injEq] at converted
      exact converted ▸ .tagged _

theorem Node.decoded_of_toItems? (items : List Node) {values : List Value}
    (converted : toItems? items = some values) : ∀ value ∈ values, value.Decoded := by
  match items with
  | [] =>
    simp only [toItems?, Option.some.injEq] at converted
    simp [← converted]
  | item :: rest =>
    simp only [toItems?, Option.bind_eq_bind, Option.bind_eq_some_iff, Option.some.injEq]
      at converted
    rcases converted with ⟨first, isFirst, others, areOthers, rfl⟩
    simpa using ⟨decoded_of_toValue? item isFirst, decoded_of_toItems? rest areOthers⟩

theorem Node.decoded_of_toFields? (entries : List (Node × Node)) {fields : List (String × Value)}
    (converted : toFields? entries = some fields) : ∀ field ∈ fields, field.2.Decoded := by
  match entries with
  | [] =>
    simp only [toFields?, Option.some.injEq] at converted
    simp [← converted]
  | (key, value) :: rest =>
    simp only [toFields?, Option.bind_eq_bind, Option.bind_eq_some_iff, Option.some.injEq]
      at converted
    rcases converted with ⟨name, _, first, isFirst, others, areOthers, rfl⟩
    intro field member
    rcases List.mem_cons.mp member with rfl | member
    · exact decoded_of_toValue? value isFirst
    · exact decoded_of_toFields? rest areOthers field member

end

theorem decoded_of_decode? {text : List Char} {value : Value}
    (decoded : decode? text = some value) :
    value = .undefined ∨ value.Decoded := by
  simp only [decode?] at decoded
  split at decoded
  · exact .inl (Option.some.inj decoded).symm
  · simp only [Option.bind_eq_bind, Option.bind_eq_some_iff] at decoded
    rcases decoded with ⟨node, _, merged, _, converted⟩
    exact .inr (merged.decoded_of_toValue? converted)

end Yaml

end YamlTypes
