import Mathlib.Data.List.Forall2
import YamlTypes.Proofs.Yaml.Tree
import YamlTypes.Yaml.Decode

/-!
What merging and conversion make of a mapping together.

The entries of the named mappings are gathered behind those that the mapping
keeps, and each is converted by itself. So the data of a node does not depend on
where it stands, and a field holds the data of the last gathered entry with its
name.
-/

set_option autoImplicit false

namespace YamlTypes.Yaml.Node

/-- The data of a node with all merge keys applied. -/
def data? (node : Node) : Option Value := node.merge?.bind toValue?

/-- The entries of a mapping without its merge key. -/
def own (entries : Entries) : Entries := entries.filter fun entry => !isMergeKey entry.1

/-- The mappings that a value names under a merge key. -/
def named : Node → List Entries
  | .mapping entries => [entries]
  | .sequence items => items.filterMap fun
    | .mapping entries => some entries
    | _ => none
  | _ => []

/-- The mappings that the merge key of a mapping names. -/
def sources (entries : Entries) : List Entries :=
  match entries.find? fun entry => isMergeKey entry.1 with
  | some (_, value) => named value
  | none => []

/-- The entries of a list whose keys neither some others have nor those that are taken before. -/
def missing (entries : Entries) : Entries → Entries
  | [] => []
  | entry :: rest =>
    if entries.any fun other => entry.1.same other.1 then missing entries rest
    else entry :: missing (entries ++ [entry]) rest

/-- The value of the last entry whose key is written as a name. -/
def lastNamed? (name : String) : Entries → Option Node
  | [] => none
  | (key, value) :: rest =>
    (lastNamed? name rest).or (if key.keyName? = some name then some value else none)

/-- The entries that a mapping has after merging. -/
def gathered (entries : Entries) : Entries :=
  (takeMerge entries).2 ++ missing (takeMerge entries).2 (sources entries).flatten

/-- An entry as merging passes it on. -/
def toPending (entry : Node × Node) : Pending := (entry.1, fun _ => merge? entry.2)

section
variable {α β : Type} (f : α → β)

theorem takeMerge_map (entries : List (Node × α)) :
    takeMerge (entries.map fun entry => (entry.1, f entry.2)) =
      ((takeMerge entries).1.map f,
        (takeMerge entries).2.map fun entry => (entry.1, f entry.2)) := by
  induction entries with
  | nil => rfl
  | cons entry rest inductionHypothesis =>
      simp only [List.map_cons, takeMerge]
      split
      next =>
        rw [List.getLast?_map]
        cases rest.getLast? with
        | none => rfl
        | some last => simp only [Option.map_some, List.map_cons, List.map_dropLast]
      next => rw [inductionHypothesis]; rfl

theorem takeMerge_fst (entries : List (Node × α)) :
    (takeMerge entries).1 =
      (entries.find? fun entry => isMergeKey entry.1).map Prod.snd := by
  induction entries with
  | nil => rfl
  | cons entry rest inductionHypothesis =>
      simp only [takeMerge, List.find?_cons]
      split
      next isMerge =>
        rw [isMerge]
        cases rest.getLast? <;> rfl
      next other =>
        rw [Bool.eq_false_iff.mpr other]
        exact inductionHypothesis

theorem takeMerge_of_forall {entries : List (Node × α)}
    (noMergeKey : ∀ entry ∈ entries, isMergeKey entry.1 = false) :
    takeMerge entries = (none, entries) := by
  induction entries with
  | nil => rfl
  | cons entry rest inductionHypothesis =>
      rw [List.forall_mem_cons] at noMergeKey
      rw [takeMerge, if_neg (Bool.eq_false_iff.mp noMergeKey.1), inductionHypothesis noMergeKey.2]

theorem addMissing_map (entries incoming : List (Node × α)) :
    addMissing (entries.map fun entry => (entry.1, f entry.2))
        (incoming.map fun entry => (entry.1, f entry.2)) =
      (addMissing entries incoming).map fun entry => (entry.1, f entry.2) := by
  induction incoming generalizing entries with
  | nil => rfl
  | cons entry rest inductionHypothesis =>
      simp only [List.map_cons, addMissing, List.any_map, Function.comp_def]
      split
      next => exact inductionHypothesis entries
      next =>
        rw [← inductionHypothesis (entries ++ [entry]), List.map_append]
        rfl

end

theorem addMissing_eq (entries incoming : Entries) :
    addMissing entries incoming = entries ++ missing entries incoming := by
  induction incoming generalizing entries with
  | nil => exact (List.append_nil entries).symm
  | cons entry rest inductionHypothesis =>
      simp only [addMissing, missing]
      split
      next => exact inductionHypothesis entries
      next => rw [inductionHypothesis, List.append_assoc, List.singleton_append]

theorem mergingEntries_eq (entries : Entries) :
    mergingEntries entries =
      entries.map fun entry => (entry.1, ⟨fun _ => merge? entry.2, fun _ => sources? entry.2⟩) := by
  induction entries with
  | nil => rfl
  | cons entry rest inductionHypothesis => rw [mergingEntries, inductionHypothesis]; rfl

theorem pending_mergingEntries (entries : Entries) :
    pending (mergingEntries entries) = entries.map toPending := by
  rw [mergingEntries_eq, pending, List.map_map]
  rfl

theorem itemSources?_eq {items : List Node} {incoming : List Pending}
    (found : itemSources? items = some incoming) :
    incoming = (named (.sequence items)).flatten.map toPending := by
  induction items generalizing incoming with
  | nil =>
      cases found
      rfl
  | cons item rest inductionHypothesis =>
      cases item with
      | mapping entries =>
          simp only [itemSources?, Option.bind_eq_bind, Option.bind_eq_some_iff,
            Option.some.injEq] at found
          rcases found with ⟨later, areLater, rfl⟩
          rw [inductionHypothesis areLater, pending_mergingEntries]
          simp only [named, List.filterMap_cons, List.flatten_cons, List.map_append]
      | null | bool _ | number _ | string _ | sequence _ | tagged _ _ => cases found

theorem sources?_eq {value : Node} {incoming : List Pending}
    (found : sources? value = some incoming) :
    incoming = (named value).flatten.map toPending := by
  cases value with
  | mapping entries =>
      cases found
      rw [pending_mergingEntries, named, List.flatten_singleton]
  | sequence items => exact itemSources?_eq found
  | null | bool _ | number _ | string _ | tagged _ _ => cases found

theorem applyMergeKey?_eq {entries : Entries} {merged : List Pending}
    (applied : applyMergeKey? (mergingEntries entries) = some merged) :
    merged = (gathered entries).map toPending := by
  have parts := takeMerge_map
    (fun value => (⟨fun _ => merge? value, fun _ => sources? value⟩ : Merging)) entries
  rw [← mergingEntries_eq, takeMerge_fst] at parts
  unfold applyMergeKey? at applied
  rw [parts] at applied
  unfold gathered sources
  cases found : entries.find? fun entry => isMergeKey entry.1 with
  | none =>
      have noMergeKey : ∀ entry ∈ entries, isMergeKey entry.1 = false := by
        simpa only [List.find?_eq_none, Bool.not_eq_true] using found
      simp only [found, Option.map_none, Option.some.injEq] at applied
      rw [← applied, pending_mergingEntries, takeMerge_of_forall noMergeKey, List.flatten_nil,
        missing, List.append_nil]
  | some entry =>
      simp only [found, Option.map_some, Option.bind_eq_bind, Option.bind_eq_some_iff,
        Option.some.injEq] at applied
      rcases applied with ⟨incoming, isIncoming, rfl⟩
      rw [sources?_eq isIncoming, pending, List.map_map, ← addMissing_eq]
      exact addMissing_map (fun value _ => merge? value) _ _

/-- A gathered entry gives the field with its key's name and its value's data. -/
structure Gives (entry : Node × Node) (field : String × Value) : Prop where
  name : entry.1.keyName? = some field.1
  data : entry.2.data? = some field.2

theorem gives_of_settle? {entries : Entries} {settled : List (Node × Node)}
    {fields : List (String × Value)} (merged : settle? (entries.map toPending) = some settled)
    (converted : toFields? settled = some fields) : List.Forall₂ Gives entries fields := by
  induction entries generalizing settled fields with
  | nil =>
      cases merged
      cases converted
      exact .nil
  | cons entry rest inductionHypothesis =>
      simp only [List.map_cons, toPending, settle?, Option.bind_eq_bind, Option.bind_eq_some_iff,
        Option.some.injEq] at merged
      rcases merged with ⟨value, isMerged, others, othersMerged, rfl⟩
      simp only [toFields?, Option.bind_eq_bind, Option.bind_eq_some_iff, Option.some.injEq]
        at converted
      rcases converted with ⟨name, isName, data, isData, later, laterConverted, rfl⟩
      refine .cons ⟨isName, ?_⟩ (inductionHypothesis othersMerged laterConverted)
      rw [data?, isMerged]
      exact isData

theorem exists_fields_of_data? {entries : Entries} {value : Value}
    (isData : (mapping entries).data? = some value) :
    ∃ fields, value = .object (Fields.ofPairs fields) ∧
      List.Forall₂ Gives (gathered entries) fields := by
  rcases Option.bind_eq_some_iff.mp isData with ⟨merged, isMerged, converted⟩
  simp only [merge?, Option.bind_eq_bind, Option.bind_eq_some_iff, Option.some.injEq] at isMerged
  rcases isMerged with ⟨pend, applied, settled, isSettled, rfl⟩
  simp only [toValue?, Option.bind_eq_bind, Option.bind_eq_some_iff, Option.some.injEq]
    at converted
  rcases converted with ⟨fields, areFields, rfl⟩
  rw [applyMergeKey?_eq applied] at isSettled
  exact ⟨fields, rfl, gives_of_settle? isSettled areFields⟩

theorem get?_foldl_insert {entries : Entries} {fields : List (String × Value)}
    (given : List.Forall₂ Gives entries fields) (name : String) (before : List (String × Value)) :
    Fields.get? name
        (fields.foldl (fun fields field => Fields.insert field.1 field.2 fields) before) =
      match lastNamed? name entries with
      | some value => value.data?
      | none => Fields.get? name before := by
  -- Fields are set one after the other, so what was set before stays general.
  induction given generalizing before with
  | nil => rfl
  | @cons entry field rest later gives _ inductionHypothesis =>
      obtain ⟨key, value⟩ := entry
      rw [List.foldl_cons, inductionHypothesis, lastNamed?]
      cases lastNamed? name rest with
      | some last => rfl
      | none =>
          simp only [Option.none_or, Fields.get?_insert, gives.name, Option.some.injEq]
          split
          next => exact gives.data.symm
          next => rfl

theorem get?_ofPairs {entries : Entries} {fields : List (String × Value)}
    (given : List.Forall₂ Gives entries fields) (name : String) :
    Fields.get? name (Fields.ofPairs fields) = (lastNamed? name entries).bind data? := by
  rw [Fields.ofPairs, get?_foldl_insert given]
  cases lastNamed? name entries <;> rfl

end YamlTypes.Yaml.Node
