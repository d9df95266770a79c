import YamlTypes.Proofs.Yaml.MergeKeys

/-!
The merge rule.

An entry of a mapping itself comes before those of its sources, and a source
before the later ones; a merge key of a source counts by the same rule. Merging
keeps to it for each name that is written for one key only and that no merge key
of a source gives.
-/

set_option autoImplicit false

namespace YamlTypes.Yaml.Node

theorem everywhere_of_mem_named {property : Entries → Prop} {value : Node}
    (holds : Everywhere property value) {source : Entries} (isSource : source ∈ named value) :
    Everywhere property (.mapping source) := by
  cases holds with
  | mapping here keys values =>
      rw [named, List.mem_singleton] at isSource
      exact isSource ▸ .mapping here keys values
  | sequence each =>
      rcases List.mem_filterMap.mp isSource with ⟨item, member, isMapping⟩
      cases item with
      | mapping entries =>
          cases isMapping
          exact each _ member
      | null | bool _ | number _ | string _ | sequence _ | tagged _ _ => cases isMapping
  | null | bool _ | number _ | string _ | tagged _ => cases isSource

theorem exists_mem_of_mem_sources {entries source : Entries} (isSource : source ∈ sources entries) :
    ∃ entry ∈ entries, source ∈ named entry.2 := by
  unfold sources at isSource
  split at isSource
  next key value found => exact ⟨_, List.mem_of_find?_eq_some found, isSource⟩
  next => cases isSource

theorem Everywhere.source {property : Entries → Prop} {entries source : Entries}
    (holds : Everywhere property (.mapping entries)) (isSource : source ∈ sources entries) :
    Everywhere property (.mapping source) := by
  obtain ⟨entry, member, isNamed⟩ := exists_mem_of_mem_sources isSource
  exact everywhere_of_mem_named (holds.value member) isNamed

theorem sizeOf_lt_of_mem_named {value : Node} {source : Entries} (isSource : source ∈ named value) :
    sizeOf source < sizeOf value := by
  cases value with
  | mapping entries =>
      rw [named, List.mem_singleton] at isSource
      rw [isSource, mapping.sizeOf_spec]
      exact Nat.lt_add_of_pos_left Nat.one_pos
  | sequence items =>
      obtain ⟨item, member, isMapping⟩ := List.mem_filterMap.mp isSource
      cases item with
      | mapping entries =>
          cases isMapping
          have inItems := List.sizeOf_lt_of_mem member
          simp only [mapping.sizeOf_spec, sequence.sizeOf_spec] at inItems ⊢
          omega
      | null | bool _ | number _ | string _ | sequence _ | tagged _ _ => cases isMapping
  | null | bool _ | number _ | string _ | tagged _ _ => cases isSource

theorem sizeOf_value_lt_of_mem {entries : Entries} {entry : Node × Node}
    (member : entry ∈ entries) : sizeOf entry.2 < sizeOf entries := by
  have inEntries := List.sizeOf_lt_of_mem member
  obtain ⟨key, value⟩ := entry
  rw [Prod.mk.sizeOf_spec] at inEntries
  change sizeOf value < sizeOf entries
  omega

theorem sizeOf_lt_of_mem_sources {entries source : Entries} (isSource : source ∈ sources entries) :
    sizeOf source < sizeOf entries := by
  obtain ⟨entry, member, isNamed⟩ := exists_mem_of_mem_sources isSource
  exact Nat.lt_trans (sizeOf_lt_of_mem_named isNamed) (sizeOf_value_lt_of_mem member)

/-- The value of a name by the merge rule: that of the last entry of the mapping itself, otherwise
that of the first source that has one. -/
def lookup? (name : String) (entries : Entries) : Option Node :=
  (lastNamed? name (own entries)).or
    ((sources entries).attach.findSome? fun source => lookup? name source.1)
termination_by sizeOf entries
decreasing_by exact sizeOf_lt_of_mem_sources source.2

theorem lookup?_eq (name : String) (entries : Entries) :
    lookup? name entries =
      (lastNamed? name (own entries)).or ((sources entries).findSome? (lookup? name)) := by
  rw [lookup?, List.findSome?_subtype fun source _ => rfl, List.unattach_attach]

/-- The mapping itself has no entry of a name, and neither has the first source that gives it one:
the name comes from the merge key of that source. -/
def GivenByChain (name : String) (entries : Entries) : Prop :=
  lastNamed? name (own entries) = none ∧
    ∃ source, (sources entries).find? (fun source => (lookup? name source).isSome) = some source ∧
      lastNamed? name (own source) = none

theorem findSome?_lookup? {name : String} {lists : List Entries}
    (direct : ∀ source, lists.find? (fun source => (lookup? name source).isSome) = some source →
      lastNamed? name (own source) ≠ none) :
    lists.findSome? (lookup? name) =
      lists.findSome? fun source => lastNamed? name (own source) := by
  induction lists with
  | nil => rfl
  | cons source rest inductionHypothesis =>
      rw [List.findSome?_cons, List.findSome?_cons]
      cases found : lookup? name source with
      | none =>
          have noneOwn : lastNamed? name (own source) = none := by
            rw [lookup?_eq, Option.or_eq_none_iff] at found
            exact found.1
          rw [noneOwn]
          apply inductionHypothesis
          intro other isFirst
          apply direct other
          rwa [List.find?_cons_of_neg (by simp [found])]
      | some value =>
          obtain ⟨last, isLast⟩ := Option.ne_none_iff_exists'.mp
            (direct source (List.find?_cons_of_pos (by simp [found])))
          rw [lookup?_eq, isLast, Option.some_or] at found
          rw [isLast, found]

/-- Where no source gives a name by its merge key, only what is written counts. -/
theorem lookup?_of_not_givenByChain {name : String} {entries : Entries}
    (direct : ¬GivenByChain name entries) :
    lookup? name entries = (lastNamed? name (own entries)).or
      ((sources entries).findSome? fun source => lastNamed? name (own source)) := by
  rw [lookup?_eq]
  cases noneOwn : lastNamed? name (own entries) with
  | some value => rw [Option.some_or, Option.some_or]
  | none =>
      rw [Option.none_or, Option.none_or]
      apply findSome?_lookup?
      intro source isFirst noneThere
      exact direct ⟨noneOwn, source, isFirst, noneThere⟩

theorem DistinctKeys.own {entries : Entries} (distinct : DistinctKeys entries) :
    DistinctKeys (own entries) := List.Pairwise.filter _ distinct

theorem Faithful.undisturbed {name : String} {entries : Entries}
    (faithful : Faithful name (Node.own entries)) (distinct : DistinctKeys entries) :
    Undisturbed name entries := by
  rintro front between key value last rfl isMerge lastNamed entry member isNamed
  have ⟨apart, behind⟩ := List.pairwise_cons.mp (List.pairwise_append.mp distinct).2.1
  have owned : ∀ other ∈ between ++ [last],
      other ∈ Node.own (front ++ (key, value) :: (between ++ [last])) := by
    intro other inBack
    have different := apart other inBack
    rw [same_mergeKey isMerge] at different
    exact mem_own_iff.mpr ⟨List.mem_append_right _ (List.mem_cons_of_mem _ inBack), different⟩
  have same := (faithful last (owned last (List.mem_append_right _ (List.mem_singleton_self last)))
    lastNamed entry (owned entry (List.mem_append_left _ member))).mpr isNamed
  rw [(List.pairwise_append.mp behind).2.2 entry member last (List.mem_singleton_self last)] at same
  cases same

/-- Where a name is written for one key only, the entries of a mapping come before those of its
sources, and these in their order. -/
theorem Faithful.lastNamed?_gathered {name : String} {entries : Entries}
    (distinct : Everywhere DistinctKeys (.mapping entries))
    (faithful : Faithful name (Node.own entries ++ (sources entries).flatMap Node.own))
    (reach : Unchained entries ∨ name ≠ "<<") :
    lastNamed? name (gathered entries) = (lastNamed? name (Node.own entries)).or
      ((sources entries).findSome? fun source => lastNamed? name (Node.own source)) := by
  have ofOwn : Faithful name (Node.own entries) :=
    faithful.mono fun entry member => List.mem_append_left _ member
  rw [Node.lastNamed?_gathered distinct.here (ofOwn.undisturbed distinct.here) reach]
  cases isLast : lastNamed? name (Node.own entries) with
  | some value =>
      rcases mem_of_lastNamed? isLast with ⟨entry, member, isNamed, -⟩
      rw [added, faithful.lastNamed?_missing_of_mem member isNamed, Option.none_or, Option.some_or]
  | none =>
      have alike : ∀ source ∈ sources entries,
          lastNamed? name (Node.own source) = firstNamed? name (Node.own source) := by
        intro source isSource
        refine Faithful.lastNamed?_eq_firstNamed? (faithful.mono fun entry member => ?_)
          (distinct.source isSource).here.own
        exact List.mem_append_right _ (List.mem_flatMap.mpr ⟨source, isSource, member⟩)
      rw [added, faithful.lastNamed?_missing (lastNamed?_eq_none_iff.mp isLast),
        firstNamed?_flatMap alike, Option.or_none, Option.none_or]

/-- Merging follows the rule for every name that is written for one key only. -/
theorem Faithful.lastNamed?_gathered_eq_lookup? {name : String} {entries : Entries}
    (distinct : Everywhere DistinctKeys (.mapping entries))
    (faithful : Faithful name (Node.own entries ++ (sources entries).flatMap Node.own))
    (reach : Unchained entries ∨ name ≠ "<<") (direct : ¬GivenByChain name entries) :
    lastNamed? name (gathered entries) = lookup? name entries :=
  (faithful.lastNamed?_gathered distinct reach).trans (lookup?_of_not_givenByChain direct).symm

end YamlTypes.Yaml.Node
