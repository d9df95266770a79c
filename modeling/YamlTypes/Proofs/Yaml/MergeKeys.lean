import YamlTypes.Proofs.Yaml.KeyNames
import YamlTypes.Proofs.Yaml.Merging

/-!
Which entry a field of a decoded object comes from.

The entries of the merge sources come behind those that the mapping is written
with, each only where its key is not there yet, and of several entries that are
written alike the last one counts. So an entry of the mapping itself comes before
those of its sources as long as keys are written alike exactly if they are the
same, and a source before those that come after it.
-/

set_option autoImplicit false

namespace YamlTypes.Yaml.Node

def added (entries : Entries) : Entries :=
  missing (own entries) ((sources entries).flatMap own)

/-- No merge source has a merge key of its own. -/
def Unchained (entries : Entries) : Prop :=
  ∀ source ∈ sources entries, ∀ entry ∈ source, isMergeKey entry.1 = false

/-- The keys written as a name are all one key, which is not written in another way. -/
def Faithful (name : String) (entries : Entries) : Prop :=
  ∀ entry ∈ entries, entry.1.keyName? = some name → ∀ other ∈ entries,
    entry.1.same other.1 = true ↔ other.1.keyName? = some name

/-- The last entry, which takes the place of the merge key, overtakes no other entry of a name. -/
def Undisturbed (name : String) (entries : Entries) : Prop :=
  ∀ (front between : Entries) (key value : Node) (last : Node × Node),
    entries = front ++ (key, value) :: (between ++ [last]) → isMergeKey key = true →
      last.1.keyName? = some name → ∀ entry ∈ between, entry.1.keyName? ≠ some name

theorem mem_own_iff {entries : Entries} {entry : Node × Node} :
    entry ∈ own entries ↔ entry ∈ entries ∧ isMergeKey entry.1 = false := by
  rw [own, List.mem_filter, Bool.not_eq_true']

theorem own_of_forall {entries : Entries}
    (noMergeKey : ∀ entry ∈ entries, isMergeKey entry.1 = false) : own entries = entries := by
  rw [own, List.filter_eq_self]
  intro entry member
  rw [noMergeKey entry member]
  rfl

theorem own_flatten (lists : List Entries) : own lists.flatten = lists.flatMap own := by
  rw [own, List.filter_flatten, List.flatMap_def]
  rfl

def lastFirst (entries : Entries) : Entries :=
  match entries.getLast? with
  | none => []
  | some last => last :: entries.dropLast

theorem takeMerge_append {front back : Entries} {key value : Node}
    (before : ∀ entry ∈ front, isMergeKey entry.1 = false) (isMerge : isMergeKey key = true) :
    (takeMerge (front ++ (key, value) :: back)).2 = front ++ lastFirst back := by
  induction front with
  | nil =>
      rw [List.nil_append, takeMerge, if_pos isMerge, lastFirst]
      cases back.getLast? <;> rfl
  | cons entry rest inductionHypothesis =>
      rw [List.forall_mem_cons] at before
      rw [List.cons_append, takeMerge, if_neg (Bool.eq_false_iff.mp before.1)]
      exact congrArg (entry :: ·) (inductionHypothesis before.2)

/-- A mapping has no merge key, or one that the last entry takes the place of. -/
theorem kept_cases {entries : Entries} (distinct : DistinctKeys entries) :
    ((takeMerge entries).2 = entries ∧ own entries = entries) ∨
      ∃ front key value back, entries = front ++ (key, value) :: back ∧ isMergeKey key = true ∧
        (takeMerge entries).2 = front ++ lastFirst back ∧ own entries = front ++ back := by
  cases found : entries.find? fun entry => isMergeKey entry.1 with
  | none =>
      have noMergeKey : ∀ entry ∈ entries, isMergeKey entry.1 = false := by
        simpa only [List.find?_eq_none, Bool.not_eq_true] using found
      exact .inl ⟨by rw [takeMerge_of_forall noMergeKey], own_of_forall noMergeKey⟩
  | some entry =>
      rcases List.find?_eq_some_iff_append.mp found with ⟨isMerge, front, back, rfl, before⟩
      simp only [Bool.not_eq_true'] at before
      obtain ⟨key, value⟩ := entry
      have behind : ∀ entry ∈ back, isMergeKey entry.1 = false := by
        intro entry member
        have apart := (List.pairwise_cons.mp (List.pairwise_append.mp distinct).2.1).1 entry member
        rwa [same_mergeKey isMerge] at apart
      refine .inr ⟨front, key, value, back, rfl, isMerge, takeMerge_append before isMerge, ?_⟩
      have dropped : own ((key, value) :: back) = own back := by
        rw [own, List.filter_cons, isMerge]
        rfl
      calc own (front ++ (key, value) :: back)
          = own front ++ own ((key, value) :: back) := List.filter_append _ _
        _ = front ++ back := by rw [dropped, own_of_forall before, own_of_forall behind]

theorem mem_lastFirst {entries : Entries} {entry : Node × Node} :
    entry ∈ lastFirst entries ↔ entry ∈ entries := by
  unfold lastFirst
  cases last : entries.getLast? with
  | none => rw [List.getLast?_eq_none_iff.mp last]
  | some final =>
      rcases List.getLast?_eq_some_iff.mp last with ⟨front, rfl⟩
      rw [List.dropLast_concat, List.mem_cons, List.mem_append, List.mem_singleton, or_comm]

theorem mem_kept_iff {entries : Entries} (distinct : DistinctKeys entries) {entry : Node × Node} :
    entry ∈ (takeMerge entries).2 ↔ entry ∈ own entries := by
  rcases kept_cases distinct with ⟨kept, owned⟩ | ⟨front, key, value, back, -, -, kept, owned⟩
  · rw [kept, owned]
  · rw [kept, owned, List.mem_append, List.mem_append, mem_lastFirst]

theorem mem_of_mem_missing {entries incoming : Entries} {entry : Node × Node}
    (member : entry ∈ missing entries incoming) : entry ∈ incoming := by
  induction incoming generalizing entries with
  | nil => cases member
  | cons first rest inductionHypothesis =>
      unfold missing at member
      split at member
      next => exact List.mem_cons_of_mem _ (inductionHypothesis member)
      next =>
        rcases List.mem_cons.mp member with rfl | later
        · exact List.mem_cons_self
        · exact List.mem_cons_of_mem _ (inductionHypothesis later)

theorem own_cons_of_isMergeKey {entry : Node × Node} (isMerge : isMergeKey entry.1 = true)
    (rest : Entries) : own (entry :: rest) = own rest := by
  rw [own, List.filter_cons, isMerge]
  rfl

theorem own_cons_of_not_isMergeKey {entry : Node × Node} (other : isMergeKey entry.1 = false)
    (rest : Entries) : own (entry :: rest) = entry :: own rest := by
  rw [own, List.filter_cons, other]
  rfl

/-- Whether a key other than a merge key is there is all that counts for what is missing. -/
def HaveAlike (entries others : Entries) : Prop :=
  ∀ key, isMergeKey key = false →
    (entries.any fun entry => key.same entry.1) = others.any fun entry => key.same entry.1

theorem HaveAlike.concat_mergeKey {entries others : Entries} (alike : HaveAlike entries others)
    {entry : Node × Node} (isMerge : isMergeKey entry.1 = true) :
    HaveAlike (entries ++ [entry]) others := by
  intro key other
  rw [List.any_append, List.any_cons, List.any_nil, same_mergeKey isMerge, other, Bool.or_false,
    Bool.or_false, alike key other]

theorem HaveAlike.concat {entries others : Entries} (alike : HaveAlike entries others)
    (entry : Node × Node) : HaveAlike (entries ++ [entry]) (others ++ [entry]) := by
  intro key other
  rw [List.any_append, List.any_append, alike key other]

theorem own_missing {entries others : Entries} (alike : HaveAlike entries others)
    (incoming : Entries) : own (missing entries incoming) = missing others (own incoming) := by
  -- What was taken before grows with every entry, so both lists stay general.
  induction incoming generalizing entries others with
  | nil => rfl
  | cons entry rest inductionHypothesis =>
      cases isMerge : isMergeKey entry.1 with
      | true =>
          rw [own_cons_of_isMergeKey isMerge, missing]
          split
          next => exact inductionHypothesis alike
          next =>
            rw [own_cons_of_isMergeKey isMerge]
            exact inductionHypothesis (alike.concat_mergeKey isMerge)
      | false =>
          rw [own_cons_of_not_isMergeKey isMerge, missing, missing, alike entry.1 isMerge]
          split
          next => exact inductionHypothesis alike
          next =>
            rw [own_cons_of_not_isMergeKey isMerge, inductionHypothesis (alike.concat entry)]

theorem haveAlike_kept {entries : Entries} (distinct : DistinctKeys entries) :
    HaveAlike (takeMerge entries).2 (own entries) := by
  intro key _
  rw [Bool.eq_iff_iff, List.any_eq_true, List.any_eq_true]
  exact exists_congr fun entry => and_congr_left' (mem_kept_iff distinct)

theorem own_missing_kept {entries : Entries} (distinct : DistinctKeys entries) :
    own (missing (takeMerge entries).2 (sources entries).flatten) = added entries := by
  rw [own_missing (haveAlike_kept distinct), own_flatten]
  rfl

theorem mem_gathered_of_mem_own {entries : Entries} (distinct : DistinctKeys entries)
    {entry : Node × Node} (member : entry ∈ own entries) : entry ∈ gathered entries :=
  List.mem_append_left _ ((mem_kept_iff distinct).mpr member)

theorem lastNamed?_append (name : String) (first second : Entries) :
    lastNamed? name (first ++ second) =
      (lastNamed? name second).or (lastNamed? name first) := by
  induction first with
  | nil => exact (Option.or_none).symm
  | cons entry rest inductionHypothesis =>
      rw [List.cons_append, lastNamed?, lastNamed?, inductionHypothesis, Option.or_assoc]

theorem lastNamed?_eq_none_iff {name : String} {entries : Entries} :
    lastNamed? name entries = none ↔ ∀ entry ∈ entries, entry.1.keyName? ≠ some name := by
  induction entries with
  | nil => exact iff_of_true rfl (List.forall_mem_nil _)
  | cons entry rest inductionHypothesis =>
      rw [lastNamed?, Option.or_eq_none_iff, inductionHypothesis, List.forall_mem_cons, and_comm]
      apply and_congr_left'
      by_cases same : entry.1.keyName? = some name
      · rw [if_pos same]
        exact iff_of_false (Option.some_ne_none _) (not_not_intro same)
      · rw [if_neg same]
        exact iff_of_true rfl same

theorem mem_of_lastNamed? {name : String} {entries : Entries} {value : Node}
    (isLast : lastNamed? name entries = some value) :
    ∃ entry ∈ entries, entry.1.keyName? = some name ∧ entry.2 = value := by
  induction entries with
  | nil => cases isLast
  | cons entry rest inductionHypothesis =>
      rw [lastNamed?, Option.or_eq_some_iff] at isLast
      rcases isLast with later | ⟨-, first⟩
      · rcases inductionHypothesis later with ⟨found, member, isNamed, isValue⟩
        exact ⟨found, List.mem_cons_of_mem _ member, isNamed, isValue⟩
      · split at first
        next isNamed => exact ⟨entry, List.mem_cons_self, isNamed, Option.some.inj first⟩
        next => cases first

theorem lastNamed?_own {name : String} (other : name ≠ "<<") (entries : Entries) :
    lastNamed? name (own entries) = lastNamed? name entries := by
  induction entries with
  | nil => rfl
  | cons entry rest inductionHypothesis =>
      cases isMerge : isMergeKey entry.1 with
      | true =>
          have apart : entry.1.keyName? ≠ some name := by
            rw [eq_of_isMergeKey isMerge]
            exact fun same => other (Option.some.inj same).symm
          rw [own_cons_of_isMergeKey isMerge, lastNamed?, if_neg apart, Option.or_none,
            inductionHypothesis]
      | false =>
          rw [own_cons_of_not_isMergeKey isMerge, lastNamed?, lastNamed?, inductionHypothesis]

theorem lastNamed?_kept {name : String} {entries : Entries} (distinct : DistinctKeys entries)
    (undisturbed : Undisturbed name entries) :
    lastNamed? name (takeMerge entries).2 = lastNamed? name (own entries) := by
  rcases kept_cases distinct with
    ⟨kept, owned⟩ | ⟨front, key, value, back, split, isMerge, kept, owned⟩
  · rw [kept, owned]
  · -- Only the last entry has changed its place, and now it stands before those in between.
    rw [kept, owned, lastNamed?_append, lastNamed?_append]
    refine congrArg (Option.or · _) ?_
    unfold lastFirst
    cases last : back.getLast? with
    | none => rw [List.getLast?_eq_none_iff.mp last]
    | some final =>
        rcases List.getLast?_eq_some_iff.mp last with ⟨between, rfl⟩
        dsimp only
        rw [List.dropLast_concat, lastNamed?_append, lastNamed?, lastNamed?, lastNamed?,
          Option.none_or]
        split
        next same =>
          rw [lastNamed?_eq_none_iff.mpr (undisturbed _ _ _ _ _ split isMerge same)]
          rfl
        next => exact Option.or_none

theorem lastNamed?_gathered {name : String} {entries : Entries} (distinct : DistinctKeys entries)
    (undisturbed : Undisturbed name entries) (reach : Unchained entries ∨ name ≠ "<<") :
    lastNamed? name (gathered entries) =
      (lastNamed? name (added entries)).or (lastNamed? name (own entries)) := by
  rw [gathered, lastNamed?_append, lastNamed?_kept distinct undisturbed,
    ← own_missing_kept distinct]
  refine congrArg (Option.or · _) ?_
  rcases reach with unchained | other
  · rw [own_of_forall]
    intro entry member
    rcases List.mem_flatten.mp (mem_of_mem_missing member) with ⟨source, isSource, inSource⟩
    exact unchained source isSource entry inSource
  · exact (lastNamed?_own other _).symm

theorem Faithful.mono {name : String} {entries larger : Entries} (faithful : Faithful name larger)
    (within : ∀ entry ∈ entries, entry ∈ larger) : Faithful name entries :=
  fun entry member isNamed other otherMember =>
    faithful entry (within entry member) isNamed other (within other otherMember)

def firstNamed? (name : String) : Entries → Option Node
  | [] => none
  | (key, value) :: rest => if key.keyName? = some name then some value else firstNamed? name rest

theorem firstNamed?_append (name : String) (first second : Entries) :
    firstNamed? name (first ++ second) =
      (firstNamed? name first).or (firstNamed? name second) := by
  induction first with
  | nil => exact Option.none_or.symm
  | cons entry rest inductionHypothesis =>
      rw [List.cons_append, firstNamed?, firstNamed?, inductionHypothesis]
      split
      next => exact Option.some_or.symm
      next => rfl

/-- Where a name has one key, there is at most one entry of it. -/
theorem Faithful.lastNamed?_eq_firstNamed? {name : String} {entries : Entries}
    (faithful : Faithful name entries) (distinct : DistinctKeys entries) :
    lastNamed? name entries = firstNamed? name entries := by
  induction entries with
  | nil => rfl
  | cons entry rest inductionHypothesis =>
      have ofRest := inductionHypothesis
        (faithful.mono fun other member => List.mem_cons_of_mem _ member)
        (List.Pairwise.of_cons distinct)
      rw [lastNamed?, firstNamed?]
      split
      next isNamed =>
        have alone : ∀ other ∈ rest, other.1.keyName? ≠ some name := by
          intro other member named
          have same := (faithful other (List.mem_cons_of_mem _ member) named entry
            List.mem_cons_self).mpr isNamed
          rw [(List.pairwise_cons.mp distinct).1 other member] at same
          cases same
        rw [lastNamed?_eq_none_iff.mpr alone, Option.none_or]
      next => rw [Option.or_none, ofRest]

theorem not_same_of_mem_missing {base incoming : Entries} {entry : Node × Node}
    (member : entry ∈ missing base incoming) : ∀ there ∈ base, entry.1.same there.1 = false := by
  induction incoming generalizing base with
  | nil => cases member
  | cons first rest inductionHypothesis =>
      unfold missing at member
      split at member
      next => exact inductionHypothesis member
      next new =>
        rcases List.mem_cons.mp member with rfl | later
        · exact fun there inBase => Bool.eq_false_iff.mpr fun same =>
            new (List.any_eq_true.mpr ⟨there, inBase, same⟩)
        · exact fun there inBase => inductionHypothesis later there (List.mem_append_left _ inBase)

theorem Faithful.lastNamed?_missing_of_mem {name : String} {base incoming : Entries}
    (faithful : Faithful name (base ++ incoming)) {there : Node × Node}
    (member : there ∈ base) (isNamed : there.1.keyName? = some name) :
    lastNamed? name (missing base incoming) = none := by
  refine lastNamed?_eq_none_iff.mpr fun entry isMissing alsoNamed => ?_
  have same := (faithful entry (List.mem_append_right _ (mem_of_mem_missing isMissing)) alsoNamed
    there (List.mem_append_left _ member)).mpr isNamed
  rw [not_same_of_mem_missing isMissing there member] at same
  cases same

/-- What is missing has the first entry of a name that is not there yet. -/
theorem Faithful.lastNamed?_missing {name : String} {base incoming : Entries}
    (faithful : Faithful name (base ++ incoming))
    (absent : ∀ entry ∈ base, entry.1.keyName? ≠ some name) :
    lastNamed? name (missing base incoming) = firstNamed? name incoming := by
  induction incoming generalizing base with
  | nil => rfl
  | cons entry rest inductionHypothesis =>
      have grown : Faithful name (base ++ [entry] ++ rest) := by
        rwa [List.append_assoc, List.singleton_append]
      rw [missing, firstNamed?]
      by_cases isNamed : entry.1.keyName? = some name
      · have new : ¬(base.any fun other => entry.1.same other.1) = true := by
          rw [List.any_eq_true]
          rintro ⟨there, member, same⟩
          have alike := (faithful entry (List.mem_append_right _ List.mem_cons_self) isNamed there
            (List.mem_append_left _ member)).mp same
          exact absent there member alike
        have nothingElse := grown.lastNamed?_missing_of_mem
          (List.mem_append_right _ (List.mem_singleton_self entry)) isNamed
        rw [if_neg new, if_pos isNamed, lastNamed?, nothingElse, if_pos isNamed, Option.none_or]
      · rw [if_neg isNamed]
        split
        next =>
          refine inductionHypothesis (faithful.mono fun other member => ?_) absent
          exact (List.mem_append.mp member).elim (List.mem_append_left _)
            fun later => List.mem_append_right _ (List.mem_cons_of_mem _ later)
        next =>
          rw [lastNamed?, if_neg isNamed, Option.or_none]
          refine inductionHypothesis grown fun other member => ?_
          rcases List.mem_append.mp member with before | last
          · exact absent other before
          · rwa [List.mem_singleton.mp last]

theorem firstNamed?_flatMap {lists : List Entries} {name : String}
    (alike : ∀ entries ∈ lists, lastNamed? name (own entries) = firstNamed? name (own entries)) :
    firstNamed? name (lists.flatMap own) =
      lists.findSome? fun entries => lastNamed? name (own entries) := by
  induction lists with
  | nil => rfl
  | cons entries rest inductionHypothesis =>
      rw [List.forall_mem_cons] at alike
      rw [List.flatMap_cons, firstNamed?_append, inductionHypothesis alike.2, List.findSome?_cons,
        alike.1]
      cases firstNamed? name (own entries) <;> rfl

end YamlTypes.Yaml.Node
