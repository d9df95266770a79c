import Mathlib.Data.List.Forall2
import Mathlib.Data.List.Induction
import Mathlib.Data.List.Nodup
import YamlTypes.Fields

/-!
Fields read from pairs: each key stands once, nothing is made up, and pairs whose
keys are distinct are kept as they are.
-/

set_option autoImplicit false

namespace YamlTypes.Fields

variable {α : Type} {key : String} {x : α} {pair : String × α} {fields pairs : List (String × α)}

theorem mem_of_mem_insert (member : pair ∈ insert key x fields) :
    pair = (key, x) ∨ pair ∈ fields := by
  induction fields with
  | nil => simpa [insert] using member
  | cons first rest inductionHypothesis =>
    simp only [insert] at member
    split at member <;> grind

theorem insert_of_notMem (new : key ∉ fields.map Prod.fst) :
    insert key x fields = fields ++ [(key, x)] := by
  induction fields with
  | nil => rfl
  | cons first rest inductionHypothesis =>
    have ⟨other, newInRest⟩ : key ≠ first.1 ∧ key ∉ rest.map Prod.fst := by simpa using new
    simp only [insert, if_neg other.symm, inductionHypothesis newInRest, List.cons_append]

theorem nodup_keys_insert (distinct : (fields.map Prod.fst).Nodup) :
    ((insert key x fields).map Prod.fst).Nodup := by
  rw [keys_insert]
  split
  · exact distinct
  · rename_i new
    exact List.nodup_append.mpr ⟨distinct, by simp, by grind⟩

theorem ofPairs_concat (pairs : List (String × α)) (pair : String × α) :
    ofPairs (pairs ++ [pair]) = insert pair.1 pair.2 (ofPairs pairs) := by
  simp [ofPairs]

theorem mem_of_mem_ofPairs (member : pair ∈ ofPairs pairs) : pair ∈ pairs := by
  induction pairs using List.reverseRecOn with
  | nil => exact member
  | append_singleton pairs last inductionHypothesis =>
    rw [ofPairs_concat] at member
    rcases mem_of_mem_insert member with rfl | member
    · simp
    · simp [inductionHypothesis member]

theorem nodup_keys_ofPairs (pairs : List (String × α)) :
    ((ofPairs pairs).map Prod.fst).Nodup := by
  induction pairs using List.reverseRecOn with
  | nil => simp [ofPairs]
  | append_singleton pairs last inductionHypothesis =>
    rw [ofPairs_concat]
    exact nodup_keys_insert inductionHypothesis

theorem ofPairs_of_nodup (distinct : (pairs.map Prod.fst).Nodup) : ofPairs pairs = pairs := by
  induction pairs using List.reverseRecOn with
  | nil => rfl
  | append_singleton pairs last inductionHypothesis =>
    rw [List.map_append, List.nodup_append] at distinct
    have new : last.1 ∉ pairs.map Prod.fst := by
      intro member
      exact distinct.2.2 _ member _ (by simp) rfl
    rw [ofPairs_concat, inductionHypothesis distinct.1, insert_of_notMem new]

theorem eraseDups_concat (names : List String) (last : String) :
    (names ++ [last]).eraseDups =
      if last ∈ names then names.eraseDups else names.eraseDups ++ [last] := by
  rw [List.eraseDups_append]
  split
  next known =>
    have nothing : [last].removeAll names = [] := by
      simp only [List.removeAll, List.elem_eq_mem, known, decide_true, Bool.not_true,
        List.filter_cons, Bool.false_eq_true, if_false, List.filter_nil]
    rw [nothing, List.eraseDups_nil, List.append_nil]
  next new =>
    have itself : [last].removeAll names = [last] := by
      simp only [List.removeAll, List.elem_eq_mem, new, decide_false, Bool.not_false,
        List.filter_cons, if_true, List.filter_nil]
    rw [itself]
    rfl

/-- Keys stand where they first occur. -/
theorem keys_ofPairs (pairs : List (String × α)) :
    (ofPairs pairs).map Prod.fst = (pairs.map Prod.fst).eraseDups := by
  induction pairs using List.reverseRecOn with
  | nil => rfl
  | append_singleton pairs last inductionHypothesis =>
    rw [ofPairs_concat, keys_insert, inductionHypothesis, List.map_append, List.map_singleton,
      eraseDups_concat]
    simp only [List.mem_eraseDups]

theorem eraseDups_of_nodup {names : List String} (distinct : names.Nodup) :
    names.eraseDups = names := by
  induction names with
  | nil => rfl
  | cons name rest inductionHypothesis =>
    rw [List.nodup_cons] at distinct
    have others : (rest.filter fun other => !other == name) = rest := by
      apply List.filter_eq_self.mpr
      intro other member
      rw [Bool.not_eq_true', beq_eq_false_iff_ne]
      rintro rfl
      exact distinct.1 member
    rw [List.eraseDups_cons, others, inductionHypothesis distinct.2]

theorem pairwise_idxOf_eraseDups (names : List String) :
    names.eraseDups.Pairwise fun first second => names.idxOf first < names.idxOf second := by
  induction names using List.reverseRecOn with
  | nil => exact .nil
  | append_singleton names last inductionHypothesis =>
    have before : names.eraseDups.Pairwise fun first second =>
        (names ++ [last]).idxOf first < (names ++ [last]).idxOf second := by
      refine inductionHypothesis.imp_of_mem fun {first second} isFirst isSecond earlier => ?_
      rwa [List.idxOf_append_of_mem (List.mem_eraseDups.mp isFirst),
        List.idxOf_append_of_mem (List.mem_eraseDups.mp isSecond)]
    rw [eraseDups_concat]
    split
    next => exact before
    next new =>
      refine List.pairwise_append.mpr ⟨before, List.pairwise_singleton _ _, ?_⟩
      intro first isFirst second isLast
      have known := List.mem_eraseDups.mp isFirst
      rw [List.mem_singleton.mp isLast, List.idxOf_append_of_mem known,
        List.idxOf_append_of_notMem new]
      exact Nat.lt_add_right _ (List.idxOf_lt_length_of_mem known)

theorem exists_of_get?_eq_some (found : get? key fields = some x) :
    ∃ front back, fields = front ++ (key, x) :: back ∧ key ∉ front.map Prod.fst := by
  induction fields with
  | nil => cases found
  | cons field rest inductionHypothesis =>
    obtain ⟨name, value⟩ := field
    rw [get?] at found
    split at found
    next same =>
      cases found
      exact ⟨[], rest, by rw [same]; rfl, List.not_mem_nil⟩
    next other =>
      rcases inductionHypothesis found with ⟨front, back, rfl, new⟩
      refine ⟨(name, value) :: front, back, rfl, ?_⟩
      rw [List.map_cons, List.mem_cons, not_or]
      exact ⟨Ne.symm other, new⟩

def Last (key : String) (x : α) (pairs : List (String × α)) : Prop :=
  ∃ front back, pairs = front ++ (key, x) :: back ∧ key ∉ back.map Prod.fst

theorem last_of_get?_ofPairs (found : get? key (ofPairs pairs) = some x) : Last key x pairs := by
  induction pairs using List.reverseRecOn with
  | nil => cases found
  | append_singleton pairs last inductionHypothesis =>
    obtain ⟨name, value⟩ := last
    rw [ofPairs_concat, get?_insert] at found
    split at found
    next same =>
      cases found
      exact ⟨pairs, [], by rw [← same], List.not_mem_nil⟩
    next other =>
      rcases inductionHypothesis found with ⟨front, back, rfl, new⟩
      refine ⟨front, back ++ [(name, value)], by rw [List.append_assoc]; rfl, ?_⟩
      rw [List.map_append, List.map_singleton, List.mem_append, List.mem_singleton, not_or]
      exact ⟨new, Ne.symm other⟩

theorem get?_map {β : Type} (f : α → β) (key : String) (fields : List (String × α)) :
    get? key (fields.map fun field => (field.1, f field.2)) = (get? key fields).map f := by
  induction fields with
  | nil => rfl
  | cons field rest inductionHypothesis =>
    obtain ⟨name, value⟩ := field
    simp only [List.map_cons, get?, inductionHypothesis]
    split <;> rfl

theorem get?_of_mem (distinct : (pairs.map Prod.fst).Nodup) (member : (key, x) ∈ pairs) :
    get? key pairs = some x := by
  induction pairs with
  | nil => cases member
  | cons first rest inductionHypothesis =>
    obtain ⟨name, value⟩ := first
    rw [List.map_cons, List.nodup_cons] at distinct
    rcases List.mem_cons.mp member with same | later
    · obtain ⟨rfl, rfl⟩ := Prod.mk.inj same
      exact if_pos rfl
    · have other : name ≠ key := by
        rintro rfl
        exact distinct.1 (List.mem_map.mpr ⟨(name, x), later, rfl⟩)
      rw [get?, if_neg other, inductionHypothesis distinct.2 later]

theorem Last.unique {y : α} (first : Last key x pairs) (second : Last key y pairs) : x = y := by
  rcases first with ⟨front, back, rfl, none⟩
  rcases second with ⟨before, behind, same, noneBehind⟩
  rcases List.append_eq_append_iff.mp same with ⟨between, rfl, rest⟩ | ⟨between, rfl, rest⟩
  · cases between with
    | nil => exact congrArg Prod.snd (List.cons.inj rest).1
    | cons pair later =>
      refine absurd (List.mem_map.mpr ⟨(key, y), ?_, rfl⟩) none
      rw [(List.cons.inj rest).2]
      exact List.mem_append_right _ List.mem_cons_self
  · cases between with
    | nil => exact (congrArg Prod.snd (List.cons.inj rest).1).symm
    | cons pair later =>
      refine absurd (List.mem_map.mpr ⟨(key, x), ?_, rfl⟩) noneBehind
      rw [(List.cons.inj rest).2]
      exact List.mem_append_right _ List.mem_cons_self

theorem exists_last_of_mem (member : key ∈ pairs.map Prod.fst) : ∃ x, Last key x pairs := by
  induction pairs with
  | nil => cases member
  | cons first rest inductionHypothesis =>
    by_cases again : key ∈ rest.map Prod.fst
    · rcases inductionHypothesis again with ⟨x, front, back, rfl, none⟩
      exact ⟨x, first :: front, back, rfl, none⟩
    · rcases List.mem_cons.mp member with rfl | later
      · exact ⟨first.2, [], rest, rfl, again⟩
      · exact absurd later again

theorem Last.mem (last : Last key x pairs) : (key, x) ∈ pairs := by
  rcases last with ⟨front, back, rfl, -⟩
  exact List.mem_append_right _ List.mem_cons_self

theorem eq_of_keys (keys : pairs.map Prod.fst = fields.map Prod.fst)
    (same : ∀ key x y, (key, x) ∈ pairs → (key, y) ∈ fields → x = y) : pairs = fields := by
  induction pairs generalizing fields with
  | nil => exact (List.map_eq_nil_iff.mp keys.symm).symm
  | cons pair rest inductionHypothesis =>
    cases fields with
    | nil => cases keys
    | cons other later =>
      obtain ⟨key, x⟩ := pair
      obtain ⟨otherKey, y⟩ := other
      obtain ⟨rfl, keysRest⟩ := List.cons.inj keys
      rw [same key x y List.mem_cons_self List.mem_cons_self,
        inductionHypothesis keysRest fun k a b isFirst isSecond =>
          same k a b (List.mem_cons_of_mem _ isFirst) (List.mem_cons_of_mem _ isSecond)]

variable {β : Type} {R : α → β → Prop} {y : β} {others : List (String × β)}

abbrev Corresponds (R : α → β → Prop) (field : String × α) (other : String × β) : Prop :=
  field.1 = other.1 ∧ R field.2 other.2

theorem forall₂_insert (given : List.Forall₂ (Corresponds R) fields others) (related : R x y) :
    List.Forall₂ (Corresponds R) (insert key x fields) (insert key y others) := by
  induction given with
  | nil => exact .cons ⟨rfl, related⟩ .nil
  | @cons field other rest later corresponds restGiven inductionHypothesis =>
    obtain ⟨name, value⟩ := field
    obtain ⟨otherName, otherValue⟩ := other
    obtain rfl : name = otherName := corresponds.1
    by_cases same : name = key
    · simp only [insert, if_pos same]
      exact .cons ⟨rfl, related⟩ restGiven
    · simp only [insert, if_neg same]
      exact .cons corresponds inductionHypothesis

theorem forall₂_foldl_insert {pairs : List (String × α)} {otherPairs : List (String × β)}
    (given : List.Forall₂ (Corresponds R) pairs otherPairs)
    (before : List.Forall₂ (Corresponds R) fields others) :
    List.Forall₂ (Corresponds R)
      (pairs.foldl (fun fields pair => insert pair.1 pair.2 fields) fields)
      (otherPairs.foldl (fun fields pair => insert pair.1 pair.2 fields) others) := by
  induction given generalizing fields others with
  | nil => exact before
  | @cons pair other rest later corresponds _ inductionHypothesis =>
    rw [List.foldl_cons, List.foldl_cons, corresponds.1]
    exact inductionHypothesis (forall₂_insert before corresponds.2)

theorem forall₂_ofPairs {otherPairs : List (String × β)}
    (given : List.Forall₂ (Corresponds R) pairs otherPairs) :
    List.Forall₂ (Corresponds R) (ofPairs pairs) (ofPairs otherPairs) :=
  forall₂_foldl_insert given .nil

theorem exists_get?_of_forall₂ (given : List.Forall₂ (Corresponds R) pairs others)
    (found : get? key others = some y) : ∃ x, get? key pairs = some x ∧ R x y := by
  induction given with
  | nil => cases found
  | @cons field other rest later corresponds _ inductionHypothesis =>
    rw [get?] at found ⊢
    rw [corresponds.1]
    split at found
    next same =>
      obtain rfl := Option.some.inj found
      exact ⟨field.2, if_pos same, corresponds.2⟩
    next different =>
      rw [if_neg different]
      exact inductionHypothesis found

theorem keys_eq_of_forall₂ (given : List.Forall₂ (Corresponds R) pairs others) :
    others.map Prod.fst = pairs.map Prod.fst := by
  induction given with
  | nil => rfl
  | cons corresponds _ inductionHypothesis =>
    rw [List.map_cons, List.map_cons, corresponds.1, inductionHypothesis]

end YamlTypes.Fields
