import YamlTypes.Inference
import YamlTypes.Proofs.Types.Unambiguous
import YamlTypes.Proofs.Value

/-!
The variants of an array's type.

Inference keeps one type of each text among those of an array's elements. Where
no key holds a newline, the text of a type tells the type up to `canonical`. So
the variants are the types of the elements, each of them once, and the indent
has no part in it.
-/

set_option autoImplicit false

namespace YamlTypes

namespace TypeExpr

variable {indent : String} {seen : List String} {type : TypeExpr} {types : List TypeExpr}

theorem mem_of_mem_distinct (member : type ∈ distinct indent seen types) : type ∈ types := by
  induction types generalizing seen with
  | nil => exact member
  | cons first rest inductionHypothesis =>
    simp only [distinct] at member
    split at member
    · exact List.mem_cons_of_mem _ (inductionHypothesis member)
    · rcases List.mem_cons.mp member with rfl | member
      · exact List.mem_cons_self
      · exact List.mem_cons_of_mem _ (inductionHypothesis member)

theorem exists_mem_distinct (member : type ∈ types) (unseen : type.render indent ∉ seen) :
    ∃ kept ∈ distinct indent seen types, kept.render indent = type.render indent := by
  induction types generalizing seen with
  | nil => exact absurd member List.not_mem_nil
  | cons first rest inductionHypothesis =>
    simp only [distinct]
    split
    · rcases List.mem_cons.mp member with rfl | member
      · contradiction
      · exact inductionHypothesis member unseen
    · by_cases same : first.render indent = type.render indent
      · exact ⟨first, List.mem_cons_self, same⟩
      · have inRest : type ∈ rest := by
          rcases List.mem_cons.mp member with rfl | member
          · exact absurd rfl same
          · exact member
        have unseenStill : type.render indent ∉ first.render indent :: seen := by
          simp [unseen, Ne.symm same]
        rcases inductionHypothesis inRest unseenStill with ⟨kept, isKept, sameText⟩
        exact ⟨kept, List.mem_cons_of_mem _ isKept, sameText⟩

theorem oneLine_ofElements (each : ∀ type ∈ types, type.OneLine) :
    (ofElements indent types).OneLine := by
  have kept : ∀ type ∈ distinct indent [] types, type.OneLine :=
    fun type member => each type (mem_of_mem_distinct member)
  simp only [ofElements]
  split
  · simp [OneLine, keys]
  · rename_i type isOnly
    exact oneLine_array.mpr (kept type (by simp [isOnly]))
  · exact oneLine_array.mpr (oneLine_union.mpr kept)

theorem inferFields_eq_map (indent : String) (fields : List (String × Value)) :
    inferFields indent fields = fields.map fun field => (field.1, infer indent field.2) := by
  induction fields with
  | nil => rfl
  | cons field rest inductionHypothesis => simp [inferFields, inductionHypothesis]

theorem keys_inferFields (indent : String) (fields : List (String × Value)) :
    (inferFields indent fields).map Prod.fst = fields.map Prod.fst := by
  rw [inferFields_eq_map, List.map_map]
  rfl

theorem oneLine_infer {value : Value} (oneLine : ∀ key ∈ value.keys, '\n' ∉ key.toList)
    (indent : String) : (infer indent value).OneLine := by
  induction value using Value.induct generalizing indent with
  | array items each =>
    rw [Value.forall_mem_keys_array] at oneLine
    simp only [infer, inferItems_eq_map]
    refine oneLine_ofElements (List.forall_mem_map.mpr fun item member => ?_)
    exact each item member (oneLine item member) indent
  | object fields each =>
    rw [Value.forall_mem_keys_object] at oneLine
    simp only [infer, inferFields_eq_map, oneLine_object, List.forall_mem_map]
    intro field member
    obtain ⟨keyOneLine, fieldOneLine⟩ := oneLine field member
    exact ⟨keyOneLine, each field member fieldOneLine _⟩
  | _ => simp [infer, OneLine, keys]

/-! ## Texts and types -/

section
attribute [local simp] render

theorem renderFields_canonical {fields : List (String × TypeExpr)}
    (each : ∀ field ∈ fields, ∀ indent, field.2.canonical.render indent = field.2.render indent)
    (indent : String) :
    renderFields indent (canonicalFields fields) = renderFields indent fields := by
  induction fields with
  | nil => rfl
  | cons field rest inductionHypothesis =>
    rw [List.forall_mem_cons] at each
    simp only [canonicalFields, renderFields, each.1, inductionHypothesis each.2]

theorem render_canonical (type : TypeExpr) (indent : String) :
    type.canonical.render indent = type.render indent := by
  induction type using induct generalizing indent with
  | object fields each => simp only [canonical, render, renderFields_canonical each]
  | array element inductionHypothesis => simp only [canonical, render, inductionHypothesis]
  | union variants each =>
    have sameTexts :
        (canonicalEach variants).map (render indent) = variants.map (render indent) := by
      rw [canonicalEach_eq_map, List.map_map]
      exact List.map_congr_left fun variant member => each variant member indent
    simp only [canonical, render, renderEach_eq_map, sameTexts]
  | emptyArray => simp
  | _ => simp only [canonical]

end

theorem render_eq_iff {type other : TypeExpr} (indent : String) (oneLine : type.OneLine)
    (otherOneLine : other.OneLine) :
    type.render indent = other.render indent ↔ type.canonical = other.canonical := by
  constructor
  · exact canonical_eq_of_render_eq oneLine otherOneLine
  · intro same
    rw [← render_canonical type, same, render_canonical]

end TypeExpr

/-! ## Dropping repetitions -/

theorem eraseDupsBy_congr {α : Type} {same other : α → α → Bool} (list : List α)
    (agree : ∀ a ∈ list, ∀ b ∈ list, same a b = other a b) :
    list.eraseDupsBy same = list.eraseDupsBy other := by
  match list with
  | [] => rfl
  | first :: rest =>
    have sameLeft : rest.filter (fun later => same later first = false) =
        rest.filter fun later => other later first = false :=
      List.filter_congr fun later member => by
        rw [agree later (List.mem_cons_of_mem _ member) first List.mem_cons_self]
    rw [List.eraseDupsBy_cons, List.eraseDupsBy_cons, sameLeft]
    refine congrArg _ (eraseDupsBy_congr _ fun a inLeft b alsoInLeft => ?_)
    exact agree a (List.mem_cons_of_mem _ (List.mem_filter.mp inLeft).1) b
      (List.mem_cons_of_mem _ (List.mem_filter.mp alsoInLeft).1)
termination_by list.length
decreasing_by exact Nat.lt_succ_of_le (List.length_filter_le _ _)

theorem map_eraseDupsBy {α β : Type} [BEq β] (f : α → β) (list : List α) :
    (list.eraseDupsBy fun later earlier => f later == f earlier).map f =
      (list.map f).eraseDups := by
  match list with
  | [] => rfl
  | first :: rest =>
    rw [List.eraseDupsBy_cons, List.map_cons, map_eraseDupsBy, List.map_cons, List.eraseDups_cons,
      List.filter_map]
    simp [Function.comp_def]
termination_by list.length
decreasing_by exact Nat.lt_succ_of_le (List.length_filter_le _ _)

namespace TypeExpr

theorem distinct_eq_filter (indent : String) (seen : List String) (types : List TypeExpr) :
    distinct indent seen types =
      (types.filter fun type => type.render indent ∉ seen).eraseDupsBy
        fun later earlier => later.render indent == earlier.render indent := by
  induction types generalizing seen with
  | nil => rfl
  | cons type rest inductionHypothesis =>
    simp only [distinct]
    split
    next old => rw [List.filter_cons_of_neg (by simpa using old), inductionHypothesis]
    next new =>
      rw [List.filter_cons_of_pos (by simpa using new), List.eraseDupsBy_cons,
        inductionHypothesis, List.filter_filter]
      congr 3
      funext later
      simp

/-- The variants are what dropping later types of a text that was there before leaves. -/
theorem distinct_eq (indent : String) (types : List TypeExpr) :
    distinct indent [] types = types.eraseDupsBy
      fun later earlier => later.render indent == earlier.render indent := by
  rw [distinct_eq_filter, List.filter_eq_self.mpr (by simp)]

theorem map_render_distinct (indent : String) (types : List TypeExpr) :
    (distinct indent [] types).map (render indent) = (types.map (render indent)).eraseDups := by
  rw [distinct_eq, map_eraseDupsBy]

open Classical in
theorem distinct_eq_of_oneLine {types : List TypeExpr} (indent : String)
    (oneLine : ∀ type ∈ types, type.OneLine) :
    distinct indent [] types = types.eraseDupsBy
      fun later earlier => decide (later.canonical = earlier.canonical) := by
  rw [distinct_eq]
  refine eraseDupsBy_congr types fun later isLater earlier isEarlier => ?_
  rw [Bool.eq_iff_iff, beq_iff_eq, decide_eq_true_iff]
  exact render_eq_iff indent (oneLine later isLater) (oneLine earlier isEarlier)

open Classical in
/-- Values without newlines in their keys have types of one text exactly if these are the same type
up to the types of empty arrays. So the variants of an array's type are the types of its items, each
type once and where it first occurs. -/
theorem inferred_text_unambiguous (indent : String) :
    (∀ value other inferredAt otherInferredAt, (∀ key ∈ value.keys, '\n' ∉ key.toList) →
      (∀ key ∈ other.keys, '\n' ∉ key.toList) →
        ((infer inferredAt value).render indent = (infer otherInferredAt other).render indent ↔
          (infer inferredAt value).canonical = (infer otherInferredAt other).canonical)) ∧
    ∀ items, (∀ item ∈ items, ∀ key ∈ item.keys, '\n' ∉ key.toList) →
      distinct indent [] (inferItems indent items) = (inferItems indent items).eraseDupsBy
        fun later earlier => decide (later.canonical = earlier.canonical) := by
  constructor
  · intro value other inferredAt otherInferredAt oneLine otherOneLine
    exact render_eq_iff indent (oneLine_infer oneLine _) (oneLine_infer otherOneLine _)
  · intro items oneLine
    refine distinct_eq_of_oneLine indent ?_
    simp only [inferItems_eq_map, List.forall_mem_map]
    exact fun item member => oneLine_infer (oneLine item member) indent

/-- Items with keys that look like other parts of a type, and two empty arrays among them. -/
def oddItems : List Value :=
  [.array [], .object [("", .null), ("a: null;  b", .null)], .array [.tagged "t"],
    .object [(": null;  a", .null), ("b", .null)], .object [("", .null), ("a: null;  b", .null)],
    .array [.array []], .array [.array [.tagged "t"], .array []]]

open Classical in
theorem inferred_text_unambiguous_odd :
    (∀ item ∈ oddItems, ∀ key ∈ item.keys, '\n' ∉ key.toList) ∧
      (infer "" (.array [.array [.tagged "t"], .array []])).canonical =
        (infer "  " (.array [.array []])).canonical ∧
      (distinct "" [] (inferItems "" oddItems)).length = 4 ∧
      distinct "" [] (inferItems "" oddItems) = (inferItems "" oddItems).eraseDupsBy
        fun later earlier => decide (later.canonical = earlier.canonical) := by
  have oneLine : ∀ item ∈ oddItems, ∀ key ∈ item.keys, '\n' ∉ key.toList := by decide
  have told := inferred_text_unambiguous ""
  refine ⟨oneLine, ?_, by decide, told.2 oddItems oneLine⟩
  exact (told.1 _ _ "" "  " (by decide) (by decide)).mp (by decide)

end TypeExpr

end YamlTypes
