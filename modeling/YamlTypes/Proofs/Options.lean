import Mathlib.Data.List.Nodup
import YamlTypes.Options
import YamlTypes.Proofs.Json.Compact

/-!
Option records read back from JSON.

The object of a record may come with its fields in any order, without some of
them, and with fields of other names among them. Setting a field of a record
puts one more of its parts in the place of the default, whatever was set before,
so the parts that are there are exactly those whose fields were given.
-/

set_option autoImplicit false

namespace YamlTypes

namespace Json

def names : Json → List String
  | .object fields => fields.map Prod.fst
  | _ => []

/-- An object made from another one by leaving out fields, putting in fields of names that are not
known, and reordering them all. -/
inductive Rearranges (known : List String) : Json → Json → Prop
  | object {given fields : List (String × Json)} (kept others : List (String × Json)) :
      kept.Sublist given → (∀ field ∈ others, field.1 ∉ known) → fields.Perm (kept ++ others) →
      Rearranges known (.object given) (.object fields)

theorem Rearranges.refl (known : List String) (fields : List (String × Json)) :
    Rearranges known (.object fields) (.object fields) := by
  apply Rearranges.object fields []
  · exact List.Sublist.refl fields
  · simp
  · rw [List.append_nil]

def readAs? {α : Type} (ofJson? : Json → Option α) (text : String) : Option α :=
  (read? text).bind ofJson?

theorem readAs?_of_read? {α : Type} {ofJson? : Json → Option α} {text : String} {json : Json}
    (isRead : read? text = some json) : readAs? ofJson? text = ofJson? json := by
  rw [readAs?, isRead, Option.bind_some]

theorem readAs?_compact {α : Type} {ofJson? : Json → Option α} {json : Json}
    (wellFormed : json.WellFormed) : readAs? ofJson? json.compact = ofJson? json :=
  readAs?_of_read? wellFormed.read?_compact

end Json

namespace Schema

variable {α : Type} {schema : Schema α} {given fields : List (String × Json)}
  {only : List String → α}

def names (schema : Schema α) : List String := schema.map Prod.fst

theorem get?_eq_none {key : String} (unknown : key ∉ schema.names) :
    Fields.get? key schema = none := by
  induction schema with
  | nil => rfl
  | cons entry rest inductionHypothesis =>
      obtain ⟨name, set⟩ := entry
      simp only [names, List.map_cons, List.mem_cons, not_or] at unknown
      rw [Fields.get?, if_neg (Ne.symm unknown.1)]
      exact inductionHypothesis unknown.2

/-- `only` takes names to the record that has the given parts of these names and is the default
elsewhere: setting one of the given fields adds its name, and nothing but the names of the record
counts. -/
structure Fills (schema : Schema α) (given : List (String × Json)) (only : List String → α) :
    Prop where
  names : given.map Prod.fst = schema.names
  distinct : schema.names.Nodup
  set : ∀ field ∈ given, ∀ done, setField schema (only done) field = some (only (field.1 :: done))
  congr : ∀ done others : List String,
    (∀ name ∈ schema.names, name ∈ done ↔ name ∈ others) → only done = only others

theorem Fills.cons_unknown (fills : Fills schema given only) {key : String}
    (unknown : key ∉ schema.names) (done : List String) : only (key :: done) = only done := by
  apply fills.congr
  intro name known
  have other : name ≠ key := by
    rintro rfl
    exact unknown known
  rw [List.mem_cons, or_iff_right other]

theorem Fills.setField (fills : Fills schema given only) {field : String × Json}
    (known : field ∈ given ∨ field.1 ∉ schema.names) (done : List String) :
    Schema.setField schema (only done) field = some (only (field.1 :: done)) := by
  obtain isGiven | unknown := known
  · exact fills.set field isGiven done
  · rw [Schema.setField, get?_eq_none unknown, fills.cons_unknown unknown]

theorem Fills.setFields (fills : Fills schema given only)
    (known : ∀ field ∈ fields, field ∈ given ∨ field.1 ∉ schema.names) (done : List String) :
    Schema.setFields schema (only done) fields =
      some (only ((fields.map Prod.fst).reverse ++ done)) := by
  induction fields generalizing done with
  | nil => rfl
  | cons field rest inductionHypothesis =>
      rw [Schema.setFields, fills.setField (known field List.mem_cons_self), Option.bind_some,
        inductionHypothesis fun other member => known other (List.mem_cons_of_mem _ member)]
      simp

theorem givenOnce_of_perm {kept others : List (String × Json)}
    (distinct : (kept.map Prod.fst).Nodup) (unknown : ∀ field ∈ others, field.1 ∉ schema.names)
    (perm : fields.Perm (kept ++ others)) : schema.givenOnce fields = true := by
  rw [givenOnce, List.all_eq_true]
  rintro ⟨name, set⟩ member
  have known : name ∈ schema.names := List.mem_map_of_mem member
  have none : others.filter (fun field => field.1 == name) = [] := by
    rw [List.filter_eq_nil_iff]
    intro field isOther
    simp only [beq_iff_eq]
    rintro rfl
    exact unknown field isOther known
  have count : (kept.map Prod.fst).count name ≤ 1 := List.nodup_iff_count_le_one.mp distinct name
  rw [List.count, List.countP_map, List.countP_eq_length_filter] at count
  rw [(perm.filter _).length_eq, List.filter_append, none, List.append_nil, decide_eq_true_eq]
  exact count

/-- An object made from that of a record gives the parts of the record whose names it has. -/
theorem Fills.read? (fills : Fills schema given only) {json : Json}
    (rearranges : Json.Rearranges schema.names (.object given) json) :
    schema.read? (only []) json = some (only json.names) := by
  obtain @⟨_, fields, kept, others, part, unknown, perm⟩ := rearranges
  have distinct : (kept.map Prod.fst).Nodup := by
    refine List.Nodup.sublist (part.map Prod.fst) ?_
    rw [fills.names]
    exact fills.distinct
  have known : ∀ field ∈ fields, field ∈ given ∨ field.1 ∉ schema.names := by
    intro field member
    obtain isKept | isOther := List.mem_append.mp (perm.mem_iff.mp member)
    · exact .inl (part.subset isKept)
    · exact .inr (unknown field isOther)
  have once := givenOnce_of_perm distinct unknown perm
  rw [Schema.read?, if_pos once, fills.setFields known]
  apply congrArg some
  apply fills.congr
  intro name _
  simp [Json.names]

end Schema

theorem Encoding.ofWord?_word (encoding : Encoding) : ofWord? encoding.word = some encoding := by
  cases encoding <;> rfl

namespace Include

theorem CycleMode.ofWord?_word (mode : CycleMode) : ofWord? mode.word = some mode := by
  cases mode <;> rfl

namespace Settings

/-- The settings with the parts of some names, and the default elsewhere. -/
def only (s : Settings) (names : List String) : Settings where
  encoding := if "encoding" ∈ names then s.encoding else ({} : Settings).encoding
  cycles := if "cycles" ∈ names then s.cycles else ({} : Settings).cycles

def fields (s : Settings) : List (String × Json) :=
  [("encoding", .string s.encoding.word), ("cycles", .string s.cycles.word)]

theorem fills (s : Settings) : Schema.Fills schema s.fields s.only where
  names := rfl
  distinct := by decide
  set := by
    simp [fields, Schema.setField, schema, Fields.get?, Json.word?, Encoding.ofWord?_word,
      CycleMode.ofWord?_word, only]
  congr := fun done others same => by simp (disch := decide) only [only, same]

theorem ofJson?_rearranged (s : Settings) {json : Json}
    (rearranges : Json.Rearranges schema.names s.toJson json) :
    ofJson? json = some (s.only json.names) := s.fills.read? rearranges

theorem ofJson?_toJson (s : Settings) : ofJson? s.toJson = some s := by
  refine (s.fills.read? (.refl _ _)).trans ?_
  simp [only, fields, Json.names]

theorem wellFormed_toJson (s : Settings) : s.toJson.WellFormed := by
  apply Json.WellFormed.object
  simp [Json.WellFormed.string]

end Settings

end Include

namespace GenerateOptions

def only (o : GenerateOptions) (names : List String) : GenerateOptions where
  followReferences :=
    if "followReferences" ∈ names then o.followReferences
    else ({} : GenerateOptions).followReferences
  root := if "root" ∈ names then o.root else ({} : GenerateOptions).root
  resolve := if "resolve" ∈ names then o.resolve else ({} : GenerateOptions).resolve

/-- The fields of the options, where the settings of includes are given by another object. -/
def fieldsWith (o : GenerateOptions) (resolve : Json) : List (String × Json) :=
  [("followReferences", .bool o.followReferences), ("root", .string o.root.text),
    ("resolve", resolve)]

theorem fills (o : GenerateOptions) {json : Json} {resolve : Include.Settings}
    (isRead : Include.Settings.ofJson? json = some resolve) :
    Schema.Fills schema (o.fieldsWith json) { o with resolve }.only where
  names := rfl
  distinct := by decide
  set := by
    simp [fieldsWith, Schema.setField, schema, Fields.get?, Json.bool?, Json.string?, isRead, only]
  congr := fun done others same => by simp (disch := decide) only [only, same]

theorem ofJson?_rearranged (o : GenerateOptions) {resolve json : Json}
    (inside : Json.Rearranges Include.Settings.schema.names o.resolve.toJson resolve)
    (rearranges : Json.Rearranges schema.names (.object (o.fieldsWith resolve)) json) :
    ofJson? json = some ({ o with resolve := o.resolve.only resolve.names }.only json.names) :=
  (o.fills (o.resolve.ofJson?_rearranged inside)).read? rearranges

theorem ofJson?_toJson (o : GenerateOptions) : ofJson? o.toJson = some o := by
  refine ((o.fills o.resolve.ofJson?_toJson).read? (.refl _ _)).trans ?_
  simp [only, fieldsWith, Json.names]

theorem wellFormed_toJson (o : GenerateOptions) : o.toJson.WellFormed := by
  apply Json.WellFormed.object
  simp [Json.WellFormed.string, Json.WellFormed.bool, o.resolve.wellFormed_toJson]

end GenerateOptions

namespace TransformOptions

def only (o : TransformOptions) (names : List String) : TransformOptions where
  emitTypes := if "isTS" ∈ names then o.emitTypes else ({} : TransformOptions).emitTypes
  encoding := if "encoding" ∈ names then o.encoding else ({} : TransformOptions).encoding
  exclude := if "exclude" ∈ names then o.exclude else ({} : TransformOptions).exclude
  followReferences :=
    if "followReferences" ∈ names then o.followReferences
    else ({} : TransformOptions).followReferences
  root := if "root" ∈ names then o.root else ({} : TransformOptions).root
  cycles := if "cycles" ∈ names then o.cycles else ({} : TransformOptions).cycles

def fields (o : TransformOptions) : List (String × Json) :=
  [("isTS", .bool o.emitTypes), ("encoding", .string o.encoding.word),
    ("exclude", .array (o.exclude.map .string)), ("followReferences", .bool o.followReferences),
    ("root", .string o.root.text), ("cycles", .string o.cycles.word)]

theorem strings?_map (texts : List String) :
    Json.strings? (.array (texts.map .string)) = some texts := by
  induction texts with
  | nil => rfl
  | cons text rest inductionHypothesis =>
      simp only [Json.strings?] at inductionHypothesis ⊢
      rw [List.map_cons, List.mapM_cons, inductionHypothesis]
      rfl

theorem fills (o : TransformOptions) : Schema.Fills schema o.fields o.only where
  names := rfl
  distinct := by decide
  set := by
    intro field member done
    simp only [fields, List.mem_cons, List.not_mem_nil, or_false] at member
    obtain rfl | rfl | rfl | rfl | rfl | rfl := member <;>
      simp [Schema.setField, schema, Fields.get?, Json.bool?, Json.string?, Json.word?,
        Encoding.ofWord?_word, Include.CycleMode.ofWord?_word, strings?_map, only]
  congr := fun done others same => by simp (disch := decide) only [only, same]

theorem ofJson?_rearranged (o : TransformOptions) {json : Json}
    (rearranges : Json.Rearranges schema.names o.toJson json) :
    ofJson? json = some (o.only json.names) := o.fills.read? rearranges

theorem ofJson?_toJson (o : TransformOptions) : ofJson? o.toJson = some o := by
  refine (o.fills.read? (.refl _ _)).trans ?_
  simp [only, fields, Json.names]

theorem wellFormed_toJson (o : TransformOptions) : o.toJson.WellFormed := by
  have patterns : (Json.array (o.exclude.map .string)).WellFormed := by
    apply Json.WellFormed.array
    simp [Json.WellFormed.string]
  apply Json.WellFormed.object
  simp [Json.WellFormed.string, Json.WellFormed.bool, patterns]

end TransformOptions

/-- Options are read back from their text, and from any text of an object that is made from theirs
by leaving out fields, putting in unknown ones and reordering them, also in the settings of
includes: what was left out is the default. -/
theorem options_survive :
    (∀ s : Include.Settings,
      Json.readAs? Include.Settings.ofJson? s.toJson.compact = some s ∧
      ∀ json text, Json.Rearranges Include.Settings.schema.names s.toJson json →
        Json.read? text = some json →
        Json.readAs? Include.Settings.ofJson? text = some (s.only json.names)) ∧
    (∀ o : GenerateOptions,
      Json.readAs? GenerateOptions.ofJson? o.toJson.compact = some o ∧
      ∀ resolve json text,
        Json.Rearranges Include.Settings.schema.names o.resolve.toJson resolve →
        Json.Rearranges GenerateOptions.schema.names (.object (o.fieldsWith resolve)) json →
        Json.read? text = some json →
        Json.readAs? GenerateOptions.ofJson? text =
          some ({ o with resolve := o.resolve.only resolve.names }.only json.names)) ∧
    (∀ o : TransformOptions,
      Json.readAs? TransformOptions.ofJson? o.toJson.compact = some o ∧
      ∀ json text, Json.Rearranges TransformOptions.schema.names o.toJson json →
        Json.read? text = some json →
        Json.readAs? TransformOptions.ofJson? text = some (o.only json.names)) := by
  refine ⟨fun s => ⟨?_, ?_⟩, fun o => ⟨?_, ?_⟩, fun o => ⟨?_, ?_⟩⟩
  · rw [Json.readAs?_compact s.wellFormed_toJson, s.ofJson?_toJson]
  · intro json text rearranges isRead
    rw [Json.readAs?_of_read? isRead, s.ofJson?_rearranged rearranges]
  · rw [Json.readAs?_compact o.wellFormed_toJson, o.ofJson?_toJson]
  · intro resolve json text inside rearranges isRead
    rw [Json.readAs?_of_read? isRead, o.ofJson?_rearranged inside rearranges]
  · rw [Json.readAs?_compact o.wellFormed_toJson, o.ofJson?_toJson]
  · intro json text rearranges isRead
    rw [Json.readAs?_of_read? isRead, o.ofJson?_rearranged rearranges]

def rootedOptions : GenerateOptions where
  followReferences := true
  root := ⟨"a\"\\\n"⟩
  resolve := ⟨.utf8Lossy, .unchecked⟩

/-- Their settings of includes without one field, and with one that is unknown. -/
def rearrangedSettings : Json :=
  .object [("y", .array [.number "1e999"]), ("cycles", .string "unchecked")]

/-- Their object without one field, in another order, and with an unknown field that has a key
which stands for no text. -/
def rearrangedFields : List (String × Json) :=
  [("x", .halfPair), ("resolve", rearrangedSettings), ("root", .string "a\"\\\n")]

def rearrangedText : String :=
  "\x7b\"x\": \x7b\"\\ud800\": 1\x7d, \"resolve\": \x7b\"y\": [1e999], " ++
    "\"cycles\": \"unchecked\"\x7d,\n\"root\": \"a\\\"\\\\\\u000a\"\x7d"

theorem options_survive_rearranged :
    Json.readAs? GenerateOptions.ofJson? rootedOptions.toJson.compact = some rootedOptions ∧
      Json.readAs? GenerateOptions.ofJson? rearrangedText =
        some { root := ⟨"a\"\\\n"⟩, resolve := { cycles := .unchecked } } := by
  obtain ⟨-, generate, -⟩ := options_survive
  obtain ⟨same, rearranged⟩ := generate rootedOptions
  refine ⟨same, rearranged rearrangedSettings (.object rearrangedFields) rearrangedText ?_ ?_ rfl⟩
  · apply Json.Rearranges.object [("cycles", .string "unchecked")]
      [("y", .array [.number "1e999"])]
    · exact .cons _ (.refl _)
    · simp [Schema.names, Include.Settings.schema]
    · exact (List.perm_append_singleton _ _).symm
  · apply Json.Rearranges.object
      [("root", .string "a\"\\\n"), ("resolve", rearrangedSettings)] [("x", .halfPair)]
    · exact .cons _ (.refl _)
    · simp [Schema.names, GenerateOptions.schema]
    · exact List.reverse_perm [_, _, _]

end YamlTypes
