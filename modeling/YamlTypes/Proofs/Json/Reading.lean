import YamlTypes.Proofs.Json.Numerals
import YamlTypes.Proofs.Json.Tokens

/-!
Reading back what was written.

The layout of a document spells its tokens, however far it is moved in, and the
tokens lead the machine from any state that is ready for a value to the end of
that value. So a document whose numbers are numbers is read back as it is.
-/

set_option autoImplicit false

namespace YamlTypes.Json

@[elab_as_elim]
theorem induct {motive : Json → Prop} (null : motive .null) (bool : ∀ b, motive (.bool b))
    (number : ∀ literal, motive (.number literal)) (string : ∀ s, motive (.string s))
    (halfPair : motive .halfPair)
    (array : ∀ items : List Json, (∀ item ∈ items, motive item) → motive (.array items))
    (object : ∀ fields : List (String × Json),
      (∀ field ∈ fields, motive field.2) → motive (.object fields)) (json : Json) :
    motive json := by
  refine @Json.rec motive (fun items => ∀ item ∈ items, motive item)
    (fun fields => ∀ field ∈ fields, motive field.2) (fun field => motive field.2)
    null bool number string halfPair array object ?_ ?_ ?_ ?_ ?_ json
  all_goals simp_all

mutual

def toTokens : Json → List Token
  | .null => [.null]
  | .bool b => [.bool b]
  | .number literal => [.number literal]
  | .string s => [.string s]
  | .halfPair => [.halfPair]
  | .array items => .openBracket :: (itemTokens items ++ [.closeBracket])
  | .object fields => .openBrace :: (fieldTokens fields ++ [.closeBrace])

def itemTokens : List Json → List Token
  | [] => []
  | [item] => item.toTokens
  | item :: rest => item.toTokens ++ .comma :: itemTokens rest

def fieldTokens : List (String × Json) → List Token
  | [] => []
  | [(key, value)] => .string key :: .colon :: value.toTokens
  | (key, value) :: rest =>
    .string key :: .colon :: (value.toTokens ++ .comma :: fieldTokens rest)

end

def textKeys (fields : List (String × Json)) : List (Option String × Json) :=
  fields.map fun field => (some field.1, field.2)

theorem objectOf_textKeys (fields : List (String × Json)) :
    objectOf (textKeys fields) = .object fields := by
  have keys : (textKeys fields).mapM (fun field => field.1.map (·, field.2)) = some fields := by
    induction fields with
    | nil => rfl
    | cons field rest inductionHypothesis =>
        rw [textKeys] at inductionHypothesis ⊢
        rw [List.map_cons, List.mapM_cons, inductionHypothesis]
        rfl
  rw [objectOf, keys]

namespace State

variable {stack : List Frame}

theorem run?_append (state : State) (first second : List Token) :
    state.run? (first ++ second) = (state.run? first).bind fun later => later.run? second := by
  induction first generalizing state with
  | nil => rfl
  | cons token rest inductionHypothesis =>
      rw [List.cons_append, run?, run?, Option.bind_assoc]
      exact congrArg _ (funext fun later => inductionHypothesis later)

/-- No document begins with a closing bracket. -/
theorem run?_firstItem (json : Json) (tail : List Token) :
    (firstItem stack).run? (json.toTokens ++ tail) =
      (ready (.items [] :: stack)).run? (json.toTokens ++ tail) := by
  cases json <;> rfl

theorem run?_items {items : List Json}
    (each : ∀ item ∈ items, ∀ stack, (ready stack).run? item.toTokens = some (.ended item stack))
    (nonempty : items ≠ []) (done : List Json) :
    (ready (.items done :: stack)).run? (itemTokens items ++ [.closeBracket]) =
      some (.ended (.array (done.reverse ++ items)) stack) := by
  induction items generalizing done with
  | nil => exact absurd rfl nonempty
  | cons item rest inductionHypothesis =>
      have first := each item List.mem_cons_self
      cases rest with
      | nil =>
          have last : (done.reverse ++ [item]) = (item :: done).reverse := by simp
          rw [itemTokens, run?_append, first, last]
          rfl
      | cons next later =>
          have others := inductionHypothesis
            (fun i member => each i (List.mem_cons_of_mem _ member))
            (List.cons_ne_nil _ _) (item :: done)
          rw [List.reverse_cons, List.append_assoc, List.singleton_append] at others
          rw [itemTokens, List.append_assoc, run?_append, first, ← others]
          · rfl
          · exact List.cons_ne_nil _ _

theorem run?_fields {fields : List (String × Json)}
    (each : ∀ field ∈ fields, ∀ stack,
      (ready stack).run? field.2.toTokens = some (.ended field.2 stack))
    (nonempty : fields ≠ []) (done : List (Option String × Json)) :
    (nextKey done stack).run? (fieldTokens fields ++ [.closeBrace]) =
      some (.ended (objectOf (done.reverse ++ textKeys fields)) stack) := by
  induction fields generalizing done with
  | nil => exact absurd rfl nonempty
  | cons field rest inductionHypothesis =>
      obtain ⟨key, value⟩ := field
      have first := each (key, value) List.mem_cons_self (.fields done (some key) :: stack)
      have begins : ∀ tail : List Token,
          (nextKey done stack).run? (.string key :: .colon :: (value.toTokens ++ tail)) =
            (ended value (.fields done (some key) :: stack)).run? tail := by
        intro tail
        change (ready (.fields done (some key) :: stack)).run? (value.toTokens ++ tail) = _
        rw [run?_append, first, Option.bind_some]
      cases rest with
      | nil =>
          have last : done.reverse ++ textKeys [(key, value)] =
              ((some key, value) :: done).reverse := by
            rw [List.reverse_cons]
            rfl
          rw [fieldTokens, List.cons_append, List.cons_append, begins, last]
          rfl
      | cons next later =>
          have others := inductionHypothesis
            (fun f member => each f (List.mem_cons_of_mem _ member))
            (List.cons_ne_nil _ _) ((some key, value) :: done)
          rw [List.reverse_cons, List.append_assoc, List.singleton_append] at others
          rw [fieldTokens, List.cons_append, List.cons_append, List.append_assoc, begins]
          · exact others
          · exact List.cons_ne_nil _ _

theorem run?_toTokens (json : Json) (stack : List Frame) :
    (ready stack).run? json.toTokens = some (.ended json stack) := by
  induction json using Json.induct generalizing stack with
  | null => rfl
  | bool b => rfl
  | number literal => rfl
  | string s => rfl
  | halfPair => rfl
  | array items each =>
      cases items with
      | nil => rfl
      | cons item rest =>
          have inside : (ready (.items [] :: stack)).run?
              (itemTokens (item :: rest) ++ [.closeBracket]) =
                some (.ended (.array (item :: rest)) stack) :=
            run?_items each (List.cons_ne_nil _ _) []
          have front : ∃ tail, itemTokens (item :: rest) = item.toTokens ++ tail := by
            cases rest with
            | nil => exact ⟨[], (List.append_nil _).symm⟩
            | cons next later => exact ⟨_, rfl⟩
          rcases front with ⟨tail, front⟩
          change (firstItem stack).run? (itemTokens (item :: rest) ++ [.closeBracket]) = _
          rw [front, List.append_assoc] at inside ⊢
          rw [run?_firstItem, inside]
  | object fields each =>
      cases fields with
      | nil => rfl
      | cons field rest =>
          have inside : (nextKey [] stack).run? (fieldTokens (field :: rest) ++ [.closeBrace]) =
              some (.ended (.object (field :: rest)) stack) := by
            rw [← objectOf_textKeys]
            exact run?_fields each (List.cons_ne_nil _ _) []
          obtain ⟨key, value⟩ := field
          rw [← inside]
          cases rest <;> rfl

end State

/-- Every number of the document is written as one. -/
inductive WellFormed : Json → Prop
  | null : WellFormed .null
  | bool (b : Bool) : WellFormed (.bool b)
  | number {literal : String} : isNumber literal.toList = true → WellFormed (.number literal)
  | string (s : String) : WellFormed (.string s)
  | halfPair : WellFormed .halfPair
  | array {items : List Json} : (∀ item ∈ items, WellFormed item) → WellFormed (.array items)
  | object {fields : List (String × Json)} :
      (∀ field ∈ fields, WellFormed field.2) → WellFormed (.object fields)

/-- The text is cut into these tokens where no word goes on behind it. -/
def Spells (text : List Char) (tokens : List Token) : Prop :=
  ∀ rest, Apart rest → tokens? (text ++ rest) = (tokens? rest).map (tokens ++ ·)

def Ends (text : List Char) (tokens : List Token) : Prop :=
  ∀ rest, tokens? (text ++ rest) = (tokens? rest).map (tokens ++ ·)

variable {first second text : List Char} {front back tokens : List Token} {token : Token} {c : Char}

theorem Ends.spells (ends : Ends text tokens) : Spells text tokens := fun rest _ => ends rest

theorem Ends.append (ends : Ends first front) (also : Ends second back) :
    Ends (first ++ second) (front ++ back) := by
  intro rest
  rw [List.append_assoc, ends, also, Option.map_map]
  simp only [Function.comp_def, List.append_assoc]

theorem Ends.append_spells (ends : Ends first front) (spells : Spells second back) :
    Spells (first ++ second) (front ++ back) := by
  intro rest apart
  rw [List.append_assoc, ends, spells rest apart, Option.map_map]
  simp only [Function.comp_def, List.append_assoc]

theorem Spells.append (spells : Spells first front) (noWord : isWordChar c = false)
    (ends : Ends (c :: second) back) : Ends (first ++ c :: second) (front ++ back) := by
  intro rest
  have apart : Apart (c :: second ++ rest) := by
    intro d same
    obtain rfl := Option.some.inj same
    exact noWord
  rw [List.append_assoc, spells _ apart, ends, Option.map_map]
  simp only [Function.comp_def, List.append_assoc]

theorem ends_blank (blank : ∀ c ∈ text, isSpace c = true) : Ends text [] := by
  intro rest
  rw [tokens?_spaces blank]
  simp

theorem ends_punctuation (mark : ∀ rest, lexeme? c rest = some ([token], rest)) :
    Ends [c] [token] := by
  intro rest
  rw [List.singleton_append, tokens?_cons, mark]
  rfl

theorem ends_quote (s : String) : Ends (quote s).toList [.string s] := by
  intro rest
  rw [tokens?_quote]
  rfl

theorem ends_halfPair : Ends "\"\\ud800\"".toList [.halfPair] := by
  intro rest
  change tokens? ('"' :: '\\' :: 'u' :: 'd' :: '8' :: '0' :: '0' :: '"' :: rest) = _
  rw [tokens?_cons]
  rfl

theorem spells_word (only : ∀ c ∈ text, isWordChar c = true)
    (isToken : wordToken? text = some token) : Spells text [token] := by
  intro rest apart
  rw [tokens?_word only isToken apart]
  rfl

theorem spells_number {literal : String} (number : isNumber literal.toList = true) :
    Spells literal.toList [.number literal] := by
  have other : ∀ text, isNumber text = false → literal.toList ≠ text := by
    rintro text noNumber rfl
    rw [number] at noNumber
    cases noNumber
  apply spells_word (isWordChar_of_isNumber number)
  rw [wordToken?, if_neg (other _ (by decide)), if_neg (other _ (by decide)),
    if_neg (other _ (by decide)), if_pos number, String.ofList_toList]

theorem Spells.comma {others : List Char} {later : List Token} (first : Spells text tokens)
    (second : Spells others later) :
    Spells (text ++ [',', '\n'] ++ others) (tokens ++ [.comma] ++ later) := by
  have comma : Ends [',', '\n'] [.comma] :=
    (ends_punctuation fun _ => rfl).append (ends_blank (List.forall_mem_singleton.mpr rfl))
  exact (first.append (by decide) comma).append_spells second

theorem spells_items {indent : String} (blank : ∀ c ∈ indent.toList, isSpace c = true)
    {items : List Json} (each : ∀ item ∈ items, Spells (item.pretty indent).toList item.toTokens) :
    Spells (prettyItems indent items).toList (itemTokens items) := by
  induction items with
  | nil =>
      have nothing : Ends [] [] := ends_blank nofun
      exact nothing.spells
  | cons item rest inductionHypothesis =>
      have one : Spells (indent ++ item.pretty indent).toList item.toTokens := by
        rw [String.toList_append]
        exact (ends_blank blank).append_spells (each item List.mem_cons_self)
      cases rest with
      | nil => exact one
      | cons next later =>
          have others := inductionHypothesis fun i member => each i (List.mem_cons_of_mem _ member)
          have text : (prettyItems indent (item :: next :: later)).toList =
              (indent ++ item.pretty indent).toList ++ [',', '\n'] ++
                (prettyItems indent (next :: later)).toList := by
            change (indent ++ item.pretty indent ++ ",\n" ++
              prettyItems indent (next :: later)).toList = _
            rw [String.toList_append, String.toList_append]
            rfl
          have parts : itemTokens (item :: next :: later) =
              item.toTokens ++ [.comma] ++ itemTokens (next :: later) := by
            rw [List.append_assoc]
            rfl
          rw [text, parts]
          exact one.comma others

theorem spells_fields {indent : String} (blank : ∀ c ∈ indent.toList, isSpace c = true)
    {fields : List (String × Json)}
    (each : ∀ field ∈ fields, Spells (field.2.pretty indent).toList field.2.toTokens) :
    Spells (prettyFields indent fields).toList (fieldTokens fields) := by
  induction fields with
  | nil =>
      have nothing : Ends [] [] := ends_blank nofun
      exact nothing.spells
  | cons field rest inductionHypothesis =>
      obtain ⟨key, value⟩ := field
      have colon : Ends [':', ' '] [.colon] :=
        (ends_punctuation fun _ => rfl).append (ends_blank (List.forall_mem_singleton.mpr rfl))
      have one : Spells (indent ++ quote key ++ ": " ++ value.pretty indent).toList
          (.string key :: .colon :: value.toTokens) := by
        rw [String.toList_append, String.toList_append, String.toList_append]
        exact (((ends_blank blank).append (ends_quote key)).append colon).append_spells
          (each (key, value) List.mem_cons_self)
      cases rest with
      | nil => exact one
      | cons next later =>
          have others := inductionHypothesis fun f member => each f (List.mem_cons_of_mem _ member)
          have text : (prettyFields indent ((key, value) :: next :: later)).toList =
              (indent ++ quote key ++ ": " ++ value.pretty indent).toList ++ [',', '\n'] ++
                (prettyFields indent (next :: later)).toList := by
            change (indent ++ quote key ++ ": " ++ value.pretty indent ++ ",\n" ++
              prettyFields indent (next :: later)).toList = _
            rw [String.toList_append, String.toList_append]
            rfl
          have parts : fieldTokens ((key, value) :: next :: later) =
              .string key :: .colon :: value.toTokens ++ [.comma] ++
                fieldTokens (next :: later) := by
            rw [List.append_assoc]
            rfl
          rw [text, parts]
          exact one.comma others

/-- What stands between brackets, on lines of its own. -/
theorem Spells.between {opening closing : Char} {before after : Token} {indent : String}
    (spells : Spells text tokens) (blank : ∀ c ∈ indent.toList, isSpace c = true)
    (opens : ∀ rest, lexeme? opening rest = some ([before], rest))
    (closes : ∀ rest, lexeme? closing rest = some ([after], rest)) :
    Ends ([opening, '\n'] ++ text ++ '\n' :: (indent.toList ++ [closing]))
      (before :: (tokens ++ [after])) := by
  have front : Ends [opening, '\n'] [before] :=
    (ends_punctuation opens).append (ends_blank (List.forall_mem_singleton.mpr rfl))
  have back : Ends ('\n' :: (indent.toList ++ [closing])) [after] := by
    have spaces : ∀ c ∈ '\n' :: indent.toList, isSpace c = true :=
      List.forall_mem_cons.mpr ⟨rfl, blank⟩
    exact (ends_blank spaces).append (ends_punctuation closes)
  exact (front.append_spells spells).append (by decide) back

theorem spells_array {indent : String} (blank : ∀ c ∈ indent.toList, isSpace c = true)
    {items : List Json}
    (inside : Spells (prettyItems (indent ++ "  ") items).toList (itemTokens items)) :
    Spells ((array items).pretty indent).toList (array items).toTokens := by
  have opening : ∀ rest, lexeme? '[' rest = some ([.openBracket], rest) := fun _ => rfl
  have closing : ∀ rest, lexeme? ']' rest = some ([.closeBracket], rest) := fun _ => rfl
  cases items with
  | nil =>
      change Spells "[]".toList [.openBracket, .closeBracket]
      exact ((ends_punctuation opening).append (ends_punctuation closing)).spells
  | cons item rest =>
      have text : ((array (item :: rest)).pretty indent).toList =
          ['[', '\n'] ++ (prettyItems (indent ++ "  ") (item :: rest)).toList ++
            '\n' :: (indent.toList ++ [']']) := by
        rw [pretty, String.toList_append, String.toList_append, String.toList_append,
          String.toList_append, List.append_assoc, List.append_assoc]
        · rfl
        · exact List.cons_ne_nil _ _
      rw [text]
      exact (inside.between blank opening closing).spells

theorem spells_object {indent : String} (blank : ∀ c ∈ indent.toList, isSpace c = true)
    {fields : List (String × Json)}
    (inside : Spells (prettyFields (indent ++ "  ") fields).toList (fieldTokens fields)) :
    Spells ((object fields).pretty indent).toList (object fields).toTokens := by
  have opening : ∀ rest, lexeme? '\x7b' rest = some ([.openBrace], rest) := fun _ => rfl
  have closing : ∀ rest, lexeme? '\x7d' rest = some ([.closeBrace], rest) := fun _ => rfl
  cases fields with
  | nil =>
      change Spells "\x7b\x7d".toList [.openBrace, .closeBrace]
      exact ((ends_punctuation opening).append (ends_punctuation closing)).spells
  | cons field rest =>
      have text : ((object (field :: rest)).pretty indent).toList =
          ['\x7b', '\n'] ++ (prettyFields (indent ++ "  ") (field :: rest)).toList ++
            '\n' :: (indent.toList ++ ['\x7d']) := by
        rw [pretty, String.toList_append, String.toList_append, String.toList_append,
          String.toList_append, List.append_assoc, List.append_assoc]
        · rfl
        · exact List.cons_ne_nil _ _
      rw [text]
      exact (inside.between blank opening closing).spells

/-- A document spells its tokens, whatever it is moved in by. -/
theorem WellFormed.spells {json : Json} (wellFormed : json.WellFormed) {indent : String}
    (blank : ∀ c ∈ indent.toList, isSpace c = true) :
    Spells (json.pretty indent).toList json.toTokens := by
  have deeper : ∀ {indent : String}, (∀ c ∈ indent.toList, isSpace c = true) →
      ∀ c ∈ (indent ++ "  ").toList, isSpace c = true := by
    intro indent blank
    rw [String.toList_append, List.forall_mem_append]
    exact ⟨blank, List.all_eq_true.mp rfl⟩
  induction wellFormed generalizing indent with
  | null =>
      change Spells "null".toList [.null]
      exact spells_word (List.all_eq_true.mp rfl) rfl
  | bool b =>
      change Spells (boolText b).toList [.bool b]
      cases b <;> exact spells_word (List.all_eq_true.mp rfl) rfl
  | number number => exact spells_number number
  | string s => exact (ends_quote s).spells
  | halfPair => exact ends_halfPair.spells
  | array _ each =>
      exact spells_array blank
        (spells_items (deeper blank) fun item member => each item member (deeper blank))
  | object _ each =>
      exact spells_object blank
        (spells_fields (deeper blank) fun field member => each field member (deeper blank))

theorem Spells.read? {text : String} {json : Json} (spells : Spells text.toList json.toTokens) :
    read? text = some json := by
  have apart : Apart [] := nofun
  have cut : tokens? text.toList = some json.toTokens := by
    have spelled := spells [] apart
    rw [List.append_nil] at spelled
    rw [spelled, tokens?, tokensWithin?, Option.map_some, List.append_nil]
  unfold Json.read?
  rw [cut, Option.bind_eq_bind, Option.bind_some, State.run?_toTokens]
  rfl

/-- A document whose numbers are numbers is read back from its text. -/
theorem WellFormed.read?_pretty {json : Json} (wellFormed : json.WellFormed) :
    read? (json.pretty "") = some json := by
  have blank : ∀ c ∈ "".toList, isSpace c = true := nofun
  exact (wellFormed.spells blank).read?

end YamlTypes.Json
