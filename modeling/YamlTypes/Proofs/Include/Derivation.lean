import YamlTypes.Include.Expansion

/-!
Finished expansions as derivations.

`Expands` has one rule for each thing that can happen to a piece, and no depth.
A run at some depth is exactly a derivation, so what holds of every run is
proved by induction on the rules.
-/

set_option autoImplicit false

namespace YamlTypes.Include

variable {σ : Type}

/-- The run with what came before it in the same text. -/
def Run.after (run : Run σ) (loads : List Path) (here : Expansion) : Run σ :=
  { run with
    loads := loads ++ run.loads
    result := run.result.map fun later =>
      ⟨here.text ++ later.text, here.referenced ++ later.referenced⟩ }

def Run.within (inner : Run σ) (path : Path) (column : Nat) : Run σ :=
  { inner with
    loads := path :: inner.loads
    result := inner.result.map fun expansion =>
      ⟨reindent column expansion.text, path :: expansion.referenced⟩ }

@[simp] theorem Run.after_loads (run : Run σ) (loads : List Path) (here : Expansion) :
    (run.after loads here).loads = loads ++ run.loads := rfl

theorem Run.after_ok {run : Run σ} {later : Expansion} (finished : run.result = .ok later)
    (loads : List Path) (here : Expansion) :
    (run.after loads here).result =
      .ok ⟨here.text ++ later.text, here.referenced ++ later.referenced⟩ := by
  simp only [after, finished, Except.map]

@[simp] theorem Run.after_error_iff (run : Run σ) (loads : List Path) (here : Expansion)
    (failure : Failure) :
    (run.after loads here).result = .error failure ↔ run.result = .error failure := by
  cases finished : run.result <;> simp [after, finished, Except.map]

theorem Run.within_error {inner : Run σ} {failure : Failure}
    (finished : inner.result = .error failure) (path : Path) (column : Nat) :
    inner.within path column = ⟨inner.state, path :: inner.loads, .error failure⟩ := by
  simp only [within, finished, Except.map]

theorem Run.within_ok {inner : Run σ} {expansion : Expansion}
    (finished : inner.result = .ok expansion) (path : Path) (column : Nat) :
    inner.within path column = ⟨inner.state, path :: inner.loads,
      .ok ⟨reindent column expansion.text, path :: expansion.referenced⟩⟩ := by
  simp only [within, finished, Except.map]

theorem Run.ok_of_after_ok {run : Run σ} {loads : List Path} {here whole : Expansion}
    (finished : (run.after loads here).result = .ok whole) :
    ∃ later, run.result = .ok later ∧
      whole = ⟨here.text ++ later.text, here.referenced ++ later.referenced⟩ := by
  cases result : run.result with
  | error failure => simp [after, result, Except.map] at finished
  | ok later =>
      rw [Run.after_ok result] at finished
      exact ⟨later, rfl, (Except.ok.inj finished).symm⟩

section
variable (loader : Loader σ) (base : Path) (settings : Settings)

def refusal? (cycles : CycleMode) (chain : List Path) (d : Directive) : Option Failure :=
  if d.operand = [] then some (.missingOperand d.position.line d.text)
  else if cycles = .detect ∧ target base d.operand ∈ chain then
    some (.cycle (chain ++ [target base d.operand]))
  else none

/-- A directive leads from one state of the loader to a text and the next state. -/
structure Opens (chain : List Path) (d : Directive) (state : σ) (text : List Char)
    (next : σ) : Prop where
  allowed : refusal? base settings.cycles chain d = none
  loaded : loader.load (target base d.operand) settings.encoding state = (next, .ok text)

inductive Expands : List Path → List Piece → σ → Run σ → Prop
  | nil {chain state} : Expands chain [] state ⟨state, [], .ok ⟨[], []⟩⟩
  | char {chain c rest state run} :
      Expands chain rest state run →
      Expands chain (.char c :: rest) state (run.after [] ⟨[c], []⟩)
  | refused {chain d rest state failure} :
      refusal? base settings.cycles chain d = some failure →
      Expands chain (.directive d :: rest) state ⟨state, [], .error failure⟩
  | unreadable {chain d rest state next fault} :
      refusal? base settings.cycles chain d = none →
      loader.load (target base d.operand) settings.encoding state = (next, .error fault) →
      Expands chain (.directive d :: rest) state
        ⟨next, [target base d.operand], .error (.unreadable (target base d.operand) fault)⟩
  | failed {chain d rest state text next inner failure} :
      Opens loader base settings chain d state text next →
      Expands (chain ++ [target base d.operand]) (pieces text) next inner →
      inner.result = .error failure →
      Expands chain (.directive d :: rest) state
        ⟨inner.state, target base d.operand :: inner.loads, .error failure⟩
  | included {chain d rest state text next inner expansion run} :
      Opens loader base settings chain d state text next →
      Expands (chain ++ [target base d.operand]) (pieces text) next inner →
      inner.result = .ok expansion →
      Expands chain rest inner.state run →
      Expands chain (.directive d :: rest) state
        (run.after (target base d.operand :: inner.loads)
          ⟨reindent d.position.column expansion.text,
            target base d.operand :: expansion.referenced⟩)

end

def Loader.Answers (loader : Loader σ)
    (answer : Path → Encoding → Except FileFault (List Char)) : Prop :=
  ∀ path encoding state, (loader.load path encoding state).2 = answer path encoding

theorem Loader.ofStore_answers (answer : Path → Encoding → Except FileFault (List Char)) :
    (Loader.ofStore answer).Answers answer := fun _ _ _ => rfl

def storeOf (documents : List (String × String)) (path : Path) (_ : Encoding) :
    Except FileFault (List Char) :=
  match documents.lookup path.text with
  | some text => .ok text.toList
  | none => .error .notInMemory

theorem Opens.answer_eq {loader : Loader σ} {base : Path} {settings : Settings}
    {chain : List Path} {d : Directive} {state next : σ} {text : List Char}
    {answer : Path → Encoding → Except FileFault (List Char)}
    (opens : Opens loader base settings chain d state text next)
    (steady : loader.Answers answer) :
    answer (target base d.operand) settings.encoding = .ok text := by
  rw [← steady _ _ state, opens.loaded]

theorem refusal?_eq_none_iff {base : Path} {cycles : CycleMode} {chain : List Path}
    {d : Directive} :
    refusal? base cycles chain d = none ↔
      d.operand ≠ [] ∧ (cycles = .detect → target base d.operand ∉ chain) := by
  unfold refusal?
  split
  next unnamed => simp [unnamed]
  next named =>
    split
    next reentered => simp [reentered]
    next fresh => simpa [named] using fresh

theorem refusal?_eq_some_iff {base : Path} {cycles : CycleMode} {chain : List Path}
    {d : Directive} {failure : Failure} :
    refusal? base cycles chain d = some failure ↔
      (d.operand = [] ∧ failure = .missingOperand d.position.line d.text) ∨
      (d.operand ≠ [] ∧ cycles = .detect ∧ target base d.operand ∈ chain ∧
        failure = .cycle (chain ++ [target base d.operand])) := by
  unfold refusal?
  split
  next unnamed => simp [unnamed, eq_comm]
  next named =>
    split
    next reentered => simp [named, reentered, eq_comm]
    next fresh =>
      simp only [reduceCtorEq, named, false_and, ne_eq, not_false_eq_true, true_and, false_or,
        false_iff]
      exact fun reentered => fresh ⟨reentered.1, reentered.2.1⟩

section
variable {loader : Loader σ} {base : Path} {settings : Settings}
  {expandText : List Path → List Char → σ → Option (Run σ)}
  {chain : List Path} {d : Directive} {state next : σ}

theorem expandDirective_refused {failure : Failure}
    (refused : refusal? base settings.cycles chain d = some failure) :
    expandDirective loader base settings expandText chain d state =
      some ⟨state, [], .error failure⟩ := by
  rcases refusal?_eq_some_iff.mp refused with ⟨unnamed, rfl⟩ | ⟨named, detect, reentered, rfl⟩
  · simp only [expandDirective, unnamed, if_true]
  · simp only [expandDirective, named, detect, reentered, and_self, if_false, if_true]

theorem expandDirective_unreadable {fault : FileFault}
    (allowed : refusal? base settings.cycles chain d = none)
    (loaded : loader.load (target base d.operand) settings.encoding state =
      (next, .error fault)) :
    expandDirective loader base settings expandText chain d state =
      some ⟨next, [target base d.operand],
        .error (.unreadable (target base d.operand) fault)⟩ := by
  rcases refusal?_eq_none_iff.mp allowed with ⟨named, fresh⟩
  have followed : ¬ (settings.cycles = .detect ∧ target base d.operand ∈ chain) :=
    fun reentered => fresh reentered.1 reentered.2
  simp only [expandDirective, named, followed, if_false, loaded]

theorem expandDirective_opened (expandText : List Path → List Char → σ → Option (Run σ))
    {text : List Char} (opens : Opens loader base settings chain d state text next) :
    expandDirective loader base settings expandText chain d state =
      (expandText (chain ++ [target base d.operand]) text next).map
        fun inner => inner.within (target base d.operand) d.position.column := by
  rcases refusal?_eq_none_iff.mp opens.allowed with ⟨named, fresh⟩
  have followed : ¬ (settings.cycles = .detect ∧ target base d.operand ∈ chain) :=
    fun reentered => fresh reentered.1 reentered.2
  simp only [expandDirective, named, followed, if_false, opens.loaded]
  cases expandText (chain ++ [target base d.operand]) text next <;> rfl

@[simp] theorem expandPieces_char (c : Char) (rest : List Piece) :
    expandPieces loader base settings expandText chain (.char c :: rest) state =
      (expandPieces loader base settings expandText chain rest state).map
        fun run => run.after [] ⟨[c], []⟩ := by
  simp only [expandPieces]
  cases expandPieces loader base settings expandText chain rest state <;> rfl

theorem expandPieces_stopped {here : Run σ} {failure : Failure} (rest : List Piece)
    (expanded : expandDirective loader base settings expandText chain d state = some here)
    (finished : here.result = .error failure) :
    expandPieces loader base settings expandText chain (.directive d :: rest) state =
      some ⟨here.state, here.loads, .error failure⟩ := by
  simp only [expandPieces, expanded, Option.bind_eq_bind, Option.bind_some, finished]

theorem expandPieces_passed {here : Run σ} {expansion : Expansion} (rest : List Piece)
    (expanded : expandDirective loader base settings expandText chain d state = some here)
    (finished : here.result = .ok expansion) :
    expandPieces loader base settings expandText chain (.directive d :: rest) state =
      (expandPieces loader base settings expandText chain rest here.state).map
        fun run => run.after here.loads expansion := by
  simp only [expandPieces, expanded, Option.bind_eq_bind, Option.bind_some, finished]
  cases expandPieces loader base settings expandText chain rest here.state <;> rfl

theorem expandPieces_refused {failure : Failure} (rest : List Piece)
    (refused : refusal? base settings.cycles chain d = some failure) :
    expandPieces loader base settings expandText chain (.directive d :: rest) state =
      some ⟨state, [], .error failure⟩ :=
  expandPieces_stopped rest (expandDirective_refused refused) rfl

theorem expandPieces_unreadable {fault : FileFault} (rest : List Piece)
    (allowed : refusal? base settings.cycles chain d = none)
    (loaded : loader.load (target base d.operand) settings.encoding state =
      (next, .error fault)) :
    expandPieces loader base settings expandText chain (.directive d :: rest) state =
      some ⟨next, [target base d.operand],
        .error (.unreadable (target base d.operand) fault)⟩ :=
  expandPieces_stopped rest (expandDirective_unreadable allowed loaded) rfl

theorem expandPieces_unended {text : List Char} (rest : List Piece)
    (opens : Opens loader base settings chain d state text next)
    (unended : expandText (chain ++ [target base d.operand]) text next = none) :
    expandPieces loader base settings expandText chain (.directive d :: rest) state = none := by
  have entered := expandDirective_opened expandText opens
  rw [unended, Option.map_none] at entered
  simp only [expandPieces, entered, Option.bind_eq_bind, Option.bind_none]

theorem expandPieces_failed {text : List Char} {inner : Run σ} {failure : Failure}
    (rest : List Piece) (opens : Opens loader base settings chain d state text next)
    (expanded : expandText (chain ++ [target base d.operand]) text next = some inner)
    (finished : inner.result = .error failure) :
    expandPieces loader base settings expandText chain (.directive d :: rest) state =
      some ⟨inner.state, target base d.operand :: inner.loads, .error failure⟩ := by
  have entered := expandDirective_opened expandText opens
  rw [expanded, Option.map_some, Run.within_error finished] at entered
  exact expandPieces_stopped rest entered rfl

theorem expandPieces_included {text : List Char} {inner : Run σ} {expansion : Expansion}
    (rest : List Piece) (opens : Opens loader base settings chain d state text next)
    (expanded : expandText (chain ++ [target base d.operand]) text next = some inner)
    (finished : inner.result = .ok expansion) :
    expandPieces loader base settings expandText chain (.directive d :: rest) state =
      (expandPieces loader base settings expandText chain rest inner.state).map fun run =>
        run.after (target base d.operand :: inner.loads)
          ⟨reindent d.position.column expansion.text,
            target base d.operand :: expansion.referenced⟩ := by
  have entered := expandDirective_opened expandText opens
  rw [expanded, Option.map_some, Run.within_ok finished] at entered
  exact expandPieces_passed rest entered rfl

theorem directive_cases (loader : Loader σ) (base : Path) (settings : Settings)
    (chain : List Path) (d : Directive) (state : σ) :
    (∃ failure, refusal? base settings.cycles chain d = some failure) ∨
    (∃ next fault, refusal? base settings.cycles chain d = none ∧
      loader.load (target base d.operand) settings.encoding state = (next, .error fault)) ∨
    ∃ text next, Opens loader base settings chain d state text next := by
  cases refused : refusal? base settings.cycles chain d with
  | some failure => exact .inl ⟨failure, rfl⟩
  | none =>
      cases loaded : loader.load (target base d.operand) settings.encoding state with
      | mk next answer =>
          cases answer with
          | error fault => exact .inr (.inl ⟨next, fault, rfl, rfl⟩)
          | ok text => exact .inr (.inr ⟨text, next, refused, loaded⟩)

end

section
variable {loader : Loader σ} {base : Path} {settings : Settings}

/-- Pieces expand by the rules if the documents that they name do. -/
theorem Expands.of_expandPieces {expandText : List Path → List Char → σ → Option (Run σ)}
    (sound : ∀ {chain text state run}, expandText chain text state = some run →
      Expands loader base settings chain (pieces text) state run)
    {chain : List Path} {ps : List Piece} {state : σ} {run : Run σ}
    (expanded : expandPieces loader base settings expandText chain ps state = some run) :
    Expands loader base settings chain ps state run := by
  induction ps generalizing state run with
  | nil =>
      simp only [expandPieces, Option.some.injEq] at expanded
      subst expanded
      exact .nil
  | cons p rest inductionHypothesis =>
      cases p with
      | char c =>
          rw [expandPieces_char] at expanded
          rcases Option.map_eq_some_iff.mp expanded with ⟨later, laterExpanded, rfl⟩
          exact .char (inductionHypothesis laterExpanded)
      | directive d =>
          rcases directive_cases loader base settings chain d state with
            ⟨failure, refused⟩ | ⟨next, fault, allowed, loaded⟩ | ⟨text, next, opens⟩
          · rw [expandPieces_refused rest refused] at expanded
            cases expanded
            exact .refused refused
          · rw [expandPieces_unreadable rest allowed loaded] at expanded
            cases expanded
            exact .unreadable allowed loaded
          · cases innerExpanded : expandText (chain ++ [target base d.operand]) text next with
            | none =>
                rw [expandPieces_unended rest opens innerExpanded] at expanded
                cases expanded
            | some inner =>
                have derived := sound innerExpanded
                cases finished : inner.result with
                | error failure =>
                    rw [expandPieces_failed rest opens innerExpanded finished] at expanded
                    cases expanded
                    exact .failed opens derived finished
                | ok expansion =>
                    rw [expandPieces_included rest opens innerExpanded finished] at expanded
                    rcases Option.map_eq_some_iff.mp expanded with ⟨later, laterExpanded, rfl⟩
                    exact .included opens derived finished (inductionHypothesis laterExpanded)

theorem Expands.of_expand {depth : Nat} {chain : List Path} {text : List Char} {state : σ}
    {run : Run σ} (expanded : expand loader base settings depth chain text state = some run) :
    Expands loader base settings chain (pieces text) state run := by
  induction depth generalizing chain text state run with
  | zero => simp [expand] at expanded
  | succ depth inductionHypothesis => exact .of_expandPieces inductionHypothesis expanded

theorem Expands.expandPieces_eq {chain : List Path} {ps : List Piece} {state : σ} {run : Run σ}
    (derived : Expands loader base settings chain ps state run) :
    ∃ depth, ∀ deeper ≥ depth,
      expandPieces loader base settings (expand loader base settings deeper) chain ps state =
        some run := by
  induction derived with
  | nil => exact ⟨0, fun _ _ => rfl⟩
  | char _ inductionHypothesis =>
      rcases inductionHypothesis with ⟨depth, computed⟩
      refine ⟨depth, fun deeper bound => ?_⟩
      rw [expandPieces_char, computed deeper bound]
      rfl
  | refused refused => exact ⟨0, fun deeper _ => expandPieces_refused _ refused⟩
  | unreadable allowed loaded =>
      exact ⟨0, fun deeper _ => expandPieces_unreadable _ allowed loaded⟩
  | failed opens _ finished inductionHypothesis =>
      rcases inductionHypothesis with ⟨depth, computed⟩
      refine ⟨depth + 1, fun deeper bound => ?_⟩
      obtain ⟨less, rfl⟩ := Nat.exists_eq_add_of_le' bound
      exact expandPieces_failed _ opens (computed _ (Nat.le_add_left depth less)) finished
  | included opens _ finished _ innerHypothesis laterHypothesis =>
      rcases innerHypothesis with ⟨innerDepth, innerComputed⟩
      rcases laterHypothesis with ⟨laterDepth, laterComputed⟩
      refine ⟨max (innerDepth + 1) laterDepth, fun deeper bound => ?_⟩
      have laterBound : laterDepth ≤ deeper := Nat.le_trans (Nat.le_max_right _ _) bound
      obtain ⟨less, rfl⟩ := Nat.exists_eq_add_of_le' (Nat.le_trans (Nat.le_max_left _ _) bound)
      rw [← Nat.add_assoc] at laterBound ⊢
      rw [expandPieces_included _ opens (innerComputed _ (Nat.le_add_left innerDepth less))
        finished, laterComputed _ laterBound]
      rfl

/-- A run at some depth is exactly a derivation. -/
theorem exists_expand_iff {chain : List Path} {text : List Char} {state : σ} {run : Run σ} :
    (∃ depth, expand loader base settings depth chain text state = some run) ↔
      Expands loader base settings chain (pieces text) state run := by
  constructor
  · rintro ⟨depth, expanded⟩
    exact .of_expand expanded
  · intro derived
    rcases derived.expandPieces_eq with ⟨depth, computed⟩
    exact ⟨depth + 1, computed depth (Nat.le_refl depth)⟩

theorem Expands.unique {chain : List Path} {ps : List Piece} {state : σ} {first second : Run σ}
    (left : Expands loader base settings chain ps state first)
    (right : Expands loader base settings chain ps state second) : first = second := by
  rcases left.expandPieces_eq with ⟨leftDepth, leftComputed⟩
  rcases right.expandPieces_eq with ⟨rightDepth, rightComputed⟩
  have computed := leftComputed (max leftDepth rightDepth) (Nat.le_max_left _ _)
  rw [rightComputed (max leftDepth rightDepth) (Nat.le_max_right _ _)] at computed
  exact (Option.some.inj computed).symm

end

def Resolves (loader : Loader σ) (directory root : Path) (settings : Settings)
    (chain : List Path) (text : List Char) (state : σ) (run : Run σ) : Prop :=
  ∃ depth, resolve loader directory root settings depth chain text state = some run

section
variable {loader : Loader σ} {directory root : Path} {settings : Settings}
  {chain : List Path} {text : List Char} {state : σ}

theorem resolve_of_base {base : Path} (based : Path.absolute? directory root = some base)
    (depth : Nat) :
    resolve loader directory root settings depth chain text state =
      expand loader base settings depth chain text state := by
  simp only [resolve, based]

theorem resolve_of_no_base (rootless : Path.absolute? directory root = none) (depth : Nat) :
    resolve loader directory root settings depth chain text state =
      some ⟨state, [], .error (.unreadable root .emptyPath)⟩ := by
  simp only [resolve, rootless]

theorem resolves_iff_of_base {base : Path} {run : Run σ}
    (based : Path.absolute? directory root = some base) :
    Resolves loader directory root settings chain text state run ↔
      Expands loader base settings chain (pieces text) state run := by
  simp only [Resolves, resolve_of_base based, exists_expand_iff]

theorem resolves_iff_of_no_base {run : Run σ} (rootless : Path.absolute? directory root = none) :
    Resolves loader directory root settings chain text state run ↔
      run = ⟨state, [], .error (.unreadable root .emptyPath)⟩ := by
  simp only [Resolves, resolve_of_no_base rootless, Option.some.injEq, exists_const, eq_comm]

theorem Resolves.unique {first second : Run σ}
    (left : Resolves loader directory root settings chain text state first)
    (right : Resolves loader directory root settings chain text state second) :
    first = second := by
  cases based : Path.absolute? directory root with
  | none =>
      rw [resolves_iff_of_no_base based] at left right
      rw [left, right]
  | some base =>
      rw [resolves_iff_of_base based] at left right
      exact left.unique right

end

end YamlTypes.Include
