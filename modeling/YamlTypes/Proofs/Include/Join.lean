import YamlTypes.Proofs.Include.Agreement
import YamlTypes.Proofs.Include.Lines
import Mathlib.Data.List.Forall2

/-!
Texts that are resolved together.

Pieces are expanded one after the other, and the first failure ends the run. Of
the place of a directive an expansion uses the column, and the line only if the
directive names nothing. So two texts with a newline between them are resolved
like the one and then the other.
-/

set_option autoImplicit false

namespace YamlTypes.Include

theorem Run.after_after {σ : Type} (run : Run σ) (loads more : List Path)
    (first second : Expansion) :
    (run.after more second).after loads first =
      run.after (loads ++ more)
        ⟨first.text ++ second.text, first.referenced ++ second.referenced⟩ := by
  cases finished : run.result <;> simp [after, finished, Except.map]

theorem Run.after_nothing {σ : Type} (run : Run σ) : run.after [] ⟨[], []⟩ = run := by
  obtain ⟨state, loads, result⟩ := run
  cases result <;> rfl

section
variable {σ : Type} {loader : Loader σ} {base : Path} {settings : Settings} {chain : List Path}

theorem Expands.append_error {ps : List Piece} {state : σ} {run : Run σ} {failure : Failure}
    (derived : Expands loader base settings chain ps state run)
    (finished : run.result = .error failure) (qs : List Piece) :
    Expands loader base settings chain (ps ++ qs) state run := by
  induction derived with
  | nil => cases finished
  | char _ inductionHypothesis =>
      exact .char (inductionHypothesis ((Run.after_error_iff _ _ _ _).mp finished))
  | refused refused => exact .refused refused
  | unreadable allowed loaded => exact .unreadable allowed loaded
  | failed opens derived failed _ => exact .failed opens derived failed
  | included opens derived succeeded _ _ laterHypothesis =>
      exact .included opens derived succeeded
        (laterHypothesis ((Run.after_error_iff _ _ _ _).mp finished))

theorem Expands.append {ps qs : List Piece} {state : σ} {first run : Run σ} {here : Expansion}
    (derived : Expands loader base settings chain ps state first)
    (succeeded : first.result = .ok here)
    (more : Expands loader base settings chain qs first.state run) :
    Expands loader base settings chain (ps ++ qs) state (run.after first.loads here) := by
  induction derived generalizing here with
  | nil =>
      cases succeeded
      rwa [Run.after_nothing]
  | @char chain c _ _ _ _ inductionHypothesis =>
      rcases Run.ok_of_after_ok succeeded with ⟨later, laterSucceeded, rfl⟩
      have whole := (inductionHypothesis laterSucceeded more).char (c := c)
      rwa [Run.after_after] at whole
  | refused => cases succeeded
  | unreadable => cases succeeded
  | failed => cases succeeded
  | included opens derived finished _ _ laterHypothesis =>
      rcases Run.ok_of_after_ok succeeded with ⟨later, laterSucceeded, rfl⟩
      have whole := Expands.included opens derived finished (laterHypothesis laterSucceeded more)
      rwa [Run.after_after] at whole

/-- Every run of pieces put together comes about in one of these two ways. -/
theorem Expands.of_append {ps qs : List Piece} {state : σ} {run : Run σ}
    (derived : Expands loader base settings chain (ps ++ qs) state run) :
    (∃ failure, run.result = .error failure ∧
      Expands loader base settings chain ps state run) ∨
    ∃ first here later, Expands loader base settings chain ps state first ∧
      first.result = .ok here ∧ Expands loader base settings chain qs first.state later ∧
      run = later.after first.loads here := by
  induction ps generalizing state run with
  | nil => exact .inr ⟨_, _, run, .nil, rfl, derived, (Run.after_nothing run).symm⟩
  | cons p ps inductionHypothesis =>
      rw [List.cons_append] at derived
      cases derived with
      | char derived =>
          rcases inductionHypothesis derived with
            ⟨failure, finished, stopped⟩ | ⟨first, here, later, started, succeeded, more, rfl⟩
          · exact .inl ⟨failure, (Run.after_error_iff _ _ _ _).mpr finished, .char stopped⟩
          · refine .inr ⟨_, _, later, .char started, Run.after_ok succeeded _ _, more, ?_⟩
            rw [Run.after_after]
            rfl
      | refused refused => exact .inl ⟨_, rfl, .refused refused⟩
      | unreadable allowed loaded => exact .inl ⟨_, rfl, .unreadable allowed loaded⟩
      | failed opens derived finished => exact .inl ⟨_, rfl, .failed opens derived finished⟩
      | included opens inner finished derived =>
          rcases inductionHypothesis derived with
            ⟨failure, stopped, whole⟩ | ⟨first, here, later, started, succeeded, more, rfl⟩
          · exact .inl ⟨failure, (Run.after_error_iff _ _ _ _).mpr stopped,
              .included opens inner finished whole⟩
          · refine .inr ⟨_, _, later, .included opens inner finished started,
              Run.after_ok succeeded _ _, more, ?_⟩
            rw [Run.after_after]
            rfl

end

/-- Pieces that differ in their places at most, and not in their columns. -/
inductive Piece.Matches : Piece → Piece → Prop
  | char (c : Char) : Matches (.char c) (.char c)
  | directive {d e : Directive} :
      d.operand = e.operand → d.position.column = e.position.column →
      Matches (.directive d) (.directive e)

theorem Piece.matches_moved (bytes lines : Nat) (ps : List Piece) :
    List.Forall₂ Matches ps (ps.map (Piece.moved bytes lines)) := by
  rw [List.forall₂_map_right_iff, List.forall₂_same]
  intro p _
  cases p with
  | char c => exact .char c
  | directive d => exact .directive rfl rfl

theorem Piece.moved_matches (bytes lines : Nat) (ps : List Piece) :
    List.Forall₂ Matches (ps.map (Piece.moved bytes lines)) ps := by
  rw [List.forall₂_map_left_iff, List.forall₂_same]
  intro p _
  cases p with
  | char c => exact .char c
  | directive d => exact .directive rfl rfl

section
variable {σ : Type} (loader : Loader σ) (base : Path) (settings : Settings)

/-- One of the pieces themselves is a directive that names nothing, and all before it expand. -/
def ReachesMissing (chain : List Path) (ps : List Piece) (state : σ) (d : Directive) : Prop :=
  d.operand = [] ∧ ∃ before after first here, ps = before ++ .directive d :: after ∧
    Expands loader base settings chain before state first ∧ first.result = .ok here

end

section
variable {σ : Type} {loader : Loader σ} {base : Path} {settings : Settings} {chain : List Path}

theorem refusal?_eq_none_of_operand {d e : Directive} (same : d.operand = e.operand)
    (allowed : refusal? base settings.cycles chain d = none) :
    refusal? base settings.cycles chain e = none := by
  rw [refusal?_eq_none_iff, ← same]
  exact refusal?_eq_none_iff.mp allowed

theorem Opens.of_operand {d e : Directive} {state next : σ} {text : List Char}
    (same : d.operand = e.operand) (opens : Opens loader base settings chain d state text next) :
    Opens loader base settings chain e state text next where
  allowed := refusal?_eq_none_of_operand same opens.allowed
  loaded := by
    rw [← same]
    exact opens.loaded

theorem Expands.of_matches {ps qs : List Piece} {state : σ} {run : Run σ} {expansion : Expansion}
    (derived : Expands loader base settings chain ps state run)
    (succeeded : run.result = .ok expansion) (same : List.Forall₂ Piece.Matches ps qs) :
    Expands loader base settings chain qs state run := by
  induction derived generalizing qs expansion with
  | nil =>
      cases same
      exact .nil
  | char _ inductionHypothesis =>
      rcases Run.ok_of_after_ok succeeded with ⟨later, laterSucceeded, _⟩
      rcases same with _ | ⟨matched, sameRest⟩
      cases matched
      exact .char (inductionHypothesis laterSucceeded sameRest)
  | refused => cases succeeded
  | unreadable => cases succeeded
  | failed => cases succeeded
  | included opens inner finished _ _ laterHypothesis =>
      rcases Run.ok_of_after_ok succeeded with ⟨later, laterSucceeded, _⟩
      rcases same with _ | ⟨matched, sameRest⟩
      cases matched with
      | directive sameOperand sameColumn =>
          rw [sameOperand, sameColumn]
          rw [sameOperand] at inner
          exact .included (opens.of_operand sameOperand) inner finished
            (laterHypothesis laterSucceeded sameRest)

/-- A failure is the same for directives on other lines, unless one of them names nothing. -/
theorem Expands.moved_of_error (bytes lines : Nat) {ps : List Piece} {state : σ} {run : Run σ}
    {failure : Failure} (derived : Expands loader base settings chain ps state run)
    (finished : run.result = .error failure) :
    (∃ d, ReachesMissing loader base settings chain ps state d) ∨
    Expands loader base settings chain (ps.map (Piece.moved bytes lines)) state run := by
  induction derived with
  | nil => cases finished
  | @char chain c rest state run _ inductionHypothesis =>
      rcases inductionHypothesis ((Run.after_error_iff _ _ _ _).mp finished) with
        ⟨d, unnamed, before, after, first, here, rfl, started, succeeded⟩ | moved
      · exact .inl ⟨d, unnamed, .char c :: before, after, _, _, rfl, .char started,
          Run.after_ok succeeded _ _⟩
      · exact .inr (.char moved)
  | @refused chain d rest state failure refused =>
      rcases refusal?_eq_some_iff.mp refused with ⟨unnamed, rfl⟩ | cyclic
      · exact .inl ⟨d, unnamed, [], rest, _, _, rfl, .nil, rfl⟩
      · exact .inr (.refused (refusal?_eq_some_iff.mpr (.inr cyclic)))
  | @unreadable chain d rest state next fault allowed loaded =>
      exact .inr (.unreadable
        (refusal?_eq_none_of_operand (d.moved_operand bytes lines).symm allowed) loaded)
  | @failed chain d rest state text next inner failure opens derived stopped _ =>
      have moved : Opens loader base settings chain (d.moved bytes lines) state text next :=
        opens.of_operand (d.moved_operand bytes lines).symm
      exact .inr (.failed moved derived stopped)
  | @included chain d rest state text next inner expansion run opens derived succeeded _ _
      laterHypothesis =>
      rcases laterHypothesis ((Run.after_error_iff _ _ _ _).mp finished) with
        ⟨e, unnamed, before, after, first, here, rfl, started, ended⟩ | rest
      · exact .inl ⟨e, unnamed, .directive d :: before, after, _, _, rfl,
          .included opens derived succeeded started, Run.after_ok ended _ _⟩
      · have moved : Opens loader base settings chain (d.moved bytes lines) state text next :=
          opens.of_operand (d.moved_operand bytes lines).symm
        exact .inr (.included moved derived succeeded rest)

theorem ReachesMissing.moved (bytes lines : Nat) {ps : List Piece} {state : σ} {d : Directive}
    (reaches : ReachesMissing loader base settings chain ps state d) :
    ReachesMissing loader base settings chain (ps.map (Piece.moved bytes lines)) state
      (d.moved bytes lines) := by
  obtain ⟨unnamed, before, after, first, here, rfl, started, succeeded⟩ := reaches
  refine ⟨unnamed, before.map (Piece.moved bytes lines), after.map (Piece.moved bytes lines),
    first, here, ?_, started.of_matches succeeded (Piece.matches_moved bytes lines before),
    succeeded⟩
  rw [List.map_append, List.map_cons]
  rfl

theorem ReachesMissing.expands {ps : List Piece} {state : σ} {d : Directive}
    (reaches : ReachesMissing loader base settings chain ps state d) :
    ∃ run, Expands loader base settings chain ps state run ∧
      run.result = .error (.missingOperand d.position.line d.text) := by
  obtain ⟨unnamed, before, after, first, here, rfl, started, succeeded⟩ := reaches
  have refused : refusal? base settings.cycles chain d =
      some (.missingOperand d.position.line d.text) :=
    refusal?_eq_some_iff.mpr (.inl ⟨unnamed, rfl⟩)
  exact ⟨_, started.append succeeded (.refused refused), rfl⟩

theorem ReachesMissing.restart {answer : Path → Encoding → Except FileFault (List Char)}
    (steady : loader.Answers answer) {ps : List Piece} {state : σ} {d : Directive}
    (reaches : ReachesMissing loader base settings chain ps state d) (start : σ) :
    ReachesMissing loader base settings chain ps start d := by
  obtain ⟨unnamed, before, after, first, here, rfl, started, succeeded⟩ := reaches
  rcases started.transfer steady steady (fun _ _ => rfl) (fun _ => rfl) start with
    ⟨again, restarted, alike⟩
  exact ⟨unnamed, before, after, again, here, rfl, restarted, alike.result ▸ succeeded⟩

/-- A run of the second text follows one of the first, on the same lines or further down. -/
theorem Expands.join {first second : List Char} {bytes : Nat}
    (split : pieces (first ++ '\n' :: second) = pieces first ++
      .char '\n' :: (pieces second).map (Piece.moved bytes (first.count '\n' + 1)))
    {state : σ} {run later : Run σ} {here : Expansion}
    (derived : Expands loader base settings chain (pieces first) state run)
    (succeeded : run.result = .ok here)
    (more : Expands loader base settings chain
      ((pieces second).map (Piece.moved bytes (first.count '\n' + 1))) run.state later) :
    Expands loader base settings chain (pieces (first ++ '\n' :: second)) state
      (later.after run.loads ⟨here.text ++ ['\n'], here.referenced⟩) := by
  have whole := derived.append succeeded (more.char (c := '\n'))
  rw [Run.after_after, ← split] at whole
  simpa only [List.append_nil] using whole

section
variable {answer : Path → Encoding → Except FileFault (List Char)} {first second : List Char}
  {state : σ}

theorem Expands.parts_of_join (steady : loader.Answers answer) {run : Run σ} {expansion : Expansion}
    (derived : Expands loader base settings chain (pieces (first ++ '\n' :: second)) state run)
    (succeeded : run.result = .ok expansion) :
    (∃ run here, Expands loader base settings chain (pieces first) state run ∧
      run.result = .ok here) ∧
    ∃ run there, Expands loader base settings chain (pieces second) state run ∧
      run.result = .ok there := by
  rcases pieces_append_newline first second with ⟨bytes, split⟩
  rw [split] at derived
  rcases derived.of_append with
    ⟨failure, failed, _⟩ | ⟨started, here, later, before, began, after, rfl⟩
  · cases failed.symm.trans succeeded
  · refine ⟨⟨started, here, before, began⟩, ?_⟩
    rcases Run.ok_of_after_ok succeeded with ⟨rest, finished, _⟩
    cases after with
    | char moved =>
        rcases Run.ok_of_after_ok finished with ⟨there, ended, _⟩
        have back := moved.of_matches ended (Piece.moved_matches bytes _ _)
        rcases back.transfer steady steady (fun _ _ => rfl) (fun _ => rfl) state with
          ⟨again, restarted, alike⟩
        exact ⟨again, there, restarted, alike.result ▸ ended⟩

theorem Expands.join_ok (steady : loader.Answers answer) {before after : Run σ}
    {here there : Expansion}
    (derived : Expands loader base settings chain (pieces first) state before)
    (succeeded : before.result = .ok here)
    (more : Expands loader base settings chain (pieces second) state after)
    (ended : after.result = .ok there) :
    ∃ run, Expands loader base settings chain (pieces (first ++ '\n' :: second)) state run ∧
      run.result =
        .ok ⟨here.text ++ '\n' :: there.text, here.referenced ++ there.referenced⟩ := by
  rcases pieces_append_newline first second with ⟨bytes, split⟩
  rcases more.transfer steady steady (fun _ _ => rfl) (fun _ => rfl) before.state with
    ⟨again, restarted, alike⟩
  have finished : again.result = .ok there := alike.result ▸ ended
  have moved := restarted.of_matches finished (Piece.matches_moved bytes (first.count '\n' + 1) _)
  refine ⟨_, derived.join split succeeded moved, ?_⟩
  rw [Run.after_ok finished, List.append_assoc, List.singleton_append]

/-- A failure of the second text alone is that of the two together, except that a missing operand
of its own is reported on its line there. -/
theorem Expands.join_error (steady : loader.Answers answer) {before after : Run σ}
    {here : Expansion} {failure : Failure}
    (derived : Expands loader base settings chain (pieces first) state before)
    (succeeded : before.result = .ok here)
    (more : Expands loader base settings chain (pieces second) state after)
    (failed : after.result = .error failure) :
    ∃ run, Expands loader base settings chain (pieces (first ++ '\n' :: second)) state run ∧
      ((∃ d, ReachesMissing loader base settings chain (pieces second) state d ∧
        failure = .missingOperand d.position.line d.text ∧
        run.result =
          .error (.missingOperand (d.position.line + (first.count '\n' + 1)) d.text)) ∨
      (¬ ∃ d, ReachesMissing loader base settings chain (pieces second) state d) ∧
        run.result = .error failure) := by
  rcases pieces_append_newline first second with ⟨bytes, split⟩
  by_cases missing : ∃ d, ReachesMissing loader base settings chain (pieces second) state d
  · rcases missing with ⟨d, reaches⟩
    rcases reaches.expands with ⟨run, expanded, result⟩
    rw [more.unique expanded, result] at failed
    rcases ((reaches.restart steady before.state).moved bytes (first.count '\n' + 1)).expands with
      ⟨later, moved, reported⟩
    exact ⟨_, derived.join split succeeded moved, .inl ⟨d, reaches, (Except.error.inj failed).symm,
      (Run.after_error_iff _ _ _ _).mpr reported⟩⟩
  · rcases more.transfer steady steady (fun _ _ => rfl) (fun _ => rfl) before.state with
      ⟨again, restarted, alike⟩
    have stopped : again.result = .error failure := alike.result ▸ failed
    rcases restarted.moved_of_error bytes (first.count '\n' + 1) stopped with
      ⟨d, reaches⟩ | moved
    · exact absurd ⟨d, reaches.restart steady state⟩ missing
    · exact ⟨_, derived.join split succeeded moved,
        .inr ⟨missing, (Run.after_error_iff _ _ _ _).mpr stopped⟩⟩

end

end

/-- Below some base directory, one of the directives of the text itself names nothing, and all
before it expand. -/
def LacksOperand {σ : Type} (loader : Loader σ) (directory root : Path) (settings : Settings)
    (text : List Char) (state : σ) (d : Directive) : Prop :=
  ∃ base, Path.absolute? directory root = some base ∧
    ReachesMissing loader base settings [] (pieces text) state d

/-- Two texts with a newline between them are resolved together exactly if each of them is, to the
two results with a newline between them. The first failure is that of the whole; only the line of
a directive of the second text itself is counted from the beginning of the first. -/
theorem resolve_append_newline {σ : Type} {loader : Loader σ}
    {answer : Path → Encoding → Except FileFault (List Char)} (steady : loader.Answers answer)
    (directory root : Path) (settings : Settings) (first second : List Char) (state : σ) :
    ((∃ run whole, Resolves loader directory root settings [] (first ++ '\n' :: second) state run ∧
        run.result = .ok whole) ↔
      (∃ run here, Resolves loader directory root settings [] first state run ∧
        run.result = .ok here) ∧
      ∃ run there, Resolves loader directory root settings [] second state run ∧
        run.result = .ok there) ∧
    (∀ before here after there run,
      Resolves loader directory root settings [] first state before → before.result = .ok here →
      Resolves loader directory root settings [] second state after → after.result = .ok there →
      Resolves loader directory root settings [] (first ++ '\n' :: second) state run →
        run.result =
          .ok ⟨here.text ++ '\n' :: there.text, here.referenced ++ there.referenced⟩) ∧
    (∀ before failure, Resolves loader directory root settings [] first state before →
      before.result = .error failure →
      ∃ run, Resolves loader directory root settings [] (first ++ '\n' :: second) state run ∧
        run.result = .error failure) ∧
    ∀ before here after failure,
      Resolves loader directory root settings [] first state before → before.result = .ok here →
      Resolves loader directory root settings [] second state after →
      after.result = .error failure →
      ∃ run, Resolves loader directory root settings [] (first ++ '\n' :: second) state run ∧
        ((∃ d, LacksOperand loader directory root settings second state d ∧
          failure = .missingOperand d.position.line d.text ∧
          run.result =
            .error (.missingOperand (d.position.line + (first.count '\n' + 1)) d.text)) ∨
        (¬ ∃ d, LacksOperand loader directory root settings second state d) ∧
          run.result = .error failure) := by
  cases based : Path.absolute? directory root with
  | none =>
      simp only [resolves_iff_of_no_base based]
      refine ⟨?_, ?_, ?_, ?_⟩
      · simp
      · rintro before here after there run rfl finished
        cases finished
      · rintro before failure rfl failed
        exact ⟨_, rfl, failed⟩
      · rintro before here after failure rfl finished
        cases finished
  | some base =>
      simp only [resolves_iff_of_base based, LacksOperand, based, Option.some.injEq,
        exists_eq_left']
      refine ⟨⟨?_, ?_⟩, ?_, ?_, ?_⟩
      · rintro ⟨run, whole, derived, succeeded⟩
        exact derived.parts_of_join steady succeeded
      · rintro ⟨⟨before, here, derived, succeeded⟩, after, there, more, ended⟩
        rcases derived.join_ok steady succeeded more ended with ⟨run, joined, result⟩
        exact ⟨run, _, joined, result⟩
      · intro before here after there run derived succeeded more ended joined
        rcases derived.join_ok steady succeeded more ended with ⟨same, sameJoined, result⟩
        rw [joined.unique sameJoined, result]
      · intro before failure derived failed
        rcases pieces_append_newline first second with ⟨bytes, split⟩
        refine ⟨before, ?_, failed⟩
        rw [split]
        exact derived.append_error failed _
      · intro before here after failure derived succeeded more failed
        exact derived.join_error steady succeeded more failed

def halfDocuments : List (String × String) := [("/b/a", "x\ny")]

theorem resolve_append_newline_half :
    (Loader.ofStore (storeOf halfDocuments)).Answers (storeOf halfDocuments) ∧
    ∃ run, Resolves (Loader.ofStore (storeOf halfDocuments)) ⟨"/"⟩ ⟨"/b"⟩ {} []
        ("1: {{ include a }}".toList ++ '\n' :: "2\n3: {{ include }}".toList) () run ∧
      ((∃ d, LacksOperand (Loader.ofStore (storeOf halfDocuments)) ⟨"/"⟩ ⟨"/b"⟩ {}
          "2\n3: {{ include }}".toList () d ∧
        Failure.missingOperand 2 "{{ include }}".toList =
          .missingOperand d.position.line d.text ∧
        run.result = .error (.missingOperand (d.position.line + 1) d.text)) ∨
      (¬ ∃ d, LacksOperand (Loader.ofStore (storeOf halfDocuments)) ⟨"/"⟩ ⟨"/b"⟩ {}
          "2\n3: {{ include }}".toList () d) ∧
        run.result = .error (.missingOperand 2 "{{ include }}".toList)) := by
  have steady := Loader.ofStore_answers (storeOf halfDocuments)
  have first : Resolves (Loader.ofStore (storeOf halfDocuments)) ⟨"/"⟩ ⟨"/b"⟩ {} []
      "1: {{ include a }}".toList ()
      ⟨(), [⟨"/b/a"⟩], .ok ⟨"1: x\n   y".toList, [⟨"/b/a"⟩]⟩⟩ := ⟨2, by rfl⟩
  have second : Resolves (Loader.ofStore (storeOf halfDocuments)) ⟨"/"⟩ ⟨"/b"⟩ {} []
      "2\n3: {{ include }}".toList ()
      ⟨(), [], .error (.missingOperand 2 "{{ include }}".toList)⟩ := ⟨2, by rfl⟩
  exact ⟨steady, (resolve_append_newline steady _ _ _ _ _ _).2.2.2 _ _ _ _ first rfl second rfl⟩

end YamlTypes.Include
