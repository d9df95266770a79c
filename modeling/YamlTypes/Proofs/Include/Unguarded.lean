import YamlTypes.Proofs.Include.Agreement

/-!
Expansion without a guard against cycles.

A guarded run that reports no cycle never used its guard, so the unguarded run
is the same. Conversely, a document that is included while it is being expanded
would be expanded once more in full. An unguarded run that ends would then
contain itself, with one load more at least. So it never comes back to a
document of its chain, and the guard does not change it.
-/

set_option autoImplicit false

namespace YamlTypes.Include

variable {σ : Type} {loader : Loader σ} {base : Path} {encoding : Encoding}
  {answer : Path → Encoding → Except FileFault (List Char)}

theorem refusal?_unchecked_of_none {chain : List Path} {d : Directive}
    (allowed : refusal? base .detect chain d = none) :
    refusal? base .unchecked chain d = none :=
  refusal?_eq_none_iff.mpr ⟨(refusal?_eq_none_iff.mp allowed).1, by simp⟩

theorem refusal?_detect_of_none {chain : List Path} {d : Directive}
    (allowed : refusal? base .unchecked chain d = none)
    (fresh : target base d.operand ∉ chain) : refusal? base .detect chain d = none :=
  refusal?_eq_none_iff.mpr ⟨(refusal?_eq_none_iff.mp allowed).1, fun _ => fresh⟩

theorem refusal?_unchecked_eq_some {chain : List Path} {d : Directive} {failure : Failure}
    (refused : refusal? base .unchecked chain d = some failure) :
    d.operand = [] ∧ failure = .missingOperand d.position.line d.text := by
  rcases refusal?_eq_some_iff.mp refused with missing | ⟨_, detect, _⟩
  · exact missing
  · cases detect

theorem Opens.unchecked {chain : List Path} {d : Directive} {state next : σ} {text : List Char}
    (opens : Opens loader base ⟨encoding, .detect⟩ chain d state text next) :
    Opens loader base ⟨encoding, .unchecked⟩ chain d state text next :=
  ⟨refusal?_unchecked_of_none opens.allowed, opens.loaded⟩

/-- A guarded run that reports no cycle is an unguarded one. -/
theorem Expands.unchecked {chain : List Path} {ps : List Piece} {state : σ} {run : Run σ}
    (derived : Expands loader base ⟨encoding, .detect⟩ chain ps state run)
    (acyclic : ∀ reported, run.result ≠ .error (.cycle reported)) :
    Expands loader base ⟨encoding, .unchecked⟩ chain ps state run := by
  induction derived with
  | nil => exact .nil
  | char _ inductionHypothesis =>
      simp only [ne_eq, Run.after_error_iff] at acyclic
      exact .char (inductionHypothesis acyclic)
  | refused refused =>
      rcases refusal?_eq_some_iff.mp refused with ⟨unnamed, rfl⟩ | ⟨_, _, _, rfl⟩
      · exact .refused (refusal?_eq_some_iff.mpr (.inl ⟨unnamed, rfl⟩))
      · exact absurd rfl (acyclic _)
  | unreadable allowed loaded => exact .unreadable (refusal?_unchecked_of_none allowed) loaded
  | failed opens _ finished inductionHypothesis =>
      rw [← finished] at acyclic
      exact .failed opens.unchecked (inductionHypothesis acyclic) finished
  | included opens _ finished _ innerHypothesis laterHypothesis =>
      simp only [ne_eq, Run.after_error_iff] at acyclic
      have innerAcyclic := innerHypothesis fun reported cyclic => by
        rw [finished] at cyclic
        cases cyclic
      exact .included opens.unchecked innerAcyclic finished (laterHypothesis acyclic)

/-- The same at a depth: without the guard pieces nest no deeper. -/
theorem expandPieces_unchecked {guarded unguarded : List Path → List Char → σ → Option (Run σ)}
    (same : ∀ {chain text state run}, guarded chain text state = some run →
      (∀ reported, run.result ≠ .error (.cycle reported)) →
        unguarded chain text state = some run)
    {chain : List Path} {ps : List Piece} {state : σ} {run : Run σ}
    (expanded : expandPieces loader base ⟨encoding, .detect⟩ guarded chain ps state = some run)
    (acyclic : ∀ reported, run.result ≠ .error (.cycle reported)) :
    expandPieces loader base ⟨encoding, .unchecked⟩ unguarded chain ps state = some run := by
  induction ps generalizing state run with
  | nil => exact expanded
  | cons p rest inductionHypothesis =>
      cases p with
      | char c =>
          rw [expandPieces_char] at expanded ⊢
          rcases Option.map_eq_some_iff.mp expanded with ⟨later, laterExpanded, rfl⟩
          simp only [ne_eq, Run.after_error_iff] at acyclic
          rw [inductionHypothesis laterExpanded acyclic, Option.map_some]
      | directive d =>
          rcases directive_cases loader base ⟨encoding, .detect⟩ chain d state with
            ⟨failure, refused⟩ | ⟨next, fault, allowed, loaded⟩ | ⟨text, next, opens⟩
          · rw [expandPieces_refused rest refused] at expanded
            cases expanded
            rcases refusal?_eq_some_iff.mp refused with ⟨unnamed, rfl⟩ | ⟨_, _, _, rfl⟩
            · exact expandPieces_refused rest (refusal?_eq_some_iff.mpr (.inl ⟨unnamed, rfl⟩))
            · exact absurd rfl (acyclic _)
          · rw [expandPieces_unreadable rest allowed loaded] at expanded
            cases expanded
            exact expandPieces_unreadable rest (refusal?_unchecked_of_none allowed) loaded
          · cases innerExpanded : guarded (chain ++ [target base d.operand]) text next with
            | none =>
                rw [expandPieces_unended rest opens innerExpanded] at expanded
                cases expanded
            | some inner =>
                cases finished : inner.result with
                | error failure =>
                    rw [expandPieces_failed rest opens innerExpanded finished] at expanded
                    cases expanded
                    have freely := same innerExpanded (finished ▸ acyclic)
                    exact expandPieces_failed rest opens.unchecked freely finished
                | ok expansion =>
                    rw [expandPieces_included rest opens innerExpanded finished] at expanded
                    rcases Option.map_eq_some_iff.mp expanded with ⟨later, laterExpanded, rfl⟩
                    simp only [ne_eq, Run.after_error_iff] at acyclic
                    have freely := same innerExpanded (by simp [finished])
                    rw [expandPieces_included rest opens.unchecked freely finished,
                      inductionHypothesis laterExpanded acyclic, Option.map_some]

theorem expand_unchecked {depth : Nat} {chain : List Path} {text : List Char} {state : σ}
    {run : Run σ}
    (expanded : expand loader base ⟨encoding, .detect⟩ depth chain text state = some run)
    (acyclic : ∀ reported, run.result ≠ .error (.cycle reported)) :
    expand loader base ⟨encoding, .unchecked⟩ depth chain text state = some run := by
  induction depth generalizing chain text state run with
  | zero => simp [expand] at expanded
  | succ depth inductionHypothesis =>
      exact expandPieces_unchecked inductionHypothesis expanded acyclic

theorem Expands.acyclic_of_unchecked {chain : List Path} {ps : List Piece} {state : σ}
    {run : Run σ} (derived : Expands loader base ⟨encoding, .unchecked⟩ chain ps state run)
    (reported : List Path) : run.result ≠ .error (.cycle reported) := by
  induction derived with
  | nil => simp
  | char _ inductionHypothesis => rwa [ne_eq, Run.after_error_iff]
  | refused refused => simp [(refusal?_unchecked_eq_some refused).2]
  | unreadable => simp
  | failed _ _ finished inductionHypothesis => rwa [finished] at inductionHypothesis
  | included _ _ _ _ _ laterHypothesis => rwa [ne_eq, Run.after_error_iff]

/-- Without a guard a text has the same run wherever it stands. -/
theorem Expands.alike (steady : loader.Answers answer) {chain other : List Path}
    {ps : List Piece} {state start : σ} {first second : Run σ}
    (left : Expands loader base ⟨encoding, .unchecked⟩ chain ps state first)
    (right : Expands loader base ⟨encoding, .unchecked⟩ other ps start second) :
    first.Alike second := by
  have unguarded : CycleMode.unchecked = .detect → other = chain := by simp
  rcases left.transfer steady steady (fun _ _ => rfl) unguarded start with
    ⟨moved, movedDerived, alike⟩
  rw [← movedDerived.unique right]
  exact alike

/-- Every document of the chain can be loaded, and takes so many loads at least if its expansion
ends without a guard. -/
def Outlasts (loader : Loader σ) (base : Path) (encoding : Encoding)
    (answer : Path → Encoding → Except FileFault (List Char)) (chain : List Path)
    (loads : Nat) : Prop :=
  ∀ path ∈ chain, ∃ text, answer path encoding = .ok text ∧
    ∀ other start run, Expands loader base ⟨encoding, .unchecked⟩ other (pieces text) start run →
      loads ≤ run.loads.length

theorem Outlasts.fewer {chain : List Path} {loads fewer : Nat}
    (outlasts : Outlasts loader base encoding answer chain loads) (bound : fewer ≤ loads) :
    Outlasts loader base encoding answer chain fewer := by
  intro path member
  rcases outlasts path member with ⟨text, found, takes⟩
  exact ⟨text, found, fun other start run derived =>
    Nat.le_trans bound (takes other start run derived)⟩

theorem Outlasts.extend (steady : loader.Answers answer) {chain : List Path} {d : Directive}
    {state next : σ} {text : List Char} {inner : Run σ}
    (outlasts : Outlasts loader base encoding answer chain inner.loads.length)
    (opens : Opens loader base ⟨encoding, .unchecked⟩ chain d state text next)
    (derived : Expands loader base ⟨encoding, .unchecked⟩ (chain ++ [target base d.operand])
      (pieces text) next inner) :
    Outlasts loader base encoding answer (chain ++ [target base d.operand])
      inner.loads.length := by
  intro path member
  rcases List.mem_append.mp member with earlier | last
  · exact outlasts path earlier
  · rw [List.mem_singleton.mp last]
    refine ⟨text, opens.answer_eq steady, fun other start run otherDerived => ?_⟩
    exact Nat.le_of_eq (congrArg List.length (derived.alike steady otherDerived).loads)

/-- A document that is opened while it is in the chain would take more loads than it takes. -/
theorem Outlasts.fresh (steady : loader.Answers answer) {chain : List Path} {d : Directive}
    {state next : σ} {text : List Char} {inner : Run σ} {loads : Nat}
    (outlasts : Outlasts loader base encoding answer chain loads)
    (opens : Opens loader base ⟨encoding, .unchecked⟩ chain d state text next)
    (derived : Expands loader base ⟨encoding, .unchecked⟩ (chain ++ [target base d.operand])
      (pieces text) next inner) (more : inner.loads.length < loads) :
    target base d.operand ∉ chain := by
  intro reentered
  rcases outlasts _ reentered with ⟨same, found, takes⟩
  obtain rfl := Except.ok.inj ((opens.answer_eq steady).symm.trans found)
  exact absurd more (Nat.not_lt.mpr (takes _ _ _ derived))

/-- An unguarded run that ends never uses the guard. -/
theorem Expands.detect (steady : loader.Answers answer) {chain : List Path} {ps : List Piece}
    {state : σ} {run : Run σ}
    (derived : Expands loader base ⟨encoding, .unchecked⟩ chain ps state run)
    (outlasts : Outlasts loader base encoding answer chain run.loads.length) :
    Expands loader base ⟨encoding, .detect⟩ chain ps state run := by
  induction derived with
  | nil => exact .nil
  | char _ inductionHypothesis => exact .char (inductionHypothesis outlasts)
  | refused refused =>
      exact .refused (refusal?_eq_some_iff.mpr (.inl (refusal?_unchecked_eq_some refused)))
  | @unreadable chain d rest state next fault allowed loaded =>
      refine .unreadable (refusal?_detect_of_none allowed fun reentered => ?_) loaded
      rcases outlasts _ reentered with ⟨text, found, _⟩
      rw [← steady _ _ state, loaded] at found
      cases found
  | @failed chain d rest state text next inner failure opens innerDerived finished
      inductionHypothesis =>
      have more : inner.loads.length < (target base d.operand :: inner.loads).length := by simp
      have fresh := outlasts.fresh steady opens innerDerived more
      have guarded : Opens loader base ⟨encoding, .detect⟩ chain d state text next :=
        ⟨refusal?_detect_of_none opens.allowed fresh, opens.loaded⟩
      have innerOutlasts := (outlasts.fewer (Nat.le_of_lt more)).extend steady opens innerDerived
      exact .failed guarded (inductionHypothesis innerOutlasts) finished
  | @included chain d rest state text next inner expansion later opens innerDerived finished _
      innerHypothesis laterHypothesis =>
      simp only [Run.after_loads] at outlasts
      have total : (target base d.operand :: inner.loads ++ later.loads).length =
          inner.loads.length + later.loads.length + 1 := by
        simp only [List.length_append, List.length_cons]
        omega
      rw [total] at outlasts
      have fresh := outlasts.fresh steady opens innerDerived (by omega)
      have guarded : Opens loader base ⟨encoding, .detect⟩ chain d state text next :=
        ⟨refusal?_detect_of_none opens.allowed fresh, opens.loaded⟩
      have innerFewer : Outlasts loader base encoding answer chain inner.loads.length :=
        outlasts.fewer (by omega)
      have innerOutlasts := innerFewer.extend steady opens innerDerived
      exact .included guarded (innerHypothesis innerOutlasts) finished
        (laterHypothesis (outlasts.fewer (by omega)))

/-- A run without a guard is exactly a run with it that reports no cycle, and where a cycle is
reported no run without the guard ends. -/
theorem resolve_unchecked_iff {directory root : Path} {text : List Char} {state : σ}
    (steady : loader.Answers answer) :
    (∀ run, Resolves loader directory root ⟨encoding, .unchecked⟩ [] text state run ↔
      Resolves loader directory root ⟨encoding, .detect⟩ [] text state run ∧
        ∀ chain, run.result ≠ .error (.cycle chain)) ∧
    (∀ unguarded guarded,
      Resolves loader directory root ⟨encoding, .unchecked⟩ [] text state unguarded →
      Resolves loader directory root ⟨encoding, .detect⟩ [] text state guarded →
        unguarded = guarded) ∧
    ∀ guarded chain, Resolves loader directory root ⟨encoding, .detect⟩ [] text state guarded →
      guarded.result = .error (.cycle chain) →
        ¬ ∃ unguarded,
          Resolves loader directory root ⟨encoding, .unchecked⟩ [] text state unguarded := by
  have same : ∀ run, Resolves loader directory root ⟨encoding, .unchecked⟩ [] text state run ↔
      Resolves loader directory root ⟨encoding, .detect⟩ [] text state run ∧
        ∀ chain, run.result ≠ .error (.cycle chain) := by
    intro run
    cases based : Path.absolute? directory root with
    | none =>
        rw [resolves_iff_of_no_base based, resolves_iff_of_no_base based]
        constructor
        · rintro rfl
          simp
        · exact And.left
    | some base =>
        rw [resolves_iff_of_base based, resolves_iff_of_base based]
        constructor
        · intro derived
          exact ⟨derived.detect steady (by simp [Outlasts]), derived.acyclic_of_unchecked⟩
        · rintro ⟨derived, acyclic⟩
          exact derived.unchecked acyclic
  refine ⟨same, ?_, ?_⟩
  · intro unguarded guarded ended guardedEnded
    exact ((same unguarded).mp ended).1.unique guardedEnded
  · rintro guarded chain guardedEnded cyclic ⟨unguarded, ended⟩
    rcases (same unguarded).mp ended with ⟨sameEnded, acyclic⟩
    rw [sameEnded.unique guardedEnded] at acyclic
    exact acyclic chain cyclic

def endlessDocuments : List (String × String) :=
  [("/b/a", "{{ include c }}{{ include ./a }}"), ("/b/c", "x")]

theorem resolve_unchecked_iff_endless :
    (Loader.ofStore (storeOf endlessDocuments)).Answers (storeOf endlessDocuments) ∧
    Resolves (Loader.ofStore (storeOf endlessDocuments)) ⟨"/"⟩ ⟨"/b"⟩ ⟨.utf8, .detect⟩ []
      "{{ include a }}".toList ()
      ⟨(), [⟨"/b/a"⟩, ⟨"/b/c"⟩], .error (.cycle [⟨"/b/a"⟩, ⟨"/b/a"⟩])⟩ ∧
    ¬ ∃ unguarded, Resolves (Loader.ofStore (storeOf endlessDocuments)) ⟨"/"⟩ ⟨"/b"⟩
      ⟨.utf8, .unchecked⟩ [] "{{ include a }}".toList () unguarded := by
  have steady := Loader.ofStore_answers (storeOf endlessDocuments)
  have guarded : Resolves (Loader.ofStore (storeOf endlessDocuments)) ⟨"/"⟩ ⟨"/b"⟩
      ⟨.utf8, .detect⟩ [] "{{ include a }}".toList ()
      ⟨(), [⟨"/b/a"⟩, ⟨"/b/c"⟩], .error (.cycle [⟨"/b/a"⟩, ⟨"/b/a"⟩])⟩ := ⟨3, by rfl⟩
  exact ⟨steady, guarded, (resolve_unchecked_iff steady).2.2 _ _ guarded rfl⟩

end YamlTypes.Include
