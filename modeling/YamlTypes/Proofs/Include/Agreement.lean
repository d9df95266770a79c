import YamlTypes.Proofs.Include.Derivation

/-!
Loaders that agree on what a run asks for.

A run sees nothing of a loader but its answers to the paths that it loads. Its
chain counts only where cycles are detected.
-/

set_option autoImplicit false

namespace YamlTypes.Include

variable {σ τ : Type}

structure Run.Alike (first : Run σ) (second : Run τ) : Prop where
  loads : first.loads = second.loads
  result : first.result = second.result

theorem Run.Alike.after {first : Run σ} {second : Run τ} (alike : first.Alike second)
    (loads : List Path) (here : Expansion) :
    (first.after loads here).Alike (second.after loads here) where
  loads := by rw [Run.after_loads, Run.after_loads, alike.loads]
  result := by simp only [Run.after, alike.result]

theorem Loader.Answers.load_eq {loader : Loader σ}
    {answer : Path → Encoding → Except FileFault (List Char)} (steady : loader.Answers answer)
    (path : Path) (encoding : Encoding) (state : σ) :
    loader.load path encoding state =
      ((loader.load path encoding state).1, answer path encoding) :=
  Prod.ext rfl (steady path encoding state)

theorem refusal?_congr {base : Path} {cycles : CycleMode} {chain other : List Path}
    (same : cycles = .detect → other = chain) (d : Directive) :
    refusal? base cycles other d = refusal? base cycles chain d := by
  cases cycles with
  | detect => rw [same rfl]
  | unchecked => simp [refusal?]

theorem Opens.transfer {loader : Loader σ} {second : Loader τ} {base : Path}
    {settings : Settings} {answer otherAnswer : Path → Encoding → Except FileFault (List Char)}
    (steady : loader.Answers answer) (otherSteady : second.Answers otherAnswer)
    {chain other : List Path} {d : Directive} {state next : σ} {text : List Char}
    (opens : Opens loader base settings chain d state text next)
    (agree : otherAnswer (target base d.operand) settings.encoding =
      answer (target base d.operand) settings.encoding)
    (same : settings.cycles = .detect → other = chain) (start : τ) :
    Opens second base settings other d start text
      (second.load (target base d.operand) settings.encoding start).1 where
  allowed := (refusal?_congr same d).trans opens.allowed
  loaded := by rw [otherSteady.load_eq, agree, opens.answer_eq steady]

/-- Another loader that answers alike wherever a run has asked has an equal run. -/
theorem Expands.transfer {loader : Loader σ} {second : Loader τ} {base : Path}
    {settings : Settings} {answer otherAnswer : Path → Encoding → Except FileFault (List Char)}
    (steady : loader.Answers answer) (otherSteady : second.Answers otherAnswer)
    {chain : List Path} {ps : List Piece} {state : σ} {run : Run σ}
    (derived : Expands loader base settings chain ps state run)
    (agree : ∀ path ∈ run.loads,
      otherAnswer path settings.encoding = answer path settings.encoding)
    {other : List Path} (same : settings.cycles = .detect → other = chain) (start : τ) :
    ∃ otherRun, Expands second base settings other ps start otherRun ∧ run.Alike otherRun := by
  induction derived generalizing other start with
  | nil => exact ⟨_, .nil, rfl, rfl⟩
  | char _ inductionHypothesis =>
      rcases inductionHypothesis agree same start with ⟨later, laterDerived, alike⟩
      exact ⟨_, .char laterDerived, alike.after _ _⟩
  | refused refused =>
      exact ⟨_, .refused ((refusal?_congr same _).trans refused), rfl, rfl⟩
  | @unreadable chain d rest state next fault allowed loaded =>
      have answered : otherAnswer (target base d.operand) settings.encoding = .error fault := by
        rw [agree _ (List.mem_singleton_self _), ← steady _ _ state, loaded]
      have otherLoaded := otherSteady.load_eq (target base d.operand) settings.encoding start
      rw [answered] at otherLoaded
      exact ⟨_, .unreadable ((refusal?_congr same _).trans allowed) otherLoaded, rfl, rfl⟩
  | @failed chain d rest state text next inner failure opens _ finished inductionHypothesis =>
      have otherOpens := opens.transfer steady otherSteady (agree _ List.mem_cons_self) same start
      have innerSame : settings.cycles = .detect →
          other ++ [target base d.operand] = chain ++ [target base d.operand] :=
        fun detect => by rw [same detect]
      rcases inductionHypothesis (fun path member => agree path (List.mem_cons_of_mem _ member))
        innerSame _ with ⟨otherInner, innerDerived, alike⟩
      refine ⟨_, .failed otherOpens innerDerived (alike.result ▸ finished), ?_, rfl⟩
      rw [alike.loads]
  | @included chain d rest state text next inner expansion run opens _ finished _ innerHypothesis
      laterHypothesis =>
      have otherOpens := opens.transfer steady otherSteady (agree _ (by simp)) same start
      have innerSame : settings.cycles = .detect →
          other ++ [target base d.operand] = chain ++ [target base d.operand] :=
        fun detect => by rw [same detect]
      rcases innerHypothesis (fun path member => agree path (by simp [member])) innerSame _ with
        ⟨otherInner, innerDerived, innerAlike⟩
      rcases laterHypothesis (fun path member => agree path (by simp [member])) same
        otherInner.state with ⟨otherLater, laterDerived, laterAlike⟩
      refine ⟨_, .included otherOpens innerDerived (innerAlike.result ▸ finished) laterDerived, ?_⟩
      rw [← innerAlike.loads]
      exact laterAlike.after _ _

theorem Resolves.transfer {loader : Loader σ} {second : Loader τ} {directory root : Path}
    {settings : Settings} {answer otherAnswer : Path → Encoding → Except FileFault (List Char)}
    (steady : loader.Answers answer) (otherSteady : second.Answers otherAnswer)
    {chain : List Path} {text : List Char} {state : σ} {run : Run σ}
    (resolved : Resolves loader directory root settings chain text state run)
    (agree : ∀ path ∈ run.loads,
      otherAnswer path settings.encoding = answer path settings.encoding) (start : τ) :
    ∃ otherRun, Resolves second directory root settings chain text start otherRun ∧
      run.Alike otherRun := by
  cases based : Path.absolute? directory root with
  | none =>
      rw [resolves_iff_of_no_base based] at resolved
      rw [resolved]
      exact ⟨_, (resolves_iff_of_no_base based).mpr rfl, rfl, rfl⟩
  | some base =>
      rw [resolves_iff_of_base based] at resolved
      rcases resolved.transfer steady otherSteady agree (fun _ => rfl) start with
        ⟨otherRun, derived, alike⟩
      exact ⟨otherRun, (resolves_iff_of_base based).mpr derived, alike⟩

section
variable {loader : Loader σ} {answer : Path → Encoding → Except FileFault (List Char)}
  {base directory root : Path} {settings : Settings} {chain : List Path} {text : List Char}
  {state : σ} {run : Run σ} {path : Path} {fault : FileFault} {expansion : Expansion}

/-- A run has got a text for every path that it has loaded, or has ended for want of one. -/
theorem Expands.answered_or_failed (steady : loader.Answers answer) {ps : List Piece}
    (derived : Expands loader base settings chain ps state run) (loaded : path ∈ run.loads) :
    (∃ text, answer path settings.encoding = .ok text) ∨
      ∃ fault, answer path settings.encoding = .error fault ∧
        run.result = .error (.unreadable path fault) := by
  induction derived with
  | nil => cases loaded
  | char _ inductionHypothesis =>
      simp only [Run.after_error_iff]
      exact inductionHypothesis loaded
  | refused => cases loaded
  | @unreadable chain d rest state next fault allowed found =>
      obtain rfl := List.mem_singleton.mp loaded
      exact .inr ⟨fault, by rw [← steady _ _ state, found], rfl⟩
  | failed opens _ finished inductionHypothesis =>
      rcases List.mem_cons.mp loaded with rfl | within
      · exact .inl ⟨_, opens.answer_eq steady⟩
      · rw [← finished]
        exact inductionHypothesis within
  | included opens _ finished _ innerHypothesis laterHypothesis =>
      simp only [Run.after_error_iff]
      rw [Run.after_loads, List.cons_append, List.mem_cons, List.mem_append] at loaded
      rcases loaded with rfl | within | behind
      · exact .inl ⟨_, opens.answer_eq steady⟩
      · rcases innerHypothesis within with answered | ⟨_, _, ended⟩
        · exact .inl answered
        · rw [finished] at ended
          cases ended
      · exact laterHypothesis behind

theorem Expands.fault_eq (steady : loader.Answers answer) {ps : List Piece}
    (derived : Expands loader base settings chain ps state run)
    (ended : run.result = .error (.unreadable path fault)) :
    answer path settings.encoding = .error fault := by
  induction derived with
  | nil => cases ended
  | char _ inductionHypothesis => exact inductionHypothesis ((Run.after_error_iff _ _ _ _).mp ended)
  | refused refused =>
      cases ended
      rcases refusal?_eq_some_iff.mp refused with ⟨_, isMissing⟩ | ⟨_, _, _, isCycle⟩
      · cases isMissing
      · cases isCycle
  | @unreadable chain d rest state next fault allowed found =>
      cases ended
      rw [← steady _ _ state, found]
  | failed _ _ finished inductionHypothesis => exact inductionHypothesis (finished.trans ended)
  | included _ _ _ _ _ laterHypothesis =>
      exact laterHypothesis ((Run.after_error_iff _ _ _ _).mp ended)

theorem Resolves.answered_or_failed (steady : loader.Answers answer)
    (resolved : Resolves loader directory root settings chain text state run)
    (loaded : path ∈ run.loads) :
    (∃ text, answer path settings.encoding = .ok text) ∨
      ∃ fault, answer path settings.encoding = .error fault ∧
        run.result = .error (.unreadable path fault) := by
  cases based : Path.absolute? directory root with
  | none =>
      rw [resolves_iff_of_no_base based] at resolved
      rw [resolved] at loaded
      cases loaded
  | some base =>
      rw [resolves_iff_of_base based] at resolved
      exact resolved.answered_or_failed steady loaded

/-- A run that ends for want of a text has asked for it, but for the root. -/
theorem Resolves.fault_cases (steady : loader.Answers answer)
    (resolved : Resolves loader directory root settings chain text state run)
    (ended : run.result = .error (.unreadable path fault)) :
    fault = .emptyPath ∨ answer path settings.encoding = .error fault := by
  cases based : Path.absolute? directory root with
  | none =>
      rw [resolves_iff_of_no_base based] at resolved
      rw [resolved] at ended
      cases ended
      exact .inl rfl
  | some base =>
      rw [resolves_iff_of_base based] at resolved
      exact .inr (resolved.fault_eq steady ended)

theorem Resolves.answered (steady : loader.Answers answer)
    (resolved : Resolves loader directory root settings chain text state run)
    (succeeded : run.result = .ok expansion) (loaded : path ∈ run.loads) :
    ∃ text, answer path settings.encoding = .ok text := by
  rcases resolved.answered_or_failed steady loaded with answered | ⟨_, _, ended⟩
  · exact answered
  · rw [succeeded] at ended
    cases ended

end

end YamlTypes.Include
