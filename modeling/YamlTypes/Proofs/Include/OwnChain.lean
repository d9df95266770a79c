import YamlTypes.Proofs.Include.Cycle
import YamlTypes.Proofs.Include.Unguarded

/-!
A document at the head of its own chain.

The expansion of a document may begin with an empty chain or with the document
itself in it. In the first case a document that includes itself is expanded once
more before it is met in the chain. That second pass is a run of the same text,
and a run without a guard cannot contain itself. So it ends in a cycle or the
run never comes to it, and the two expansions differ in reported cycles only.
-/

set_option autoImplicit false

namespace YamlTypes.Include

open Relation (ReflTransGen TransGen)

/-- Every directive among the pieces names a document that can be had. -/
def Available (documents : Path → Except FileFault (List Char)) (base : Path)
    (ps : List Piece) : Prop :=
  ∀ d ∈ ps.filterMap Piece.directive?,
    d.operand ≠ [] ∧ ∃ text, documents (target base d.operand) = .ok text

/-- No directive of the text is faulty, and none of a document that includes lead to. -/
structure Faultless (documents : Path → Except FileFault (List Char)) (base : Path)
    (text : List Char) : Prop where
  here : Available documents base (pieces text)
  below : ∀ first path document, Includes base text first →
    ReflTransGen (Links documents base) first path → documents path = .ok document →
      Available documents base (pieces document)

theorem Faultless.follow {documents : Path → Except FileFault (List Char)} {base path : Path}
    {text next : List Char} (faultless : Faultless documents base text)
    (included : Includes base text path) (found : documents path = .ok next) :
    Faultless documents base next where
  here := faultless.below path path next included .refl found
  below := by
    intro first last document further leads lastFound
    exact faultless.below path last document included (.head ⟨next, found, further⟩ leads)
      lastFound

theorem reachesCycle_of_returns {documents : Path → Except FileFault (List Char)}
    {base path : Path} {text : List Char} (found : documents path = .ok text)
    (returns : TransGen (Links documents base) path path) : ReachesCycle documents base text := by
  rcases Relation.TransGen.head'_iff.mp returns with ⟨first, ⟨same, sameFound, included⟩, leads⟩
  obtain rfl := Except.ok.inj (found.symm.trans sameFound)
  exact ⟨first, path, included, leads, returns⟩

section
variable {σ : Type} {loader : Loader σ} {base : Path} {settings : Settings}
  {answer : Path → Encoding → Except FileFault (List Char)}

/-- Where no directive is faulty nothing but a cycle can be reported. -/
theorem Expands.cycle_of_available (steady : loader.Answers answer) {chain : List Path}
    {ps : List Piece} {state : σ} {run : Run σ}
    (derived : Expands loader base settings chain ps state run)
    (available : Available (answer · settings.encoding) base ps)
    (below : ∀ path text, Names base ps path → answer path settings.encoding = .ok text →
      Faultless (answer · settings.encoding) base text)
    {failure : Failure} (failed : run.result = .error failure) :
    ∃ reported, failure = .cycle reported := by
  induction derived with
  | nil => cases failed
  | char _ inductionHypothesis =>
      rw [Run.after_error_iff] at failed
      exact inductionHypothesis available (fun path text named => below path text
        (names_char.mpr named)) failed
  | @refused chain d rest state failure refused =>
      cases failed
      rcases refusal?_eq_some_iff.mp refused with ⟨unnamed, _⟩ | ⟨_, _, _, rfl⟩
      · exact absurd unnamed (available d List.mem_cons_self).1
      · exact ⟨_, rfl⟩
  | @unreadable chain d rest state next fault allowed loaded =>
      obtain ⟨text, found⟩ := (available d List.mem_cons_self).2
      have failing := steady (target base d.operand) settings.encoding state
      rw [loaded] at failing
      cases failing.trans found
  | @failed chain d rest state text next inner failure opens _ finished inductionHypothesis =>
      cases failed
      have named : Names base (.directive d :: rest) (target base d.operand) :=
        names_directive.mpr (.inl ⟨opens.named, rfl⟩)
      have faultless := below _ text named (opens.answer_eq steady)
      exact inductionHypothesis faultless.here
        (fun path next included found => faultless.follow included found) finished
  | @included chain d rest state text next inner expansion run opens _ _ _ _ laterHypothesis =>
      rw [Run.after_error_iff] at failed
      exact laterHypothesis (fun d member => available d (List.mem_cons_of_mem _ member))
        (fun path text named => below path text (names_directive.mpr (.inr named))) failed

end

section
variable {σ : Type} {loader : Loader σ} {base : Path} {encoding : Encoding}
  {answer : Path → Encoding → Except FileFault (List Char)}

/-- Without a guard the chain makes no difference at all. -/
theorem Expands.unchecked_in {chain : List Path} {ps : List Piece} {state : σ} {run : Run σ}
    (derived : Expands loader base ⟨encoding, .unchecked⟩ chain ps state run)
    (other : List Path) : Expands loader base ⟨encoding, .unchecked⟩ other ps state run := by
  have same : ∀ {chain other : List Path} (d : Directive),
      refusal? base .unchecked other d = refusal? base .unchecked chain d :=
    refusal?_congr (by simp)
  induction derived generalizing other with
  | nil => exact .nil
  | char _ inductionHypothesis => exact .char (inductionHypothesis other)
  | refused refused => exact .refused ((same _).trans refused)
  | unreadable allowed loaded => exact .unreadable ((same _).trans allowed) loaded
  | failed opens _ finished inductionHypothesis =>
      exact .failed ⟨(same _).trans opens.allowed, opens.loaded⟩ (inductionHypothesis _) finished
  | included opens _ finished _ innerHypothesis laterHypothesis =>
      exact .included ⟨(same _).trans opens.allowed, opens.loaded⟩ (innerHypothesis _) finished
        (laterHypothesis other)

/-- A document that expands without a guard takes exactly the loads of its own run. -/
theorem Expands.outlasts_own (steady : loader.Answers answer) {chain : List Path} {path : Path}
    {text : List Char} (found : answer path encoding = .ok text) {state : σ} {run : Run σ}
    (derived : Expands loader base ⟨encoding, .unchecked⟩ chain (pieces text) state run) :
    Outlasts loader base encoding answer [path] run.loads.length := by
  intro member inChain
  rw [List.mem_singleton.mp inChain]
  refine ⟨text, found, fun other start again againDerived => ?_⟩
  exact Nat.le_of_eq (congrArg List.length (derived.alike steady againDerived).loads)

/-- What expands to the end without a guard expands alike with one, also below the document
itself. -/
theorem Expands.detect_own (steady : loader.Answers answer) {chain : List Path} {path : Path}
    {text : List Char} (found : answer path encoding = .ok text) {state : σ} {run : Run σ}
    (derived : Expands loader base ⟨encoding, .unchecked⟩ chain (pieces text) state run) :
    Expands loader base ⟨encoding, .detect⟩ [path] (pieces text) state run :=
  (derived.unchecked_in [path]).detect steady (derived.outlasts_own steady found)

/-- A run that reports no cycle is the same with and without the document in its chain. -/
theorem Expands.own_chain_iff (steady : loader.Answers answer) {path : Path} {text : List Char}
    (found : answer path encoding = .ok text) {state : σ} {run : Run σ}
    (acyclic : ∀ reported, run.result ≠ .error (.cycle reported)) :
    Expands loader base ⟨encoding, .detect⟩ [path] (pieces text) state run ↔
      Expands loader base ⟨encoding, .detect⟩ [] (pieces text) state run := by
  constructor
  · intro derived
    exact ((derived.unchecked acyclic).unchecked_in []).detect steady (by simp [Outlasts])
  · intro derived
    exact (derived.unchecked acyclic).detect_own steady found

end

end YamlTypes.Include
