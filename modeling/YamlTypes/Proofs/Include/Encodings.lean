import YamlTypes.Proofs.Include.Agreement
import YamlTypes.Proofs.Text.Utf8

/-!
Strict and lossy reading.

The encoding is passed along to every load and used for nothing else. So a run
in one encoding is a run in the other of a loader that reads as the first one
says, and the two agree where the loaded bytes are UTF-8.
-/

set_option autoImplicit false

namespace YamlTypes.Include

variable {σ : Type}

/-- The bytes of documents by path. What keeps a document from having any is never that they are
not UTF-8. -/
structure ByteStore where
  contents : Path → Except FileFault (List UInt8)
  undecoded : ∀ path fault, contents path = .error fault → ∀ invalid, fault ≠ .invalidUtf8 invalid

namespace ByteStore

variable {store : ByteStore} {path : Path} {invalid : Text.Utf8.Fault}

def answer (store : ByteStore) (path : Path) (encoding : Encoding) :
    Except FileFault (List Char) :=
  (store.contents path).bind (readText encoding)

theorem answer_of_contents {bytes : List UInt8} (found : store.contents path = .ok bytes)
    (encoding : Encoding) : store.answer path encoding = readText encoding bytes := by
  rw [answer, found]
  rfl

theorem answer_of_fault {fault : FileFault} (missing : store.contents path = .error fault)
    (encoding : Encoding) : store.answer path encoding = .error fault := by
  rw [answer, missing]
  rfl

/-- Only the strict reading fails on bytes that are there. -/
theorem answer_lossy_eq
    (valid : ∀ invalid, store.answer path .utf8 ≠ .error (.invalidUtf8 invalid)) :
    store.answer path .utf8Lossy = store.answer path .utf8 := by
  cases found : store.contents path with
  | error fault => rw [answer_of_fault found, answer_of_fault found]
  | ok bytes =>
      simp only [answer_of_contents found, readText, Encoding.decode] at valid ⊢
      cases decoded : Text.Utf8.decode bytes with
      | error fault => simp [decoded] at valid
      | ok text => rw [Text.Utf8.decodeLossy_of_decode decoded]

theorem answer_lossy_ne : store.answer path .utf8Lossy ≠ .error (.invalidUtf8 invalid) := by
  cases found : store.contents path with
  | error fault =>
      rw [answer_of_fault found]
      exact fun failed => store.undecoded path fault found invalid (Except.error.inj failed)
  | ok bytes => simp [answer_of_contents found, readText, Encoding.decode]

theorem exists_contents_of_invalid
    (failed : store.answer path .utf8 = .error (.invalidUtf8 invalid)) :
    ∃ bytes, store.contents path = .ok bytes ∧ ¬ bytes.toByteArray.IsValidUTF8 := by
  cases found : store.contents path with
  | error fault =>
      rw [answer_of_fault found] at failed
      exact absurd (Except.error.inj failed) (store.undecoded path fault found invalid)
  | ok bytes =>
      refine ⟨bytes, rfl, fun valid => ?_⟩
      rcases Text.Utf8.exists_decode_iff.mpr valid with ⟨text, decoded⟩
      simp [answer_of_contents found, readText, Encoding.decode, decoded] at failed

end ByteStore

def Loader.readAs (loader : Loader σ) (encoding : Encoding) : Loader σ where
  load path _ state := loader.load path encoding state

theorem Loader.Answers.readAs {loader : Loader σ}
    {answer : Path → Encoding → Except FileFault (List Char)} (steady : loader.Answers answer)
    (encoding : Encoding) : (loader.readAs encoding).Answers fun path _ => answer path encoding :=
  fun path _ state => steady path encoding state

section
variable (loader : Loader σ) (base : Path) (encoding asked : Encoding) (cycles : CycleMode)

theorem expandPieces_readAs (expandText : List Path → List Char → σ → Option (Run σ))
    (chain : List Path) (ps : List Piece) (state : σ) :
    expandPieces (loader.readAs encoding) base ⟨asked, cycles⟩ expandText chain ps state =
      expandPieces loader base ⟨encoding, cycles⟩ expandText chain ps state := by
  have sameDirective (d : Directive) (state : σ) :
      expandDirective (loader.readAs encoding) base ⟨asked, cycles⟩ expandText chain d state =
        expandDirective loader base ⟨encoding, cycles⟩ expandText chain d state := rfl
  induction ps generalizing state with
  | nil => rfl
  | cons p rest inductionHypothesis =>
      cases p with
      | char c => rw [expandPieces_char, expandPieces_char, inductionHypothesis]
      | directive d => simp only [expandPieces, sameDirective, inductionHypothesis]

theorem expand_readAs (depth : Nat) :
    expand (loader.readAs encoding) base ⟨asked, cycles⟩ depth =
      expand loader base ⟨encoding, cycles⟩ depth := by
  induction depth with
  | zero => rfl
  | succ depth inductionHypothesis =>
      funext chain text state
      rw [expand, expand, inductionHypothesis, expandPieces_readAs]

end

theorem resolves_readAs_iff {loader : Loader σ} {directory root : Path} {encoding : Encoding}
    (asked : Encoding) {cycles : CycleMode} {chain : List Path} {text : List Char} {state : σ}
    {run : Run σ} :
    Resolves (loader.readAs encoding) directory root ⟨asked, cycles⟩ chain text state run ↔
      Resolves loader directory root ⟨encoding, cycles⟩ chain text state run := by
  simp only [Resolves, resolve, expand_readAs]

/-- The run has come to a document whose bytes are not UTF-8, and has ended there. -/
def Run.MeetsInvalid (run : Run σ) (path : Path) : Prop :=
  ∃ fault, run.result = .error (.unreadable path (.invalidUtf8 fault))

section
variable {loader : Loader σ} {store : ByteStore} {directory root : Path} {cycles : CycleMode}
  {chain : List Path} {text : List Char} {state : σ}

theorem Resolves.answer_of_meetsInvalid (steady : loader.Answers store.answer)
    {settings : Settings} {run : Run σ} {path : Path}
    (resolved : Resolves loader directory root settings chain text state run)
    (meets : run.MeetsInvalid path) :
    ∃ fault, store.answer path settings.encoding = .error (.invalidUtf8 fault) := by
  rcases meets with ⟨fault, failed⟩
  rcases resolved.fault_cases steady failed with isRoot | answered
  · cases isRoot
  · exact ⟨fault, answered⟩

/-- A run that reads strictly and does not end at a document that is not UTF-8 is the same run where
reading is lossy, and lossy reading never ends so. -/
theorem resolve_lossy (steady : loader.Answers store.answer) :
    (∀ strict, Resolves loader directory root ⟨.utf8, cycles⟩ chain text state strict →
      (∀ path, ¬ strict.MeetsInvalid path) →
        ∃ lossy, Resolves loader directory root ⟨.utf8Lossy, cycles⟩ chain text state lossy ∧
          strict.Alike lossy) ∧
    (∀ lossy, Resolves loader directory root ⟨.utf8Lossy, cycles⟩ chain text state lossy →
      ∀ path, ¬ lossy.MeetsInvalid path) ∧
    ∀ strict path, Resolves loader directory root ⟨.utf8, cycles⟩ chain text state strict →
      strict.MeetsInvalid path →
        ∃ bytes, store.contents path = .ok bytes ∧ ¬ bytes.toByteArray.IsValidUTF8 := by
  refine ⟨?_, ?_, ?_⟩
  · intro strict resolved valid
    have agree : ∀ path ∈ strict.loads,
        store.answer path .utf8Lossy = store.answer path .utf8 := by
      intro path loaded
      refine ByteStore.answer_lossy_eq fun fault failed => ?_
      rcases resolved.answered_or_failed steady loaded with ⟨text, found⟩ | ⟨other, found, ended⟩
      · rw [found] at failed
        cases failed
      · obtain rfl := Except.error.inj (found.symm.trans failed)
        exact valid path ⟨fault, ended⟩
    rcases resolved.transfer steady (steady.readAs .utf8Lossy) agree state with
      ⟨lossy, lossyResolved, alike⟩
    exact ⟨lossy, (resolves_readAs_iff .utf8).mp lossyResolved, alike⟩
  · intro lossy resolved path meets
    rcases resolved.answer_of_meetsInvalid steady meets with ⟨fault, failed⟩
    exact ByteStore.answer_lossy_ne failed
  · intro strict path resolved meets
    rcases resolved.answer_of_meetsInvalid steady meets with ⟨fault, failed⟩
    exact ByteStore.exists_contents_of_invalid failed

end

def ByteStore.ofFiles (files : List (String × List UInt8)) : ByteStore where
  contents path :=
    match files.lookup path.text with
    | some bytes => .ok bytes
    | none => .error .notInMemory
  undecoded path fault missing invalid := by
    split at missing
    · cases missing
    · cases missing
      simp

/-- Documents with a character of several bytes, beside one that is not UTF-8. -/
def mixedBytes : ByteStore :=
  .ofFiles [("/b/a", "é{{ include ./c }}".toList.flatMap String.utf8EncodeChar),
    ("/b/c", "x\n€".toList.flatMap String.utf8EncodeChar), ("/b/d", [0x78, 0xE2, 0x82])]

set_option maxRecDepth 1000 in
theorem resolve_lossy_mixed :
    (Loader.ofStore mixedBytes.answer).Answers mixedBytes.answer ∧
    (∃ strict, Resolves (Loader.ofStore mixedBytes.answer) ⟨"/"⟩ ⟨"/b"⟩ ⟨.utf8, .detect⟩ []
        "{{ include a }}".toList () strict ∧
      strict.result = .ok ⟨"éx\n €".toList, [⟨"/b/a"⟩, ⟨"/b/c"⟩]⟩ ∧
      ∃ lossy, Resolves (Loader.ofStore mixedBytes.answer) ⟨"/"⟩ ⟨"/b"⟩ ⟨.utf8Lossy, .detect⟩ []
        "{{ include a }}".toList () lossy ∧ strict.Alike lossy) ∧
    ∃ strict, Resolves (Loader.ofStore mixedBytes.answer) ⟨"/"⟩ ⟨"/b"⟩ ⟨.utf8, .detect⟩ []
        "{{ include d }}".toList () strict ∧
      strict.MeetsInvalid ⟨"/b/d"⟩ ∧
      ∃ bytes, mixedBytes.contents ⟨"/b/d"⟩ = .ok bytes ∧ ¬ bytes.toByteArray.IsValidUTF8 := by
  have steady := Loader.ofStore_answers mixedBytes.answer
  have succeeds : Resolves (Loader.ofStore mixedBytes.answer) ⟨"/"⟩ ⟨"/b"⟩ ⟨.utf8, .detect⟩ []
      "{{ include a }}".toList ()
      ⟨(), [⟨"/b/a"⟩, ⟨"/b/c"⟩], .ok ⟨"éx\n €".toList, [⟨"/b/a"⟩, ⟨"/b/c"⟩]⟩⟩ := ⟨3, by rfl⟩
  have fails : Resolves (Loader.ofStore mixedBytes.answer) ⟨"/"⟩ ⟨"/b"⟩ ⟨.utf8, .detect⟩ []
      "{{ include d }}".toList ()
      ⟨(), [⟨"/b/d"⟩], .error (.unreadable ⟨"/b/d"⟩ (.invalidUtf8 (.incomplete 1)))⟩ :=
    ⟨3, by rfl⟩
  have valid := (resolve_lossy steady).1 _ succeeds (by simp [Run.MeetsInvalid])
  have invalid := (resolve_lossy steady).2.2 _ _ fails ⟨_, rfl⟩
  exact ⟨steady, ⟨_, succeeds, rfl, valid⟩, _, fails, ⟨_, rfl⟩, invalid⟩

end YamlTypes.Include
