/-!
Bytes read as UTF-8.

The bytes are cut into pieces: characters, sequences that are definitely wrong
(one to three bytes, as long as they could still have become a character), and a
sequence that the end of the input cut short. The strict reading fails at the
first piece that is no character; the lossy reading puts one U+FFFD for each.
-/

set_option autoImplicit false

namespace YamlTypes.Text.Utf8

def byteLength (text : List Char) : Nat := text.foldr (fun c rest => c.utf8Size + rest) 0

theorem byteLength_cons (c : Char) (text : List Char) :
    byteLength (c :: text) = c.utf8Size + byteLength text := rfl

theorem byteLength_append (first second : List Char) :
    byteLength (first ++ second) = byteLength first + byteLength second := by
  induction first with
  | nil => simp [byteLength]
  | cons c rest inductionHypothesis =>
      rw [List.cons_append, byteLength_cons, byteLength_cons, inductionHypothesis, Nat.add_assoc]

/-- A text has one beginning of each length. -/
theorem eq_of_byteLength_eq {first second rest other : List Char}
    (same : first ++ rest = second ++ other) (long : byteLength first = byteLength second) :
    first = second := by
  induction first generalizing second with
  | nil =>
      cases second with
      | nil => rfl
      | cons d second =>
          have positive := Char.utf8Size_pos d
          rw [byteLength_cons] at long
          simp only [byteLength, List.foldr_nil] at long
          omega
  | cons c first inductionHypothesis =>
      cases second with
      | nil =>
          have positive := Char.utf8Size_pos c
          rw [byteLength_cons] at long
          simp only [byteLength, List.foldr_nil] at long
          omega
      | cons d second =>
          obtain ⟨rfl, later⟩ := List.cons.inj same
          rw [inductionHypothesis later (Nat.add_left_cancel long)]

inductive Piece where
  | char (c : Char)
  /-- Bytes that begin no character, whatever follows them. -/
  | invalid (length : Nat)
  /-- The beginning of a character at the end of the input. -/
  | incomplete
  deriving DecidableEq, Repr

/-- Between two characters, or inside one: how many bytes were seen, how many are missing, which
values the next byte may have, and the bits collected so far. -/
inductive State where
  | start
  | inside (seen missing : Nat) (low high : Nat) (bits : Nat)
  deriving DecidableEq, Repr

def first (byte : Nat) : List Piece × State :=
  if byte < 0x80 then ([.char (Char.ofNat byte)], .start)
  else if byte < 0xC2 then ([.invalid 1], .start)
  else if byte < 0xE0 then ([], .inside 1 1 0x80 0xBF (byte - 0xC0))
  else if byte = 0xE0 then ([], .inside 1 2 0xA0 0xBF 0)
  else if byte = 0xED then ([], .inside 1 2 0x80 0x9F 0xD)
  else if byte < 0xF0 then ([], .inside 1 2 0x80 0xBF (byte - 0xE0))
  else if byte = 0xF0 then ([], .inside 1 3 0x90 0xBF 0)
  else if byte < 0xF4 then ([], .inside 1 3 0x80 0xBF (byte - 0xF0))
  else if byte = 0xF4 then ([], .inside 1 3 0x80 0x8F 4)
  else ([.invalid 1], .start)

/-- A byte that cannot continue a character ends it as invalid and begins anew. -/
def step : State → Nat → List Piece × State
  | .start, byte => first byte
  | .inside seen missing low high bits, byte =>
    if low ≤ byte ∧ byte ≤ high then
      let bits := bits * 64 + byte % 64
      if missing ≤ 1 then ([.char (Char.ofNat bits)], .start)
      else ([], .inside (seen + 1) (missing - 1) 0x80 0xBF bits)
    else
      let (pieces, state) := first byte
      (.invalid seen :: pieces, state)

def piecesFrom : State → List UInt8 → List Piece
  | .start, [] => []
  | .inside .., [] => [.incomplete]
  | state, byte :: rest =>
    let (pieces, next) := step state byte.toNat
    pieces ++ piecesFrom next rest

def pieces (bytes : List UInt8) : List Piece := piecesFrom .start bytes

/-- Why bytes are not UTF-8. `index` is where the first wrong sequence begins. -/
inductive Fault where
  | invalid (length index : Nat)
  | incomplete (index : Nat)
  deriving DecidableEq, Repr

def Fault.message : Fault → String
  | .invalid length index =>
    "invalid utf-8 sequence of " ++ toString length ++ " bytes from index " ++ toString index
  | .incomplete index => "incomplete utf-8 byte sequence from index " ++ toString index

/-- The characters of pieces that are all characters; `index` counts the bytes before them. -/
def strictPieces (index : Nat) : List Piece → Except Fault (List Char)
  | [] => .ok []
  | .char c :: rest => (strictPieces (index + c.utf8Size) rest).map (c :: ·)
  | .invalid length :: _ => .error (.invalid length index)
  | .incomplete :: _ => .error (.incomplete index)

def Piece.lossy : Piece → Char
  | .char c => c
  | .invalid _ => '\uFFFD'
  | .incomplete => '\uFFFD'

def decode (bytes : List UInt8) : Except Fault (List Char) := strictPieces 0 (pieces bytes)

def decodeLossy (bytes : List UInt8) : List Char := (pieces bytes).map Piece.lossy

/-- The strict reading gives a text exactly if every piece is one of its characters. -/
theorem strictPieces_eq_ok_iff {index : Nat} {ps : List Piece} {text : List Char} :
    strictPieces index ps = .ok text ↔ ps = text.map .char := by
  induction ps generalizing index text with
  | nil => cases text <;> simp [strictPieces]
  | cons p rest inductionHypothesis =>
    cases p with
    | char c =>
      rw [strictPieces]
      cases text with
      | nil => cases strictPieces (index + c.utf8Size) rest <;> simp [Except.map]
      | cons d later =>
        rw [List.map_cons, List.cons.injEq, ← @inductionHypothesis (index + c.utf8Size)]
        cases strictPieces (index + c.utf8Size) rest <;> simp [Except.map]
    | invalid | incomplete => cases text <;> simp [strictPieces]

/-- Where the strict reading succeeds, the lossy one agrees with it. -/
theorem decodeLossy_of_decode {bytes : List UInt8} {text : List Char}
    (accepted : decode bytes = .ok text) : decodeLossy bytes = text := by
  rw [decodeLossy, strictPieces_eq_ok_iff.mp accepted, List.map_map]
  exact List.map_id text

end YamlTypes.Text.Utf8
