import YamlTypes.Json

/-!
Reading JSON.

A text is first cut into tokens, and the tokens then drive a machine whose
state is the stack of open containers and what may come next. The machine takes
one token at a time, so reading is a fold over the tokens.
-/

set_option autoImplicit false

namespace YamlTypes.Json

/-- What a piece of a string literal stands for: a character, or half of a surrogate pair. -/
inductive Unit16 where
  | char (c : Char)
  | half (n : Nat)
  deriving DecidableEq, Repr

def hexValue? (c : Char) : Option Nat :=
  let n := c.toNat
  if '0' ≤ c ∧ c ≤ '9' then some (n - 48)
  else if 'a' ≤ c ∧ c ≤ 'f' then some (n - 87)
  else if 'A' ≤ c ∧ c ≤ 'F' then some (n - 55)
  else none

def hexNumber? : Nat → List Char → Option Nat
  | n, [] => some n
  | n, c :: rest => do hexNumber? (n * 16 + (← hexValue? c)) rest

def unit16 (n : Nat) : Unit16 := if 0xD800 ≤ n ∧ n < 0xE000 then .half n else .char (Char.ofNat n)

def escaped? : Char → Option Char
  | '"' => some '"'
  | '\\' => some '\\'
  | '/' => some '/'
  | 'b' => some '\x08'
  | 'f' => some '\x0c'
  | 'n' => some '\n'
  | 'r' => some '\r'
  | 't' => some '\t'
  | _ => none

/-- The contents of a string literal after its opening quote, and the text after the closing one. -/
def stringUnits? : List Char → Option (List Unit16 × List Char)
  | '"' :: rest => some ([], rest)
  | '\\' :: 'u' :: a :: b :: c :: d :: rest => do
    let n ← hexNumber? 0 [a, b, c, d]
    let (units, after) ← stringUnits? rest
    some (unit16 n :: units, after)
  | '\\' :: c :: rest => do
    let c ← escaped? c
    let (units, after) ← stringUnits? rest
    some (.char c :: units, after)
  | c :: rest =>
    if c.toNat < 0x20 then none
    else do
      let (units, after) ← stringUnits? rest
      some (.char c :: units, after)
  | [] => none

/-- The characters of units of which every half belongs to a pair. -/
def pairUp? : List Unit16 → Option (List Char)
  | [] => some []
  | .char c :: rest => (pairUp? rest).map (c :: ·)
  | .half high :: .half low :: rest =>
    if high < 0xDC00 ∧ 0xDC00 ≤ low then
      (pairUp? rest).map (Char.ofNat (0x10000 + (high - 0xD800) * 0x400 + (low - 0xDC00)) :: ·)
    else none
  | .half _ :: _ => none

inductive Token where
  | openBracket
  | closeBracket
  | openBrace
  | closeBrace
  | comma
  | colon
  | null
  | bool (b : Bool)
  | number (literal : String)
  | string (s : String)
  | halfPair
  deriving DecidableEq, Repr

def isDigit (c : Char) : Bool := '0' ≤ c && c ≤ '9'

def afterDigits? (text : List Char) : Option (List Char) :=
  match text with
  | c :: _ => if isDigit c then some (text.dropWhile isDigit) else none
  | [] => none

/-- An integer part has no leading zero. -/
def afterInteger? : List Char → Option (List Char)
  | '0' :: rest => some rest
  | text => afterDigits? text

def afterFraction? : List Char → Option (List Char)
  | '.' :: rest => afterDigits? rest
  | text => some text

def afterSign : List Char → List Char
  | '+' :: rest => rest
  | '-' :: rest => rest
  | text => text

def afterExponent? : List Char → Option (List Char)
  | 'e' :: rest => afterDigits? (afterSign rest)
  | 'E' :: rest => afterDigits? (afterSign rest)
  | text => some text

def isNumber (text : List Char) : Bool :=
  let unsigned := match text with
    | '-' :: rest => rest
    | _ => text
  match (afterInteger? unsigned).bind afterFraction? |>.bind afterExponent? with
  | some [] => true
  | _ => false

def isWordChar (c : Char) : Bool :=
  isDigit c || ('a' ≤ c && c ≤ 'z') || c == 'E' || c == '+' || c == '-' || c == '.'

def wordToken? (text : List Char) : Option Token :=
  if text = ['n', 'u', 'l', 'l'] then some .null
  else if text = ['t', 'r', 'u', 'e'] then some (.bool true)
  else if text = ['f', 'a', 'l', 's', 'e'] then some (.bool false)
  else if isNumber text then some (.number (String.ofList text))
  else none

def isSpace (c : Char) : Bool := c == ' ' || c == '\n' || c == '\t' || c == '\r'

/-- The tokens of a text. Every token takes a character, so the length of the text bounds them. -/
def tokensWithin? : Nat → List Char → Option (List Token)
  | _, [] => some []
  | 0, _ => none
  | bound + 1, c :: rest =>
    let single (token : Token) := (tokensWithin? bound rest).map (token :: ·)
    if isSpace c then tokensWithin? bound rest
    else if c = '[' then single .openBracket
    else if c = ']' then single .closeBracket
    else if c = '\x7b' then single .openBrace
    else if c = '\x7d' then single .closeBrace
    else if c = ',' then single .comma
    else if c = ':' then single .colon
    else if c = '"' then do
      let (units, after) ← stringUnits? rest
      let token := match pairUp? units with
        | some text => Token.string (String.ofList text)
        | none => .halfPair
      (tokensWithin? bound after).map (token :: ·)
    else do
      let token ← wordToken? ((c :: rest).takeWhile isWordChar)
      (tokensWithin? bound ((c :: rest).dropWhile isWordChar)).map (token :: ·)

def tokens? (text : List Char) : Option (List Token) := tokensWithin? text.length text

/-- A container part way through, its parts in reverse. A key that stands for no text is `none`. -/
inductive Frame where
  | items (done : List Json)
  | fields (done : List (Option String × Json)) (key : Option String)

/-- What may come next, inside the containers on the stack. -/
inductive State where
  | ready (stack : List Frame)
  | firstItem (stack : List Frame)
  | firstKey (stack : List Frame)
  | nextKey (done : List (Option String × Json)) (stack : List Frame)
  | keyed (done : List (Option String × Json)) (key : Option String) (stack : List Frame)
  /-- A value has just ended. -/
  | ended (value : Json) (stack : List Frame)

def State.begin? (stack : List Frame) : Token → Option State
  | .null => some (.ended .null stack)
  | .bool b => some (.ended (.bool b) stack)
  | .number literal => some (.ended (.number literal) stack)
  | .string s => some (.ended (.string s) stack)
  | .halfPair => some (.ended .halfPair stack)
  | .openBracket => some (.firstItem stack)
  | .openBrace => some (.firstKey stack)
  | _ => none

def objectOf (fields : List (Option String × Json)) : Json :=
  match fields.mapM fun field => field.1.map (·, field.2) with
  | some fields => .object fields
  | none => .halfPair

def State.step? : State → Token → Option State
  | .ready stack, token => begin? stack token
  | .firstItem stack, .closeBracket => some (.ended (.array []) stack)
  | .firstItem stack, token => begin? (.items [] :: stack) token
  | .firstKey stack, .closeBrace => some (.ended (.object []) stack)
  | .firstKey stack, .string key => some (.keyed [] (some key) stack)
  | .firstKey stack, .halfPair => some (.keyed [] none stack)
  | .nextKey done stack, .string key => some (.keyed done (some key) stack)
  | .nextKey done stack, .halfPair => some (.keyed done none stack)
  | .keyed done key stack, .colon => some (.ready (.fields done key :: stack))
  | .ended value (.items done :: stack), .comma => some (.ready (.items (value :: done) :: stack))
  | .ended value (.items done :: stack), .closeBracket =>
    some (.ended (.array (value :: done).reverse) stack)
  | .ended value (.fields done key :: stack), .comma => some (.nextKey ((key, value) :: done) stack)
  | .ended value (.fields done key :: stack), .closeBrace =>
    some (.ended (objectOf ((key, value) :: done).reverse) stack)
  | _, _ => none

def State.run? : State → List Token → Option State
  | state, [] => some state
  | state, token :: rest => (state.step? token).bind (·.run? rest)

def read? (text : String) : Option Json := do
  let tokens ← tokens? text.toList
  match ← (State.ready []).run? tokens with
  | .ended value [] => some value
  | _ => none

end YamlTypes.Json
