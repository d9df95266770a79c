import YamlTypes.Yaml.Cursor
import YamlTypes.Yaml.Node

/-!
What the text of a scalar means.

A plain scalar without a tag is null, a truth value, an integer or a float if
its text has the form of one, and a string otherwise. Digits after a leading
zero make a string. Integers must fit in 64 bits, signed or unsigned; those that
fit in 128 bits only are refused, and larger ones are read as floats. The tags
of the core types force a scalar to be of their type.
-/

set_option autoImplicit false

namespace YamlTypes.Yaml

inductive Tag where
  /-- A tag of an application, which begins with an exclamation mark. -/
  | application (name : String)
  | null
  | bool
  | int
  | float
  /-- A tag of an application whose bytes are no text. -/
  | unreadable
  | other
  deriving DecidableEq, Repr

namespace Scalar

def isNull (text : List Char) : Bool :=
  ["null".toList, "Null".toList, "NULL".toList, "~".toList].contains text

def bool? (text : List Char) : Option Bool :=
  if ["true".toList, "True".toList, "TRUE".toList].contains text then some true
  else if ["false".toList, "False".toList, "FALSE".toList].contains text then some false
  else none

/-- Digits after a zero, with or without a sign. -/
def isPaddedDigits (text : List Char) : Bool :=
  let unsigned := match text with
    | '-' :: rest => rest
    | '+' :: rest => rest
    | _ => text
  match unsigned with
  | '0' :: c :: rest => (c :: rest).all isDigit
  | _ => false

/-- The digits of a number in a base; none at all make no number. -/
def digits? (base : Nat) (text : List Char) : Option Nat :=
  if text.isEmpty then none
  else text.foldl (fun n c => do
    let n ← n
    let d ← hexValue? c
    if d < base then some (n * base + d) else none) (some 0)

def magnitude? (padded : Bool) : List Char → Option Nat
  | '0' :: 'x' :: rest => digits? 16 rest
  | '0' :: 'o' :: rest => digits? 8 rest
  | '0' :: 'b' :: rest => digits? 2 rest
  | text => if padded then none else digits? 10 text

def int? (text : List Char) : Option Int :=
  let padded := isPaddedDigits text
  match text with
  | '+' :: rest => (magnitude? padded rest).map Int.ofNat
  | '-' :: rest => (magnitude? padded rest).map fun n => -(Int.ofNat n)
  | _ => (magnitude? padded text).map Int.ofNat

/-- How an integer is taken, by its size. -/
inductive IntSize where
  | fits
  | refused
  | tooLarge
  deriving DecidableEq, Repr

/-- Whether so many bits hold an integer, be they read with a sign or without one. -/
def fitsIn (bits : Nat) (n : Int) : Bool :=
  -((1 <<< (bits - 1) : Nat) : Int) ≤ n && n < ((1 <<< bits : Nat) : Int)

def intSize (n : Int) : IntSize :=
  if fitsIn 64 n then .fits
  else if fitsIn 128 n then .refused
  else .tooLarge

def mantissa? (text : List Char) : Option (List Char × List Char × List Char) :=
  let whole := text.takeWhile isDigit
  let rest := text.dropWhile isDigit
  match rest with
  | '.' :: rest =>
    let fraction := rest.takeWhile isDigit
    if whole.isEmpty && fraction.isEmpty then none
    else some (whole, fraction, rest.dropWhile isDigit)
  | _ => if whole.isEmpty then none else some (whole, [], rest)

def exponent? : List Char → Option Int
  | '-' :: rest => (digits? 10 rest).map fun n => -(Int.ofNat n)
  | '+' :: rest => (digits? 10 rest).map Int.ofNat
  | text => (digits? 10 text).map Int.ofNat

def unsignedDecimal? (negative : Bool) (text : List Char) : Option Double := do
  let (whole, fraction, rest) ← mantissa? text
  let exponent ← match rest with
    | [] => some 0
    | 'e' :: rest => exponent? rest
    | 'E' :: rest => exponent? rest
    | _ => none
  let x := Double.ofDecimal negative (decimalNumber (whole ++ fraction)) (exponent - fraction.length)
  if x.isFinite then some x else none

def isInfinity (text : List Char) : Bool :=
  [".inf".toList, ".Inf".toList, ".INF".toList].contains text

def isNotANumber (text : List Char) : Bool :=
  [".nan".toList, ".NaN".toList, ".NAN".toList].contains text

def float? (text : List Char) : Option Double :=
  if isNotANumber text then some .notANumber
  else
    match text with
    | '+' :: rest => if isInfinity rest then some (.infinite false) else unsignedDecimal? false rest
    | '-' :: rest => if isInfinity rest then some (.infinite true) else unsignedDecimal? true rest
    | _ => if isInfinity text then some (.infinite false) else unsignedDecimal? false text

def plain? (text : List Char) : Option Node :=
  let string := some (Node.string (String.ofList text))
  let number :=
    if isPaddedDigits text then string
    else
      match float? text with
      | some x => some (.number (.float x))
      | none => string
  if text.isEmpty || isNull text then some .null
  else
    match bool? text with
    | some b => some (.bool b)
    | none =>
      match int? text with
      | none => number
      | some n =>
        match intSize n with
        | .fits => some (.number (.int n))
        | .refused => none
        | .tooLarge => number

/-- The meaning of a scalar whose tag is no application's. -/
def resolve? (tag : Option Tag) (plain : Bool) (text : List Char) : Option Node :=
  let untagged := if plain then plain? text else some (.string (String.ofList text))
  match tag with
  | none => untagged
  | some (.application _) => untagged
  | some .unreadable => untagged
  | some .null => if isNull text then some .null else none
  | some .bool => (bool? text).map .bool
  | some .int =>
    match int? text with
    | some n => if intSize n = .fits then some (.number (.int n)) else none
    | none => none
  | some .float => (float? text).map fun x => .number (.float x)
  | some .other => some (.string (String.ofList text))

end Scalar

end YamlTypes.Yaml
