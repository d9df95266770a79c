import YamlTypes.Number.Double

/-!
Decimal text of doubles.

The decimal of a finite double is the one with the fewest digits among those
that read back as that double, and of these the nearest to it; of two equally
near ones the even. A decimal reads back as a double when it lies in the
double's interval: the numbers nearer to it than to either neighbour, the ends
belonging to the double of even place. `shortest` looks for such decimals on
ever finer decimal grids, where only the two grid points around the double can
be the nearest.

A `DecimalStyle` says how the digits are laid out: up to where positional
notation is used, and how the exponent and the special values are written.
-/

set_option autoImplicit false

namespace YamlTypes

namespace Number

/-- The number `digits · 10 ^ exponent`. -/
structure Decimal where
  digits : Nat
  exponent : Int
  deriving DecidableEq, Repr

/-- The same number without zeros at the end of its digits, as far as `bound` digits go. -/
def Decimal.strip : Nat → Decimal → Decimal
  | 0, x => x
  | bound + 1, x =>
    if x.digits ≠ 0 ∧ x.digits % 10 = 0 then Decimal.strip bound ⟨x.digits / 10, x.exponent + 1⟩
    else x

/-- The numbers that round to one double, in quarters of 2⁻¹⁰⁷⁴. -/
structure Interval where
  low : Nat
  center : Nat
  high : Nat
  closed : Bool
  deriving DecidableEq, Repr

/-- The neighbour below is at half the distance where the spacing changes. -/
def intervalAt (place : Nat) : Interval :=
  let center := 4 * magnitude place
  let half := 2 <<< spacing place
  let below := if significand place = binade ∧ 0 < spacing place then half / 2 else half
  { low := center - below, center, high := center + half, closed := place % 2 == 0 }

def Interval.contains (i : Interval) (numerator denominator : Nat) : Bool :=
  if i.closed then i.low * denominator ≤ numerator && numerator ≤ i.high * denominator
  else i.low * denominator < numerator && numerator < i.high * denominator

/-- The step of the grid of multiples of `10 ^ exponent`, as a fraction of quarters of 2⁻¹⁰⁷⁴. -/
def gridStep (exponent : Int) : Nat × Nat :=
  (4 * unitsInOne * tenTo exponent, tenTo (-exponent))

def Interval.gridPoint? (i : Interval) (exponent : Int) : Option Nat :=
  let (numerator, denominator) := gridStep exponent
  let below := i.center * denominator / numerator
  let inBelow := i.contains (below * numerator) denominator
  let inAbove := i.contains ((below + 1) * numerator) denominator
  match inBelow, inAbove with
  | true, true => some (roundDiv (i.center * denominator) numerator)
  | true, false => some below
  | false, true => some (below + 1)
  | false, false => none

/-- The first grid with a point in the interval, from `exponent` downward. Past `bound` grids the
exact value is taken, which is always a decimal. -/
def Interval.search (i : Interval) : Nat → Int → Decimal
  | 0, _ => ⟨i.center * Nat.pow 5 1076, -1076⟩
  | bound + 1, exponent =>
    match i.gridPoint? exponent with
    | some digits => ⟨digits, exponent⟩
    | none => i.search bound (exponent - 1)

/-- The shortest decimal of the double at a place. The search begins above the number, at a power
of ten found from the number of its binary digits. -/
def shortest (place : Nat) : Decimal :=
  let i := intervalAt place
  let start := ((i.center.log2 : Int) - 1074) * 30103 / 100000 + 2
  (i.search 25 start).strip 25

structure DecimalStyle where
  /-- The smallest power of ten of the first digit that is written positionally. -/
  least : Int
  /-- The smallest larger power of ten that is written with an exponent again. -/
  above : Int
  plusSign : Bool
  infinity : String
  notANumber : String
  deriving Repr

def zeros (count : Nat) : String := String.ofList (List.replicate count '0')

def signText (negative : Bool) : String := if negative then "-" else ""

/-- The digits of a positive decimal in a style: always with a point or an exponent. -/
def DecimalStyle.layout (style : DecimalStyle) (x : Decimal) : String :=
  let digits := Nat.toDigits 10 x.digits
  let leading : Int := x.exponent + digits.length - 1
  if leading < style.least ∨ style.above ≤ leading then
    let fraction := digits.drop 1
    String.ofList (digits.take 1) ++
      (if fraction.isEmpty then "" else "." ++ String.ofList fraction) ++ "e" ++
      (if leading < 0 then "-" else if style.plusSign then "+" else "") ++
      toString leading.natAbs
  else if 0 ≤ x.exponent then String.ofList digits ++ zeros x.exponent.toNat ++ ".0"
  else if 0 ≤ leading then
    String.ofList (digits.take (leading.toNat + 1)) ++ "." ++
      String.ofList (digits.drop (leading.toNat + 1))
  else "0." ++ zeros (-leading - 1).toNat ++ String.ofList digits

def DecimalStyle.text (style : DecimalStyle) : Double → String
  | .finite negative place =>
    signText negative ++ if place.val = 0 then "0.0" else style.layout (shortest place.val)
  | .infinite negative => signText negative ++ style.infinity
  | .notANumber => style.notANumber

end Number

end YamlTypes
