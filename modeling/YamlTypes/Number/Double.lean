/-!
Double-precision numbers as data.

A finite number is a sign and a place: the non-negative finite doubles, counted
from zero upward, are 0, 1, 2, … and the place of a double in that order is also
its bit pattern without the sign. Each of them is a whole multiple of the
smallest one, 2⁻¹⁰⁷⁴, so magnitudes are natural numbers in that unit and every
comparison and rounding is exact arithmetic on naturals. There is one
not-a-number.
-/

set_option autoImplicit false

namespace YamlTypes

namespace Number

/-- How many places there are from one power of two to the next. -/
def binade : Nat := 1 <<< 52

/-- How many places there are below infinity. -/
def finiteCount : Nat := 2047 * binade

/-- One, in units of 2⁻¹⁰⁷⁴. -/
def unitsInOne : Nat := 1 <<< 1074

/-- The power of ten, or one where the exponent is negative. -/
def tenTo (exponent : Int) : Nat := Nat.pow 10 exponent.toNat

def roundDiv (numerator denominator : Nat) : Nat :=
  let quotient := numerator / denominator
  let twice := 2 * (numerator % denominator)
  if twice < denominator then quotient
  else if denominator < twice then quotient + 1
  else if quotient % 2 = 0 then quotient else quotient + 1

/-- The power of two between neighbours at a place, as an exponent over the smallest double. -/
def spacing (place : Nat) : Nat := place / binade - 1

def significand (place : Nat) : Nat := place - spacing place * binade

def magnitude (place : Nat) : Nat := significand place <<< spacing place

/-- The place nearest to a quotient given in units of 2⁻¹⁰⁷⁴, counting as if there were no
largest double. -/
def nearestPlace (numerator denominator : Nat) : Nat :=
  let exponent := (numerator / denominator).log2 + 1 - 53
  roundDiv numerator (denominator <<< exponent) + exponent * binade

end Number

open Number

inductive Double where
  | finite (negative : Bool) (place : Fin finiteCount)
  | infinite (negative : Bool)
  | notANumber
  deriving DecidableEq, Repr

namespace Double

/-- A place at or above the last finite one is infinity. -/
def ofPlace (negative : Bool) (place : Nat) : Double :=
  if inRange : place < finiteCount then .finite negative ⟨place, inRange⟩ else .infinite negative

def ofRatio (negative : Bool) (numerator denominator : Nat) : Double :=
  ofPlace negative (nearestPlace (numerator * unitsInOne) denominator)

def ofNat (n : Nat) : Double := ofRatio false n 1

def ofInt (n : Int) : Double := ofRatio (n < 0) n.natAbs 1

/-- The double nearest to `digits · 10 ^ exponent`. Numbers beyond every double and numbers that
round to zero are decided by their number of digits alone. -/
def ofDecimal (negative : Bool) (digits : Nat) (exponent : Int) : Double :=
  let size : Int := (Nat.toDigits 10 digits).length
  if digits = 0 then ofPlace negative 0
  else if 400 < size + exponent then .infinite negative
  else if size + exponent < -400 then ofPlace negative 0
  else if 0 ≤ exponent then ofRatio negative (digits * tenTo exponent) 1
  else ofRatio negative digits (tenTo (-exponent))

def signBit : Nat := 1 <<< 63

/-- The bit pattern of IEEE 754, with the usual quiet pattern for not-a-number. -/
def toBits : Double → UInt64
  | .finite negative place => UInt64.ofNat (place.val + if negative then signBit else 0)
  | .infinite negative => UInt64.ofNat (finiteCount + if negative then signBit else 0)
  | .notANumber => UInt64.ofNat (0x7FF8 <<< 48)

def ofBits (bits : UInt64) : Double :=
  let negative := signBit ≤ bits.toNat
  let place := bits.toNat % signBit
  if inRange : place < finiteCount then .finite negative ⟨place, inRange⟩
  else if place = finiteCount then .infinite negative
  else .notANumber

/-- Numeric equality: zero equals minus zero, and not-a-number equals nothing. -/
def equal : Double → Double → Bool
  | .finite s a, .finite t b => a == b && (s == t || a.val == 0)
  | .infinite s, .infinite t => s == t
  | _, _ => false

def toInt? : Double → Option Int
  | .finite negative place =>
    let units := magnitude place.val
    if units % unitsInOne = 0 then
      let n : Int := units / unitsInOne
      some (if negative then -n else n)
    else none
  | .infinite _ => none
  | .notANumber => none

def isFinite : Double → Bool
  | .finite .. => true
  | .infinite _ => false
  | .notANumber => false

end Double

end YamlTypes
