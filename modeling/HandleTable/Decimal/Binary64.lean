/-!
# Binary floating point with sixty-four bits

A finite number is a sign, a significand below 2^53 and an exponent of two that
is at least -1074.  `Binary64.nearest` rounds a decimal to the number closest
to it, and of two that are equally close takes the one with an even
significand.  All arithmetic is on natural numbers, so nothing is lost on the
way.
-/

namespace HandleTable.Decimal

/-- A floating point number: `significand * 2 ^ exponent` with a sign, an
infinity, or no number at all. -/
inductive Binary64 where
  | finite (negative : Bool) (significand : Nat) (exponent : Int)
  | infinite (negative : Bool)
  | nan
deriving DecidableEq, Repr

/-- A quotient rounded to the nearest whole number, halves to the even one. -/
def roundHalfEven (numerator denominator : Nat) : Nat :=
  let floor := numerator / denominator
  let twice := 2 * (numerator % denominator)
  if twice < denominator then floor
  else if denominator < twice then floor + 1
  else floor + floor % 2

/-- A positive fraction `numerator / denominator` scaled by a power of two, as
numerator and denominator. -/
def scaleByPowerOfTwo (numerator denominator : Nat) (power : Int) : Nat × Nat :=
  if 0 ≤ power then (numerator <<< power.toNat, denominator)
  else (numerator, denominator <<< (-power).toNat)

/-- A positive decimal `digits * 10 ^ scale` as a fraction. -/
def fractionOfDecimal (digits : Nat) (scale : Int) : Nat × Nat :=
  if 0 ≤ scale then (digits * Nat.pow 10 scale.toNat, 1)
  else (digits, Nat.pow 10 (-scale).toNat)

/-- The number of decimal digits of a number; zero has one. -/
def digitCount (value : Nat) : Nat :=
  (Nat.toDigits 10 value).length

namespace Binary64

/-- The least number of fifty-three bits, 2^52: a significand below it has the least
exponent. -/
def leastNormal : Nat := 0x10000000000000

/-- The smallest exponent of two. -/
def leastExponent : Int := -1074

/-- The largest exponent of two of a finite number. -/
def greatestExponent : Int := 971

/-- The exponent with which a positive fraction has a significand of fifty-three
bits, but never below the least. -/
def exponentOf (numerator denominator : Nat) : Int :=
  let guess : Int := (numerator.log2 : Int) - (denominator.log2 : Int) - 52
  let (scaled, unit) := scaleByPowerOfTwo numerator denominator (-guess)
  max leastExponent (if scaled / unit < leastNormal then guess - 1 else guess)

/-- The number nearest to a positive fraction, with a sign. -/
def nearestFraction (negative : Bool) (numerator denominator : Nat) : Binary64 :=
  let exponent := exponentOf numerator denominator
  let (scaled, unit) := scaleByPowerOfTwo numerator denominator (-exponent)
  let rounded := roundHalfEven scaled unit
  let (significand, exponent) :=
    if rounded = 2 * leastNormal then (leastNormal, exponent + 1) else (rounded, exponent)
  if greatestExponent < exponent then infinite negative
  else finite negative significand exponent

/-- The number nearest to the decimal `digits * 10 ^ scale`, with a sign.
Decimals far outside the range are decided by their size alone. -/
def nearest (negative : Bool) (digits : Nat) (scale : Int) : Binary64 :=
  if digits = 0 then finite negative 0 leastExponent
  else
    let magnitude : Int := digitCount digits + scale
    if 310 < magnitude then infinite negative
    else if magnitude < -330 then finite negative 0 leastExponent
    else
      let (numerator, denominator) := fractionOfDecimal digits scale
      nearestFraction negative numerator denominator

end Binary64

end HandleTable.Decimal
