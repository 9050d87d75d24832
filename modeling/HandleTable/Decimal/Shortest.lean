import HandleTable.Decimal.Binary64

/-!
# The shortest decimal that reads back

A floating point number is printed with the fewest decimal digits that no other
number is closer to; of several such decimals the one nearest to the number is
taken, and of two equally near ones the upper.  The text is positional: it
always has a point, however large or small the number is.
-/

namespace HandleTable.Decimal

/-- The exponent of ten of the first digit of a positive fraction. -/
def leadingExponent (numerator denominator : Nat) : Int :=
  if denominator ≤ numerator then (digitCount (numerator / denominator) : Int) - 1
  else -(digitCount ((denominator + numerator - 1) / numerator - 1) : Int)

/-- The decimals that read back as a positive number: the fractions between the
midpoints to its neighbours, all over the same denominator.  The midpoints
themselves count when the significand is even. -/
structure Interval where
  lower : Nat
  value : Nat
  upper : Nat
  denominator : Nat
  closed : Bool

/-- The interval of `significand * 2 ^ exponent`.  At a power of two the neighbour
below is twice as close as the one above. -/
def Interval.of (significand : Nat) (exponent : Int) : Interval :=
  let narrow := significand = Binary64.leastNormal ∧ Binary64.leastExponent < exponent
  let (unit, denominator) := scaleByPowerOfTwo 1 1 (exponent - 2)
  { lower := unit * (4 * significand - if narrow then 1 else 2)
    value := unit * (4 * significand)
    upper := unit * (4 * significand + 2)
    denominator := denominator
    closed := significand % 2 == 0 }

/-- Whether `digits * 10 ^ scale` lies in an interval. -/
def Interval.contains (interval : Interval) (digits : Nat) (scale : Int) : Bool :=
  let (numerator, denominator) := fractionOfDecimal digits scale
  let point := numerator * interval.denominator
  let lower := interval.lower * denominator
  let upper := interval.upper * denominator
  if interval.closed then lower ≤ point && point ≤ upper else lower < point && point < upper

/-- The digits below a value on the grid `10 ^ scale`, and whether the value is at
least half a step above them. -/
def Interval.gridBelow (interval : Interval) (scale : Int) : Nat × Bool :=
  let (step, unit) := fractionOfDecimal 1 scale
  let numerator := interval.value * unit
  let denominator := interval.denominator * step
  (numerator / denominator, denominator ≤ 2 * (numerator % denominator))

/-- The decimal on a grid that reads back, if there is one: of the two neighbours
of the value the nearer that does. -/
def Interval.onGrid (interval : Interval) (scale : Int) : Option Nat :=
  let (below, nearAbove) := interval.gridBelow scale
  let first := if nearAbove then below + 1 else below
  let second := if nearAbove then below else below + 1
  if interval.contains first scale then some first
  else if interval.contains second scale then some second
  else none

/-- The decimal with the fewest digits that reads back, as digits and scale.  The
grids are tried from the coarsest to the one with `more` further digits. -/
def Interval.shortest (interval : Interval) : (more : Nat) → (scale : Int) → Nat × Int
  | 0, scale => ((interval.gridBelow scale).1, scale)
  | more + 1, scale =>
    match interval.onGrid scale with
    | some digits => (digits, scale)
    | none => interval.shortest more (scale - 1)

/-- The shortest decimal of a positive number, as digits and scale.  The first grid
is coarser than the number, which may lie just below a power of ten. -/
def shortest (significand : Nat) (exponent : Int) : Nat × Int :=
  let interval := Interval.of significand exponent
  interval.shortest 20 (leadingExponent interval.value interval.denominator + 1)

/-- A decimal in positional form: zeros fill the places that its digits leave
open, and there is a digit on both sides of the point. -/
def positional (digits : Nat) (scale : Int) : String :=
  let text := Nat.toDigits 10 digits
  if 0 ≤ scale then String.ofList (text ++ List.replicate scale.toNat '0') ++ ".0"
  else
    let places := (-scale).toNat
    let filled := List.replicate (places + 1 - text.length) '0' ++ text
    String.ofList (filled.take (filled.length - places)) ++ "." ++
      String.ofList (filled.drop (filled.length - places))

/-- The text of a floating point number. -/
def Binary64.text : Binary64 → String
  | nan => "NaN"
  | infinite negative => (if negative then "-" else "") ++ "inf"
  | finite negative significand exponent =>
    (if negative then "-" else "") ++
      if significand = 0 then "0.0"
      else
        let (digits, scale) := Decimal.shortest significand exponent
        positional digits scale

end HandleTable.Decimal
