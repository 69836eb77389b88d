import ConsoleScript.Number.Binary64
import ConsoleScript.Text.Bytes

/-! # The shortest decimal of a number

Every finite number is read back from a whole interval of reals: the reals that lie nearer to it
than to its neighbours, with both ends if its significand is even. `Decimal.shortest` finds the
fewest digits that name a real of that interval and, among those, the ones nearest to the number.

It tries the grids of one, two, … seventeen significant digits. On each grid only the two neighbours
of the number matter, and all comparisons are exact ones of natural numbers. -/

namespace ConsoleScript

/-- The positive number `0.d₁d₂… · 10 ^ point`. -/
structure Decimal where
  /-- The digits as bytes, none of the outer ones a zero. -/
  digits : Bytes
  /-- Where the decimal point stands, counted from the first digit. -/
  point : Int
  deriving DecidableEq, Repr

namespace Decimal

/-- A positive rational number between two others over a common denominator, with the rule whether
the two ends count as inside. -/
structure Bracket where
  /-- The numerator of the lower end. -/
  low : Nat
  /-- The numerator of the number. -/
  middle : Nat
  /-- The numerator of the upper end. -/
  high : Nat
  /-- The common denominator. -/
  denominator : Nat
  /-- Whether the ends belong to the interval. -/
  closed : Bool

namespace Bracket

/-- The interval of reals that are read back as a positive finite number. -/
def ofFloat (number : Float) : Bracket :=
  let quarters := 4 * Binary64.significand number
  let unit := Binary64.scale number - 2
  let factor := Nat.pow 2 unit.toNat
  -- Below a power of two the next number is only half as far away as above it.
  { low := (quarters - if Binary64.isBinadeStart number then 1 else 2) * factor
    middle := quarters * factor
    high := (quarters + 2) * factor
    denominator := Nat.pow 2 (-unit).toNat
    closed := Binary64.significand number % 2 = 0 }

/-- The bracket measured in units of `10 ^ exponent`. -/
def rescale (bracket : Bracket) (exponent : Int) : Bracket :=
  let factor := Nat.pow 10 (-exponent).toNat
  { low := bracket.low * factor
    middle := bracket.middle * factor
    high := bracket.high * factor
    denominator := bracket.denominator * Nat.pow 10 exponent.toNat
    closed := bracket.closed }

/-- Whether the number in the middle is at least `10 ^ exponent`. -/
def reaches (bracket : Bracket) (exponent : Int) : Bool :=
  let scaled := bracket.rescale exponent
  scaled.denominator ≤ scaled.middle

/-- Whether a natural number lies in the interval. -/
def contains (bracket : Bracket) (candidate : Nat) : Bool :=
  let value := candidate * bracket.denominator
  if bracket.closed then bracket.low ≤ value && value ≤ bracket.high
  else bracket.low < value && value < bracket.high

/-- The natural number of the interval that is nearest to its middle, among the two neighbours of
the middle; of two equally near ones the even one. -/
def nearest? (bracket : Bracket) : Option Nat :=
  let below := bracket.middle / bracket.denominator
  let excess := bracket.middle % bracket.denominator
  match bracket.contains below, bracket.contains (below + 1) with
  | true, true =>
    if 2 * excess < bracket.denominator then some below
    else if bracket.denominator < 2 * excess then some (below + 1)
    else some (below + below % 2)
  | true, false => some below
  | false, true => some (below + 1)
  | false, false => none

/-- The number of digits before the decimal point, negative for zeros behind it. The logarithm to
the base two tells it up to one. -/
def magnitude (bracket : Bracket) : Int :=
  let binary := Int.ofNat bracket.middle.log2 - Int.ofNat bracket.denominator.log2
  -- The decimal logarithm of two is 0.30103, up to an error that one step to either side covers.
  let guess := Int.fdiv (binary * 30103) 100000
  if bracket.reaches (guess + 1) then guess + 2
  else if bracket.reaches guess then guess + 1
  else guess

end Bracket

/-- The decimal of `number · 10 ^ exponent`, for a positive number. -/
def ofScaled (number : Nat) (exponent : Int) : Decimal :=
  let digits := Bytes.decimal number
  { digits := (digits.reverse.dropWhile (· == 0x30)).reverse
    point := Int.ofNat digits.length + exponent }

/-- The shortest decimal that is read back as the given positive finite number. -/
def shortest (number : Float) : Decimal :=
  let bracket := Bracket.ofFloat number
  let magnitude := bracket.magnitude
  let found := (List.range 17).findSome? fun count =>
    let exponent := magnitude - Int.ofNat (count + 1)
    (bracket.rescale exponent).nearest?.map (ofScaled · exponent)
  -- Seventeen digits always suffice, so something is found.
  found.getD ⟨[], 0⟩

end Decimal

end ConsoleScript
