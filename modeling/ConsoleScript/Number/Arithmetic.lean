import ConsoleScript.Number.Binary64

/-! # Remainder and power

The two operations on numbers that a `Float` does not bring along in the form needed here.

* **`remainder`** — the exact remainder of a division whose quotient is cut to an integer. It has
  the sign of the dividend, and is computed on natural numbers.
* **`power`** — integer exponents by repeated squaring of the significand with the exponent kept
  apart, so that only the last step can overflow or underflow. -/

namespace ConsoleScript

/-! ## Remainder -/

/-- The number that is no number. -/
def notANumber : Float :=
  0.0 / 0.0

/-- The magnitude of the exact remainder of two finite numbers, the second not zero. -/
def remainderMagnitude (dividend divisor : Float) : Float :=
  let low := min (Binary64.scale dividend) (Binary64.scale divisor)
  let whole (number : Float) :=
    Binary64.significand number * Nat.pow 2 (Binary64.scale number - low).toNat
  Float.scaleB (Float.ofNat (whole dividend % whole divisor)) low

/-- The remainder of a division whose quotient is cut to an integer, with the sign of the dividend.
There is none if the dividend is infinite or the divisor is zero. -/
def remainder (dividend divisor : Float) : Float :=
  if divisor == 0.0 ∨ dividend.isInf ∨ dividend.isNaN ∨ divisor.isNaN then notANumber
  else if divisor.isInf then dividend
  else
    let magnitude := remainderMagnitude dividend divisor
    if Binary64.isNegative dividend then -magnitude else magnitude

/-! ## Power -/

/-- A number kept as `mantissa · 2 ^ exponent`. -/
structure Scaled where
  /-- The factor in front. -/
  mantissa : Float
  /-- The exponent of two. -/
  exponent : Int

namespace Scaled

/-- The number itself, rounded once. -/
def toFloat (scaled : Scaled) : Float :=
  Float.scaleB scaled.mantissa scaled.exponent

/-- The reciprocal. -/
def inverse (scaled : Scaled) : Scaled :=
  ⟨1.0 / scaled.mantissa, -scaled.exponent⟩

/-- The product, without bringing the mantissa back into its range. -/
def multiply (first second : Scaled) : Scaled :=
  ⟨first.mantissa * second.mantissa, first.exponent + second.exponent⟩

/-- The square, with a mantissa of at least one half. -/
def square (scaled : Scaled) : Scaled :=
  let mantissa := scaled.mantissa * scaled.mantissa
  if mantissa < 0.5 then ⟨mantissa + mantissa, 2 * scaled.exponent - 1⟩
  else ⟨mantissa, 2 * scaled.exponent⟩

/-- The product of `result` with `base` to the power of a natural number below `2 ^ bits`. When the
exponent of the base has run out of range, the result is as good as infinite or zero, and only its
exponent is moved there. -/
def timesPower (bits : Nat) (base : Scaled) (count : Nat) (result : Scaled) : Scaled :=
  match bits with
  | 0 => result
  | rest + 1 =>
    if count = 0 then result
    else if base.exponent < -4096 ∨ 4096 < base.exponent then
      { result with exponent := result.exponent + base.exponent }
    else
      timesPower rest base.square (count / 2)
        (if count % 2 = 1 then result.multiply base else result)

end Scaled

/-- Whether a finite number is an odd integer. -/
def isOddInteger (number : Float) : Bool :=
  let scale := Binary64.scale number
  let significand := Binary64.significand number
  if 0 ≤ scale then scale = 0 && significand % 2 = 1
  else significand % Nat.pow 2 (-scale).toNat = 0 && significand / Nat.pow 2 (-scale).toNat % 2 = 1

/-- Whether a finite number is an integer. -/
def isInteger (number : Float) : Bool :=
  let scale := Binary64.scale number
  0 ≤ scale || Binary64.significand number % Nat.pow 2 (-scale).toNat = 0

/-- The magnitude of a finite number, cut to an integer. -/
def wholePart (number : Float) : Nat :=
  let scale := Binary64.scale number
  Binary64.significand number * Nat.pow 2 scale.toNat / Nat.pow 2 (-scale).toNat

/-- Positive infinity. -/
def infinity : Float :=
  1.0 / 0.0

/-- The power of a zero base to an exponent that is neither zero nor undefined. -/
def powerOfZero (base exponent : Float) : Float :=
  let odd := Binary64.isNegative base && !exponent.isInf && isOddInteger exponent
  if exponent < 0.0 then (if odd then -infinity else infinity)
  else (if odd then base else 0.0)

/-- The limit of powers whose exponent is beyond every bound: the base decides between zero and
infinity, and minus one gives one. -/
def powerLimit (base exponent : Float) : Float :=
  if base == -1.0 then 1.0
  else if decide (base.abs < 1.0) == decide (0.0 < exponent) then 0.0
  else infinity

/-- The power of a finite base other than zero to a finite integer exponent. -/
def integerPower (base exponent : Float) : Float :=
  let count := wholePart exponent
  if Nat.pow 2 63 ≤ count then powerLimit base exponent
  else
    let (mantissa, twos) := base.frExp
    let result := Scaled.timesPower 63 ⟨mantissa, twos⟩ count ⟨1.0, 0⟩
    (if exponent < 0.0 then result.inverse else result).toFloat

/-- The power of a number. An exponent of zero and a base of one always give one, and a negative
base has no power for a fractional exponent. -/
def power (base exponent : Float) : Float :=
  if exponent == 0.0 ∨ base == 1.0 then 1.0
  else if exponent == 1.0 then base
  else if base.isNaN ∨ exponent.isNaN then notANumber
  else if base == 0.0 then powerOfZero base exponent
  else if exponent.isInf then powerLimit base exponent
  else if base.isInf then
    if 0.0 < base then (if exponent < 0.0 then 0.0 else infinity)
    -- A power of negative infinity is the inverse power of negative zero.
    else powerOfZero (1.0 / base) (-exponent)
  else if exponent == 0.5 then base.sqrt
  else if exponent == -0.5 then 1.0 / base.sqrt
  else if isInteger exponent then integerPower base exponent
  else if base < 0.0 then notANumber
  else base.pow exponent

end ConsoleScript
