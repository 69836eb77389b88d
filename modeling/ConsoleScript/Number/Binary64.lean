/-! # Binary floating-point numbers taken apart

A finite number is plus or minus `significand · 2 ^ scale` with a natural significand below `2 ^
53`. This file reads the parts off the bits of a `Float`, as the exact remainder and the shortest
decimal text need them. -/

namespace ConsoleScript

namespace Binary64

/-- The sign bit: set for negative numbers and for negative zero. -/
def isNegative (number : Float) : Bool :=
  number.toBits.toNat / Nat.pow 2 63 = 1

/-- The exponent field of eleven bits. -/
def exponentField (number : Float) : Nat :=
  number.toBits.toNat / Nat.pow 2 52 % Nat.pow 2 11

/-- The fraction field of fifty-two bits. -/
def fractionField (number : Float) : Nat :=
  number.toBits.toNat % Nat.pow 2 52

/-- The natural factor of a finite number. -/
def significand (number : Float) : Nat :=
  if exponentField number = 0 then fractionField number else fractionField number + Nat.pow 2 52

/-- The power of two that the natural factor of a finite number is multiplied by. -/
def scale (number : Float) : Int :=
  if exponentField number = 0 then -1074 else Int.ofNat (exponentField number) - 1075

/-- Whether the next smaller number is only half as far away as the next larger one: the number is a
power of two above the smallest normal one. -/
def isBinadeStart (number : Float) : Bool :=
  fractionField number = 0 && 1 < exponentField number

end Binary64

end ConsoleScript
