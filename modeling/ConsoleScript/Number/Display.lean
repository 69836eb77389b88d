import ConsoleScript.Number.Decimal

/-! # Numbers as text

A number is written with the fewest digits that read back as it. Magnitudes from `1e-6` up to but
not including `1e21` are written in full, others with an exponent; `NumberStyle` tells how many
digits the exponent has at least. -/

namespace ConsoleScript

/-- The choices that differ between the texts of numbers. -/
structure NumberStyle where
  /-- The least number of digits of an exponent. -/
  exponentDigits : Nat

namespace NumberStyle

/-- Numbers on the console have at least two digits in an exponent. -/
def console : NumberStyle :=
  ⟨2⟩

/-- Numbers in JSON documents have no leading zero in an exponent. -/
def json : NumberStyle :=
  ⟨1⟩

end NumberStyle

namespace Decimal

/-- A run of zero digits. -/
def zeros (count : Int) : Bytes :=
  List.replicate count.toNat 0x30

/-- A decimal without an exponent. -/
def positional (decimal : Decimal) : Bytes :=
  let count := Int.ofNat decimal.digits.length
  if decimal.point ≤ 0 then 0x30 :: 0x2e :: zeros (-decimal.point) ++ decimal.digits
  else if decimal.point < count then
    decimal.digits.take decimal.point.toNat ++ 0x2e :: decimal.digits.drop decimal.point.toNat
  else decimal.digits ++ zeros (decimal.point - count)

/-- A decimal with one digit before the point and an exponent with a sign. -/
def scientific (style : NumberStyle) (decimal : Decimal) : Bytes :=
  let exponent := decimal.point - 1
  let places := Bytes.decimal exponent.natAbs
  let fraction := decimal.digits.drop 1
  decimal.digits.take 1 ++ (if fraction.isEmpty then [] else 0x2e :: fraction)
    ++ 0x65 :: (if exponent < 0 then 0x2d else 0x2b)
    :: List.replicate (style.exponentDigits - places.length) 0x30 ++ places

/-- Whether the number is written without an exponent: at least `1e-6` and less than `1e21`. -/
def isPositional (decimal : Decimal) : Bool :=
  -6 < decimal.point && decimal.point ≤ 21

end Decimal

namespace NumberStyle

/-- The text of a finite number. -/
def finite (style : NumberStyle) (number : Float) : Bytes :=
  let sign : Bytes := if Binary64.isNegative number then [0x2d] else []
  if Binary64.significand number = 0 then sign ++ [0x30]
  else
    let decimal := Decimal.shortest number
    sign ++ if decimal.isPositional then decimal.positional else decimal.scientific style

end NumberStyle

/-- The display text of a number. -/
def displayNumber (number : Float) : Bytes :=
  if number.isNaN then Bytes.utf8 "NaN"
  else if number.isInf then
    if Binary64.isNegative number then Bytes.utf8 "-Infinity" else Bytes.utf8 "Infinity"
  else NumberStyle.console.finite number

end ConsoleScript
