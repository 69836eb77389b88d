import ConsoleScript.Number.Arithmetic
import ConsoleScript.Text.Bytes

/-! # Number literals

The number that a text stands for: the one that is nearest to its exact value, halfway cases to the
even one. Literals in source texts are digits with at most one point, but readers take tokens from
anywhere, and every text has a reading:

* a decimal numeral, with an exponent of ten behind `e` if there is one;
* a hexadecimal numeral behind `0x`, with an exponent of two behind `p`;
* a word for infinity or for what is no number.

A sign may stand in front, and single underscores between digits. A text that is none of these has
the value zero, and a value beyond the largest finite number is infinity; neither is accepted.

* **`Numeral.ofText?`**, **`NumberReading.ofText?`** — a text taken apart, without and with a sign;
* **`literalValue`** — the number that a text stands for;
* **`acceptsLiteral`** — whether it is accepted. -/

namespace ConsoleScript

/-! ## Digits -/

/-- The bases of numerals. -/
inductive Radix where
  /-- Base ten. -/
  | decimal
  /-- Base sixteen. -/
  | hexadecimal
  deriving DecidableEq

namespace Radix

/-- The lower case of a letter. No other byte is turned into a letter. -/
def lowered (byte : UInt8) : UInt8 :=
  byte ||| 0x20

/-- The sign between the digits of a numeral. -/
def underscore : UInt8 := 0x5f

/-- The sign in front of the fraction of a numeral. -/
def point : UInt8 := 0x2e

/-- The number of digits. -/
def size : Radix → Nat
  | decimal => 10
  | hexadecimal => 16

/-- The letter in front of an exponent. -/
def mark : Radix → UInt8
  | decimal => 0x65
  | hexadecimal => 0x70

/-- The value of a digit. -/
def digit? (radix : Radix) (byte : UInt8) : Option Nat :=
  if 0x30 ≤ byte ∧ byte ≤ 0x39 then some (byte.toNat - 0x30)
  else if radix = hexadecimal ∧ 0x61 ≤ lowered byte ∧ lowered byte ≤ 0x66 then
    some ((lowered byte).toNat - 0x57)
  else none

/-- Whether a byte is a digit. -/
def isDigit (radix : Radix) (byte : UInt8) : Bool :=
  (radix.digit? byte).isSome

/-- Whether a byte may stand in front of the exponent. -/
def isSignificand (radix : Radix) (byte : UInt8) : Bool :=
  radix.isDigit byte || byte == point || byte == underscore

/-- The natural number that digits stand for; other bytes are passed over. -/
def natural (radix : Radix) (text : Bytes) : Nat :=
  (text.filterMap radix.digit?).foldl (fun value digit => radix.size * value + digit) 0

/-- Whether every underscore of a text stands between two digits. Before the text there is a digit
if `behind` holds. -/
def separates (radix : Radix) (behind : Bool) : Bytes → Bool
  | [] => true
  | byte :: rest =>
    if byte = underscore then behind && rest.head?.any radix.isDigit && radix.separates false rest
    else radix.separates (radix.isDigit byte) rest

end Radix

/-! ## Numerals -/

/-- A text without the sign in front of it, and whether the sign is a minus. -/
def splitSign : Bytes → Bool × Bytes
  | [] => (false, [])
  | lead :: rest =>
    if lead = 0x2d then (true, rest)
    else if lead = 0x2b then (false, rest)
    else (false, lead :: rest)

/-- A numeral without its sign. -/
structure Numeral where
  /-- The base of its digits. -/
  radix : Radix
  /-- All digits in front of the exponent as one natural number. -/
  digits : Nat
  /-- The number of digits behind the point. -/
  places : Nat
  /-- The exponent. -/
  exponent : Int
  deriving DecidableEq

namespace Numeral

/-- The natural number that the digits of an exponent stand for. From five digits on the numeral is
far beyond all bounds, and further digits are passed over. -/
def exponentDigits (text : Bytes) : Nat :=
  (text.filterMap Radix.decimal.digit?).foldl
    (fun value digit => if value < 10000 then 10 * value + digit else value) 0

/-- The exponent behind its letter: decimal digits in either base, and a sign in front. -/
def exponentBehind? (text : Bytes) : Option Int :=
  let (negative, digits) := splitSign text
  if digits.head?.any Radix.decimal.isDigit
      ∧ digits.all fun byte => Radix.decimal.isDigit byte || byte == Radix.underscore then
    let magnitude := Int.ofNat (exponentDigits digits)
    some (if negative then -magnitude else magnitude)
  else none

/-- The exponent behind the other digits. Only a decimal numeral may lack one. -/
def exponent? (radix : Radix) : Bytes → Option Int
  | [] => if radix = .decimal then some 0 else none
  | byte :: rest => if Radix.lowered byte = radix.mark then exponentBehind? rest else none

/-- The numeral of a base behind its prefix. Where there is a prefix, it counts as a digit for the
underscores. -/
def ofDigits? (radix : Radix) (text : Bytes) : Option Numeral :=
  let significand := text.takeWhile radix.isSignificand
  if significand.any radix.isDigit ∧ significand.count Radix.point ≤ 1
      ∧ radix.separates (radix = .hexadecimal) text then
    (exponent? radix (text.dropWhile radix.isSignificand)).map fun exponent =>
      { radix := radix
        digits := radix.natural significand
        places := (significand.dropWhile (· ≠ Radix.point)).countP radix.isDigit
        exponent := exponent }
  else none

/-- The numeral that a text is. -/
def ofText? : Bytes → Option Numeral
  | zero :: letter :: rest =>
    if zero = 0x30 ∧ Radix.lowered letter = 0x78 then ofDigits? .hexadecimal rest
    else ofDigits? .decimal (zero :: letter :: rest)
  | text => ofDigits? .decimal text

/-- The number that is nearest to a natural number with the decimal point moved. -/
def scaled (digits : Nat) : Int → Float
  | .ofNat exponent => Float.ofScientific digits false exponent
  | .negSucc exponent => Float.ofScientific digits true (exponent + 1)

/-- The number that is nearest to the exact value of a numeral. -/
def nearest (numeral : Numeral) : Float :=
  match numeral.radix with
  | .decimal => scaled numeral.digits (numeral.exponent - numeral.places)
  | .hexadecimal =>
    match numeral.exponent - 4 * numeral.places with
    | .ofNat exponent => scaled (numeral.digits * Nat.pow 2 exponent) 0
    -- Halving is taking five times as much and moving the decimal point.
    | .negSucc exponent =>
      scaled (numeral.digits * Nat.pow 5 (exponent + 1)) (.negSucc exponent)

end Numeral

/-! ## Literals -/

/-- How a text is read as a number. -/
inductive NumberReading where
  /-- As a word for a number that is not finite. -/
  | word (value : Float)
  /-- As a numeral behind a sign. -/
  | numeral (negative : Bool) (unsigned : Numeral)

namespace NumberReading

/-- How a text is read. A word is spelled in either case of letters, and no sign may stand before
the word for what is no number. -/
def ofText? (text : Bytes) : Option NumberReading :=
  let (negative, unsigned) := splitSign text
  let spelled := unsigned.map Radix.lowered
  if text.map Radix.lowered = Bytes.utf8 "nan" then some (.word notANumber)
  else if spelled = Bytes.utf8 "inf" ∨ spelled = Bytes.utf8 "infinity" then
    some (.word (if negative then -infinity else infinity))
  else (Numeral.ofText? unsigned).map (numeral negative)

/-- The number that a text stands for. -/
def value : NumberReading → Float
  | word value => value
  | numeral negative unsigned => if negative then -unsigned.nearest else unsigned.nearest

/-- Whether a reading is accepted: no numeral stands for infinity. -/
def fits : NumberReading → Bool
  | word _ => true
  | numeral _ unsigned => !unsigned.nearest.isInf

end NumberReading

/-- The number that a literal stands for; zero for a text that is no literal. -/
def literalValue (lexeme : Bytes) : Float :=
  ((NumberReading.ofText? lexeme).map NumberReading.value).getD 0.0

/-- Whether a text is a literal of a number that is not beyond all finite ones. -/
def acceptsLiteral (lexeme : Bytes) : Bool :=
  (NumberReading.ofText? lexeme).any NumberReading.fits

end ConsoleScript
