import ConsoleScript.Yaml.Node

/-! # What a plain scalar stands for

A plain scalar is null, a truth value, an integer, a floating-point number, a date or the key of a
merge if it is spelled like one, and a text otherwise; a quoted scalar is always a text. -/

namespace ConsoleScript

namespace Yaml

/-- The kinds of scalars. -/
inductive Tag where
  /-- Nothing. -/
  | null
  /-- A truth value. -/
  | bool
  /-- An integer. -/
  | int
  /-- A floating-point number. -/
  | float
  /-- A date, possibly with a time. -/
  | timestamp
  /-- The key under which a mapping names others that are merged into it. -/
  | merge
  /-- A text. -/
  | str
  deriving DecidableEq

namespace Tag

/-- How a kind is named. -/
def label : Tag → Bytes
  | null => Bytes.utf8 "!!null"
  | bool => Bytes.utf8 "!!bool"
  | int => Bytes.utf8 "!!int"
  | float => Bytes.utf8 "!!float"
  | timestamp => Bytes.utf8 "!!timestamp"
  | merge => Bytes.utf8 "!!merge"
  | str => Bytes.utf8 "!!str"

/-- Spellings of null. -/
def nulls : List Bytes :=
  ["", "~", "null", "Null", "NULL"].map Bytes.utf8

/-- Spellings of truth. -/
def trues : List Bytes :=
  ["true", "True", "TRUE"].map Bytes.utf8

/-- Spellings of falsehood. -/
def falses : List Bytes :=
  ["false", "False", "FALSE"].map Bytes.utf8

/-- The spelling of the key of a merge. -/
def mergeMark : Bytes :=
  Bytes.utf8 "<<"

/-- Spellings of infinity and of what is no number. -/
def specialFloats : List Bytes :=
  [".nan", ".NaN", ".NAN", ".inf", ".Inf", ".INF", "+.inf", "+.Inf", "+.INF", "-.inf", "-.Inf",
    "-.INF"].map Bytes.utf8

/-- A decimal digit. -/
def isDigit (byte : UInt8) : Bool :=
  0x30 ≤ byte && byte ≤ 0x39

/-- The value of a digit of any base up to sixteen. -/
def digitValue (byte : UInt8) : Nat :=
  if isDigit byte then byte.toNat - 0x30
  else if 0x61 ≤ byte ∧ byte ≤ 0x66 then byte.toNat - 0x57
  else if 0x41 ≤ byte ∧ byte ≤ 0x46 then byte.toNat - 0x37
  else 16

/-- The value of digits of a base, if there are any and all are below it. -/
def digitsValue? (base : Nat) (digits : Bytes) : Option Nat :=
  if !digits.isEmpty && digits.all (digitValue · < base) then
    some (digits.foldl (fun value digit => base * value + digitValue digit) 0)
  else none

/-- The value of an integer without its sign: the base is told by the letter behind a leading zero,
and a leading zero alone means base eight. -/
def magnitude? : Bytes → Option Nat
  | 0x30 :: 0x78 :: digits | 0x30 :: 0x58 :: digits => digitsValue? 16 digits
  | 0x30 :: 0x6f :: digits | 0x30 :: 0x4f :: digits => digitsValue? 8 digits
  | 0x30 :: 0x62 :: digits | 0x30 :: 0x42 :: digits => digitsValue? 2 digits
  | 0x30 :: digit :: digits => digitsValue? 8 (digit :: digits)
  | digits => digitsValue? 10 digits

/-- Whether a text is a number of at most sixty-four bits, perhaps with a sign; `magnitude?` gives
the value of what is behind the sign. -/
def isWord (magnitude? : Bytes → Option Nat) (text : Bytes) : Bool :=
  match text with
  | 0x2d :: rest => (magnitude? rest).any (· ≤ Nat.pow 2 63)
  | 0x2b :: rest => (magnitude? rest).any (· < Nat.pow 2 63)
  | _ => (magnitude? text).any (· < Nat.pow 2 64)

/-- Whether a text is an integer of at most sixty-four bits. The sign of one of base two or eight
may also stand behind the letter of the base. -/
def isInteger (text : Bytes) : Bool :=
  isWord magnitude? text || match text with
    | 0x30 :: 0x62 :: rest => isWord (digitsValue? 2) rest
    | 0x30 :: 0x6f :: rest => isWord (digitsValue? 8) rest
    | _ => false

/-- What is left behind an optional sign. -/
def dropSign : Bytes → Bytes
  | 0x2b :: rest => rest
  | 0x2d :: rest => rest
  | text => text

/-- The exponent that a text with its letter stands for, zero for no text. -/
def exponent? : Bytes → Option Int
  | [] => some 0
  | letter :: rest =>
    if letter = 0x65 ∨ letter = 0x45 then
      (digitsValue? 10 (dropSign rest)).map fun value =>
        if rest.head? = some 0x2d then -Int.ofNat value else Int.ofNat value
    else none

/-- The natural number and the power of ten whose product a decimal number is but for its sign:
digits with a point anywhere, but not a point alone, and perhaps an exponent. -/
def decimal? (text : Bytes) : Option (Nat × Int) := do
  let unsigned := dropSign text
  let whole := unsigned.takeWhile isDigit
  let behind := unsigned.dropWhile isDigit
  let (fraction, rest) := match behind with
    | 0x2e :: rest => (rest.takeWhile isDigit, rest.dropWhile isDigit)
    | _ => ([], behind)
  let number ← digitsValue? 10 (whole ++ fraction)
  let exponent ← exponent? rest
  return (number, exponent - Int.ofNat fraction.length)

/-- Whether `number · 10 ^ exponent` is rounded to a finite number of sixty-four bits: it lies below
the middle between the largest of them and the power of two that would follow. -/
def isFinite (number : Nat) (exponent : Int) : Bool :=
  let bound := Nat.pow 2 1024 - Nat.pow 2 970
  let digits := Int.ofNat (Bytes.decimal number).length
  -- The bound has 309 digits, so that only numbers of as many have to be compared with it.
  number == 0 || digits + exponent < 309
    || (digits + exponent == 309
      && number * Nat.pow 10 exponent.toNat < bound * Nat.pow 10 (-exponent).toNat)

/-- Whether a text is a decimal number that is not too large. -/
def isDecimal (text : Bytes) : Bool :=
  (decimal? text).any fun (number, exponent) => isFinite number exponent

/-- The number at the front of a text, of one or two digits, and what is behind it. -/
def shortNumber? : Bytes → Option (Nat × Bytes)
  | first :: second :: rest =>
    if isDigit first then
      if isDigit second then some (10 * digitValue first + digitValue second, rest)
      else some (digitValue first, second :: rest)
    else none
  | [first] => if isDigit first then some (digitValue first, []) else none
  | [] => none

/-- What is behind a byte at the front of a text. -/
def expect? (byte : UInt8) : Bytes → Option Bytes
  | first :: rest => if first = byte then some rest else none
  | [] => none

/-- The number of days of a month. -/
def daysIn (year month : Nat) : Nat :=
  if month = 2 then
    if year % 4 = 0 ∧ (year % 100 ≠ 0 ∨ year % 400 = 0) then 29 else 28
  else if month = 4 ∨ month = 6 ∨ month = 9 ∨ month = 11 then 30 else 31

/-- What is behind a date at the front of a text: a year of four digits, month and day. -/
def date? (text : Bytes) : Option Bytes := do
  let year := text.takeWhile isDigit
  if year.length ≠ 4 then none
  let (month, behindMonth) ← shortNumber? (← expect? 0x2d (text.drop 4))
  let (day, rest) ← shortNumber? (← expect? 0x2d behindMonth)
  let yearNumber ← digitsValue? 10 year
  if 1 ≤ month ∧ month ≤ 12 ∧ 1 ≤ day ∧ day ≤ daysIn yearNumber month then some rest else none

/-- What is behind a time at the front of a text: hours, minutes, seconds and perhaps a fraction. -/
def time? (text : Bytes) : Option Bytes := do
  let (hour, behindHour) ← shortNumber? text
  let (minute, behindMinute) ← shortNumber? (← expect? 0x3a behindHour)
  let (second, rest) ← shortNumber? (← expect? 0x3a behindMinute)
  if 24 ≤ hour ∨ 60 ≤ minute ∨ 60 ≤ second then none
  match rest with
  | point :: digit :: more =>
    if (point = 0x2e ∨ point = 0x2c) ∧ isDigit digit then some (more.dropWhile isDigit)
    else some rest
  | _ => some rest

/-- Whether a text is a time zone: the letter for universal time, or hours and minutes with a sign,
where up to twenty-four hours and sixty minutes pass. -/
def isZone : Bytes → Bool
  | [0x5a] => true
  | [sign, h1, h2, 0x3a, m1, m2] =>
    (sign == 0x2b || sign == 0x2d) && [h1, h2, m1, m2].all isDigit
      && 10 * digitValue h1 + digitValue h2 ≤ 24 && 10 * digitValue m1 + digitValue m2 ≤ 60
  | _ => false

/-- Whether a text is a date, or a date with a time: behind a letter in a time zone, behind blanks
without one. -/
def isTimestamp (text : Bytes) : Bool :=
  match date? text with
  | none => false
  | some [] => true
  | some (separator :: rest) =>
    if separator = 0x54 ∨ separator = 0x74 then (time? rest).any isZone
    else separator == 0x20 && time? (rest.dropWhile (· == 0x20)) == some []

/-- The kind of a plain scalar. -/
def ofPlain (text : Bytes) : Tag :=
  if nulls.contains text then null
  else if trues.contains text || falses.contains text then bool
  else if specialFloats.contains text then float
  else if text = mergeMark then merge
  else
    match text with
    | 0x2e :: _ => if isDecimal text then float else str
    | first :: _ =>
      if isDigit first || first == 0x2b || first == 0x2d then
        let plain := text.filter (· ≠ 0x5f)
        if isTimestamp text then timestamp
        else if isInteger plain then int
        else if isDecimal plain then float
        else str
      else str
    | [] => null

/-- The kind of a scalar. -/
def ofScalar (isPlain : Bool) (text : Bytes) : Tag :=
  if isPlain then ofPlain text else str

end Tag

end Yaml

end ConsoleScript
