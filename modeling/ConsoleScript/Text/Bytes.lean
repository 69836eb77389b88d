/-! # Byte strings

Source text, names, lexemes, text values and everything that is printed are sequences of bytes:
positions count bytes, and a lexeme may end in the middle of an encoded character. This file fixes
the representation `Bytes` and the few operations on it that the rest of the library shares:

* **`utf8`** — the bytes of a fixed message;
* **`decimal`**, **`signedDecimal`** — a number in decimal digits;
* **`joinWith`** — pieces with a separator between neighbours;
* **`unlines`** — every piece followed by a newline. -/

namespace ConsoleScript

/-- A sequence of bytes. -/
abbrev Bytes := List UInt8

namespace Bytes

/-- The UTF-8 encoding of a string. -/
def utf8 (text : String) : Bytes :=
  text.toUTF8.data.toList

/-- The bytes of a natural number in decimal digits, without leading zeros. -/
def decimal (number : Nat) : Bytes :=
  (Nat.toDigits 10 number).map fun digit => digit.toNat.toUInt8

/-- The bytes of an integer in decimal digits, a minus sign before a negative one. -/
def signedDecimal : Int → Bytes
  | .ofNat number => decimal number
  | .negSucc number => 0x2d :: decimal (number + 1)

/-- The pieces in order, with `separator` between each two neighbours. -/
def joinWith (separator : Bytes) : List Bytes → Bytes
  | [] => []
  | [piece] => piece
  | piece :: next :: pieces => piece ++ separator ++ joinWith separator (next :: pieces)

/-- The pieces in order, each followed by a newline byte. -/
def unlines (pieces : List Bytes) : Bytes :=
  pieces.flatMap fun piece => piece ++ [0x0a]

/-- One hexadecimal digit, letters in lower case. -/
def hexDigit (digit : Nat) : UInt8 :=
  if digit < 10 then (0x30 + digit).toUInt8 else (0x57 + digit).toUInt8

/-- The last `width` hexadecimal digits of a number, most significant first. -/
def hexadecimal (width : Nat) (number : Nat) : Bytes :=
  match width with
  | 0 => []
  | rest + 1 => hexadecimal rest (number / 16) ++ [hexDigit (number % 16)]

@[simp] theorem joinWith_nil (separator : Bytes) : joinWith separator [] = [] := rfl

@[simp] theorem joinWith_singleton (separator piece : Bytes) :
    joinWith separator [piece] = piece := rfl

@[simp] theorem unlines_nil : unlines [] = [] := rfl

@[simp] theorem unlines_cons (piece : Bytes) (pieces : List Bytes) :
    unlines (piece :: pieces) = piece ++ [0x0a] ++ unlines pieces := rfl

@[simp] theorem unlines_append (pieces more : List Bytes) :
    unlines (pieces ++ more) = unlines pieces ++ unlines more :=
  List.flatMap_append

end Bytes

end ConsoleScript
