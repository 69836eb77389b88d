import ConsoleScript.Text.Character
import ConsoleScript.Text.Printable

/-! # Quoted text

A text between double quotes in which every byte can be told from what is printed: printable
characters stand for themselves, a quote and a backslash get a backslash, the usual control
characters get a letter, and everything else is written in hexadecimal digits. -/

namespace ConsoleScript

namespace Character

/-- The letter that a backslash escape uses for a control character. -/
def controlLetter? : Nat → Option UInt8
  | 0x07 => some 0x61
  | 0x08 => some 0x62
  | 0x09 => some 0x74
  | 0x0a => some 0x6e
  | 0x0b => some 0x76
  | 0x0c => some 0x66
  | 0x0d => some 0x72
  | _ => none

/-- An escape: a backslash, a letter that tells the width, and hexadecimal digits. -/
def numericEscape (letter : UInt8) (digits : Nat) (number : Nat) : Bytes :=
  0x5c :: letter :: Bytes.hexadecimal digits number

/-- How a unit of text is written between double quotes. -/
def quoted (unit : Character) : Bytes :=
  match unit.scalar? with
  | none => unit.bytes.flatMap fun byte => numericEscape 0x78 2 byte.toNat
  | some scalar =>
    if scalar = 0x22 ∨ scalar = 0x5c then 0x5c :: unit.bytes
    else if isPrintable scalar then unit.bytes
    else match controlLetter? scalar with
      | some letter => [0x5c, letter]
      | none =>
        if scalar < 0x80 then numericEscape 0x78 2 scalar
        else if scalar < 0x10000 then numericEscape 0x75 4 scalar
        else numericEscape 0x55 8 scalar

end Character

namespace Bytes

/-- The text between double quotes, with escapes. -/
def quoted (text : Bytes) : Bytes :=
  0x22 :: (characters text).flatMap Character.quoted ++ [0x22]

end Bytes

end ConsoleScript
