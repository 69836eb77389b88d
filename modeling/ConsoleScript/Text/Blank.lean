import ConsoleScript.Text.Character

/-! # White space around a text

The white space that is cut off both ends of a line before it is compared with a command word, and
that makes a chunk of input count as empty. The characters are those with the Unicode property
White_Space; they are listed by their encodings, so that cutting works on raw bytes. -/

namespace ConsoleScript

namespace Character

/-- The scalar values that are white space. -/
def blankScalars : List Nat :=
  [0x09, 0x0a, 0x0b, 0x0c, 0x0d, 0x20, 0x85, 0xa0, 0x1680, 0x2000, 0x2001, 0x2002, 0x2003, 0x2004,
    0x2005, 0x2006, 0x2007, 0x2008, 0x2009, 0x200a, 0x2028, 0x2029, 0x202f, 0x205f, 0x3000]

/-- Whether a scalar value is white space. -/
def isBlank (scalar : Nat) : Bool :=
  blankScalars.contains scalar

/-- The encodings of the white-space characters. -/
def blankEncodings : List Bytes :=
  blankScalars.map fun scalar => (ofScalar scalar).bytes

end Character

namespace Bytes

/-- What is left of `text` after the first of `fronts` that it starts with, if it starts with one.
-/
def dropOneOf? (fronts : List Bytes) (text : Bytes) : Option Bytes :=
  fronts.findSome? fun front => front.isPrefixOf? text

/-- The text without any of the `fronts` at its beginning, however often they repeat. -/
def dropAllOf (fronts : List Bytes) (text : Bytes) : Bytes :=
  match dropOneOf? fronts text with
  | some rest => if rest.length < text.length then dropAllOf fronts rest else text
  | none => text
termination_by text.length

/-- The text without white space at both ends. -/
def trim (text : Bytes) : Bytes :=
  (dropAllOf (Character.blankEncodings.map List.reverse)
    (dropAllOf Character.blankEncodings text).reverse).reverse

end Bytes

end ConsoleScript
