import ConsoleScript.Number.Display

/-! # Values

What expressions evaluate to: numbers, texts, truth values and nil. `void` is the result of
statements that produce no value; no expression evaluates to it, but a variable can be bound to it
from outside. -/

namespace ConsoleScript

/-- The kinds of values. -/
inductive ValueKind where
  /-- Floating-point numbers. -/
  | number
  /-- Texts. -/
  | text
  /-- Truth values. -/
  | boolean
  /-- The nil value. -/
  | nil
  /-- The result of statements without a value. -/
  | void
  deriving DecidableEq, Repr

namespace ValueKind

/-- The word for a kind. -/
def label : ValueKind → Bytes
  | number => Bytes.utf8 "number"
  | text => Bytes.utf8 "text"
  | boolean => Bytes.utf8 "boolean"
  | nil => Bytes.utf8 "nil"
  | void => Bytes.utf8 "void"

/-- The word for the kind of a value that may be absent. -/
def labelOf : Option ValueKind → Bytes
  | some kind => kind.label
  | none => Bytes.utf8 "unknown"

/-- The kind with the given number, counted from one. -/
def ofNumber? (index : Int) : Option ValueKind :=
  if index = 1 then some number
  else if index = 2 then some text
  else if index = 3 then some boolean
  else if index = 4 then some nil
  else if index = 5 then some void
  else none

end ValueKind

/-- A value. -/
inductive Value where
  /-- A floating-point number. -/
  | number (value : Float)
  /-- A text. -/
  | text (value : Bytes)
  /-- A truth value. -/
  | boolean (value : Bool)
  /-- The nil value. -/
  | nil
  /-- The result of a statement without a value. -/
  | void
  deriving DecidableEq

namespace Value

/-- The kind of a value. -/
def kind : Value → ValueKind
  | number _ => .number
  | text _ => .text
  | boolean _ => .boolean
  | nil => .nil
  | void => .void

/-- The display text of a value, which is also what concatenation uses. -/
def display : Value → Bytes
  | number value => displayNumber value
  | text value => value
  | boolean value => Bytes.utf8 (if value then "true" else "false")
  | nil => Bytes.utf8 "nil"
  | void => Bytes.utf8 "void"

/-- Whether a value is a number. -/
def isNumber : Value → Bool
  | number _ => true
  | _ => false

/-- Whether two values are of the same kind with equal contents. Numbers compare as numbers: zeros
of either sign are equal, and what is not a number equals nothing. -/
def same : Value → Value → Bool
  | number first, number second => first == second
  | text first, text second => first == second
  | boolean first, boolean second => first == second
  | nil, nil => true
  | void, void => true
  | _, _ => false

/-- `same` for values that may be absent. -/
def same? : Option Value → Option Value → Bool
  | some first, some second => first.same second
  | none, none => true
  | _, _ => false

end Value

end ConsoleScript
