import ConsoleScript.Token.Kind

/-! # Operators

The unary and binary operators of expressions. A tree built by hand may hold an operator that the
language does not have; it is kept as `unknown`, and evaluating it fails. -/

namespace ConsoleScript

/-- An operator with one operand. -/
inductive UnaryOperator where
  /-- Arithmetic negation. -/
  | negate
  /-- Logical negation. -/
  | invert
  /-- No operator of the language. -/
  | unknown
  deriving DecidableEq, Repr

namespace UnaryOperator

/-- The operator with the given number, counted from one. -/
def ofNumber (number : Int) : UnaryOperator :=
  if number = 1 then negate else if number = 2 then invert else unknown

/-- The operator that a token stands for before an operand. -/
def ofKind : TokenKind → UnaryOperator
  | .minus => negate
  | .bang => invert
  | _ => unknown

/-- How an operator is displayed. -/
def symbol : UnaryOperator → Bytes
  | negate => Bytes.utf8 "-"
  | invert => Bytes.utf8 "!"
  | unknown => Bytes.utf8 "UnaryOp(?)"

end UnaryOperator

/-- An operator between two operands. -/
inductive BinaryOperator where
  /-- Power, grouping to the right. -/
  | power
  /-- Multiplication. -/
  | multiply
  /-- Division. -/
  | divide
  /-- Remainder. -/
  | remainder
  /-- Addition of numbers, concatenation of anything else. -/
  | add
  /-- Subtraction. -/
  | subtract
  /-- Strictly less. -/
  | less
  /-- Less or equal. -/
  | lessEqual
  /-- Strictly greater. -/
  | greater
  /-- Greater or equal. -/
  | greaterEqual
  /-- Equality. -/
  | equal
  /-- Inequality. -/
  | notEqual
  /-- Conjunction, both operands evaluated. -/
  | both
  /-- Disjunction, both operands evaluated. -/
  | either
  /-- No operator of the language. -/
  | unknown
  deriving DecidableEq, Repr

namespace BinaryOperator

/-- The operators of the language in their fixed order, in which they are numbered from one. -/
def all : List BinaryOperator :=
  [power, multiply, divide, remainder, add, subtract, less, lessEqual, greater, greaterEqual, equal,
    notEqual, both, either]

/-- The operator with the given number, counted from one. -/
def ofNumber : Int → BinaryOperator
  | .ofNat (index + 1) => all[index]?.getD unknown
  | _ => unknown

/-- The operator that a token stands for between two operands. -/
def ofKind : TokenKind → BinaryOperator
  | .caret => power
  | .star => multiply
  | .slash => divide
  | .percent => remainder
  | .plus => add
  | .minus => subtract
  | .less => less
  | .lessEqual => lessEqual
  | .greater => greater
  | .greaterEqual => greaterEqual
  | .equal => equal
  | .notEqual => notEqual
  | .both => both
  | .either => either
  | _ => unknown

/-- How an operator is displayed. -/
def symbol : BinaryOperator → Bytes
  | power => Bytes.utf8 "^"
  | multiply => Bytes.utf8 "*"
  | divide => Bytes.utf8 "/"
  | remainder => Bytes.utf8 "%"
  | add => Bytes.utf8 "+"
  | subtract => Bytes.utf8 "-"
  | less => Bytes.utf8 "<"
  | lessEqual => Bytes.utf8 "<="
  | greater => Bytes.utf8 ">"
  | greaterEqual => Bytes.utf8 ">="
  | equal => Bytes.utf8 "=="
  | notEqual => Bytes.utf8 "!="
  | both => Bytes.utf8 "&&"
  | either => Bytes.utf8 "||"
  | unknown => Bytes.utf8 "BinaryOp(?)"

end BinaryOperator

end ConsoleScript
