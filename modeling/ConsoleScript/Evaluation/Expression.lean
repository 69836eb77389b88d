import ConsoleScript.Evaluation.Environment
import ConsoleScript.Evaluation.Fault
import ConsoleScript.Number.Arithmetic
import ConsoleScript.Text.Doubled
import ConsoleScript.Tree.Basic

/-! # Evaluating expressions

An expression only reads the environment. Operands are evaluated from left to right and all of them:
conjunction and disjunction look at both sides. A fault is placed at the operand with the wrong
kind. -/

namespace ConsoleScript

/-- Numbers that differ by less than this are equal to the equality operators. -/
def tolerance : Float :=
  1e-11

namespace Value

/-- Addition of numbers; any other two values are concatenated as texts. -/
def add : Value → Value → Value
  | number left, number right => number (left + right)
  | left, right => text (left.display ++ right.display)

/-- Equality as the operator has it: numbers are equal up to the tolerance. -/
def equals : Value → Value → Bool
  | number left, number right => (left - right).abs < tolerance
  | left, right => left.same right

/-- Inequality as the operator has it. For numbers whose difference is no number, neither equality
nor inequality holds. -/
def differs : Value → Value → Bool
  | number left, number right => tolerance ≤ (left - right).abs
  | left, right => !left.same right

end Value

namespace BinaryOperator

/-- What an operator needs of its operands. -/
inductive Demand where
  /-- Any two values; the operator gives a value. -/
  | anything (apply : Value → Value → Value)
  /-- Two truth values. -/
  | booleans (apply : Bool → Bool → Bool)
  /-- Two numbers. -/
  | numbers (apply : Float → Float → Value)
  /-- The operator does not exist. -/
  | nothing

/-- The demand of each operator, with its meaning on operands that meet it. -/
def demand : BinaryOperator → Demand
  | add => .anything Value.add
  | equal => .anything fun left right => .boolean (left.equals right)
  | notEqual => .anything fun left right => .boolean (left.differs right)
  | both => .booleans fun left right => left && right
  | either => .booleans fun left right => left || right
  | power => .numbers fun left right => .number (ConsoleScript.power left right)
  | multiply => .numbers fun left right => .number (left * right)
  | divide => .numbers fun left right => .number (left / right)
  | remainder => .numbers fun left right => .number (ConsoleScript.remainder left right)
  | subtract => .numbers fun left right => .number (left - right)
  | less => .numbers fun left right => .boolean (left < right)
  | lessEqual => .numbers fun left right => .boolean (left ≤ right)
  | greater => .numbers fun left right => .boolean (left > right)
  | greaterEqual => .numbers fun left right => .boolean (left ≥ right)
  | unknown => .nothing

end BinaryOperator

namespace Fault

/-- A check of a value, its fault placed at `span`. -/
def locate {α : Type} (span : Span) : Except Fault α → Except Failure α
  | .ok value => .ok value
  | .error fault => .error ⟨fault, span⟩

end Fault

namespace Expr

/-- Applies a unary operator to the value of its operand. -/
def applyUnary (span : Span) (operator : UnaryOperator) (operand : Expr) (value : Value) :
    Except Failure Value :=
  match operator with
  | .negate => do
    let number ← Fault.locate operand.span (Value.asNumber (some value))
    return .number (-number)
  | .invert => do
    let truth ← Fault.locate operand.span (Value.asBoolean (some value))
    return .boolean (!truth)
  | .unknown => .error ⟨.unsupportedOperator operator.symbol, span⟩

/-- Applies a binary operator to the values of its operands. -/
def applyBinary (span : Span) (operator : BinaryOperator) (left right : Expr)
    (first second : Value) : Except Failure Value :=
  match operator.demand with
  | .anything apply => .ok (apply first second)
  | .booleans apply => do
    let one ← Fault.locate left.span (Value.asBoolean (some first))
    let two ← Fault.locate right.span (Value.asBoolean (some second))
    return .boolean (apply one two)
  | .numbers apply => do
    let one ← Fault.locate left.span (Value.asNumber (some first))
    let two ← Fault.locate right.span (Value.asNumber (some second))
    return apply one two
  | .nothing => .error ⟨.unsupportedOperator operator.symbol, span⟩

/-- The value of an expression, or why it has none. -/
def evaluate (environment : Environment) : Expr → Except Failure Value
  | number _ value => .ok (.number value)
  | text _ raw => .ok (.text raw.unquoteLiteral)
  | boolean _ value => .ok (.boolean value)
  | nil _ => .ok .nil
  | name span word =>
    match environment.get? word with
    | some value => .ok value
    | none => .error ⟨.undeclared word, span⟩
  | unary span operator operand => do
    let value ← evaluate environment operand
    applyUnary span operator operand value
  | binary span operator left right => do
    let first ← evaluate environment left
    let second ← evaluate environment right
    applyBinary span operator left right first second
  | paren _ inner => evaluate environment inner
  | missing => .error ⟨.missingExpression, .unset⟩

/-- The truth of a condition, or why it has none. -/
def holds (environment : Environment) (condition : Expr) : Except Failure Bool := do
  let value ← condition.evaluate environment
  Fault.locate condition.span (Value.asBoolean (some value))

end Expr

end ConsoleScript
