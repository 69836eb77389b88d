import ConsoleScript.Evaluation.Value
import ConsoleScript.Source.Position

/-! # Failures of a run

A `Fault` is the reason why an evaluation fails, a `Failure` is a fault with the place of the node
that failed. All wording is here, but for the reason why a console refuses a line: that is the
console's own. -/

namespace ConsoleScript

/-- A reason why an evaluation fails. -/
inductive Fault where
  /-- A variable is read that was never assigned. -/
  | undeclared (name : Bytes)
  /-- A value of one kind was needed and one of another kind, or none, was there. -/
  | mismatch (expected : ValueKind) (actual : Option ValueKind)
  /-- The result of a statement without a value was to be bound to a name. -/
  | voidAssigned (name : Bytes)
  /-- An operator that the language does not have. -/
  | unsupportedOperator (symbol : Bytes)
  /-- An expression is missing. -/
  | missingExpression
  /-- The node to be evaluated is missing. -/
  | missingNode
  /-- The console did not take a line. -/
  | outputRefused
  deriving DecidableEq, Repr

namespace Fault

/-- The message of a fault, given why the console refuses lines. -/
def wording (refusal : Bytes) : Fault → Bytes
  | undeclared name => Bytes.utf8 "undeclared variable '" ++ name ++ Bytes.utf8 "'"
  | mismatch expected actual =>
    Bytes.utf8 "type mismatch: expected " ++ expected.label ++ Bytes.utf8 ", got "
      ++ ValueKind.labelOf actual
  | voidAssigned name =>
    Bytes.utf8 "type mismatch: void cannot be assigned to '" ++ name ++ Bytes.utf8 "'"
  | unsupportedOperator symbol =>
    Bytes.utf8 "unsupported operator '" ++ symbol ++ Bytes.utf8 "'"
  | missingExpression => Bytes.utf8 "missing expression"
  | missingNode => Bytes.utf8 "cannot evaluate nil node"
  | outputRefused => Bytes.utf8 "console: " ++ refusal

/-- What a console with a limit says when it refuses a line. -/
def limitRefusal : Bytes :=
  Bytes.utf8 "write refused"

/-- The message of a fault on a console with a limit. -/
def message : Fault → Bytes :=
  wording limitRefusal

end Fault

/-- A fault at a place of the source. -/
structure Failure where
  /-- The reason. -/
  fault : Fault
  /-- The place of the node that failed. -/
  span : Span
  deriving DecidableEq, Repr

namespace Failure

/-- The message of a failure, with its place if that is known, given why the console refuses lines.
-/
def wording (refusal : Bytes) (failure : Failure) : Bytes :=
  if failure.span.start.isKnown then
    Bytes.utf8 "runtime error at " ++ failure.span.start.render ++ Bytes.utf8 ": "
      ++ failure.fault.wording refusal
  else Bytes.utf8 "runtime error: " ++ failure.fault.wording refusal

/-- The message of a failure on a console with a limit. -/
def message (failure : Failure) : Bytes :=
  failure.wording Fault.limitRefusal

end Failure

namespace Value

/-- The number that a value is, or the complaint that it is none. -/
def asNumber : Option Value → Except Fault Float
  | some (number value) => .ok value
  | other => .error (.mismatch .number (other.map kind))

/-- The truth value that a value is, or the complaint that it is none. -/
def asBoolean : Option Value → Except Fault Bool
  | some (boolean value) => .ok value
  | other => .error (.mismatch .boolean (other.map kind))

end Value

end ConsoleScript
