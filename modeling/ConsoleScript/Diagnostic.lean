import ConsoleScript.Source.Position
import ConsoleScript.Token.Kind

/-! # Diagnostics

What can be wrong with a source text. A `Complaint` is the reason, a `Finding` is a complaint with
the place it is about, and a `Diagnostic` is what is shown: a stable code, a severity, a message, a
hint and the place. All wording is in this file; the lexer and the parser only name reasons. -/

namespace ConsoleScript

/-- How serious a diagnostic is. -/
inductive Severity where
  /-- The source is not accepted. -/
  | error
  /-- The source is accepted, but something is suspicious. -/
  | warning
  /-- A severity that is neither. -/
  | unknown
  deriving DecidableEq, Repr, Inhabited

namespace Severity

/-- The severity with the given number: zero is an error and one a warning. -/
def ofNumber (number : Int) : Severity :=
  if number = 0 then error else if number = 1 then warning else unknown

/-- The word for a severity. -/
def label : Severity → Bytes
  | error => Bytes.utf8 "error"
  | warning => Bytes.utf8 "warning"
  | unknown => Bytes.utf8 "unknown"

end Severity

/-- A message about a place of the source. -/
structure Diagnostic where
  /-- The stable code of the reason. -/
  code : Bytes
  /-- How serious it is. -/
  severity : Severity
  /-- What is wrong. -/
  message : Bytes
  /-- Advice, empty if there is none. -/
  hint : Bytes
  /-- The place it is about. -/
  span : Span
  deriving DecidableEq, Repr

namespace Diagnostic

/-- The diagnostic as one line: code, severity, beginning of the place, message and hint. -/
def render (diagnostic : Diagnostic) : Bytes :=
  0x5b :: diagnostic.code ++ Bytes.utf8 "] " ++ diagnostic.severity.label ++ Bytes.utf8 " at "
    ++ diagnostic.span.start.render ++ Bytes.utf8 ": " ++ diagnostic.message
    ++ (if diagnostic.hint.isEmpty then []
      else Bytes.utf8 " (hint: " ++ diagnostic.hint ++ Bytes.utf8 ")")

/-- Several diagnostics, one on a line, without a newline at the end. -/
def renderAll (diagnostics : List Diagnostic) : Bytes :=
  Bytes.joinWith [0x0a] (diagnostics.map render)

/-- Whether any of the diagnostics is an error. -/
def hasErrors (diagnostics : List Diagnostic) : Bool :=
  diagnostics.any fun diagnostic => diagnostic.severity == .error

end Diagnostic

/-- A reason to complain about a source text. -/
inductive Complaint where
  /-- A text literal does not end on its line. -/
  | unterminatedText
  /-- A character that no token starts with. -/
  | unexpectedCharacter (lexeme : Bytes)
  /-- A number literal runs on into letters or further points. -/
  | malformedNumber (lexeme : Bytes)
  /-- A number literal exceeds every finite number. -/
  | invalidNumber (lexeme : Bytes)
  /-- A token of a fixed kind is missing. -/
  | expectedToken (wanted : TokenKind) (found : Bytes)
  /-- An expression is missing. -/
  | expectedExpression (found : Bytes)
  /-- The right operand of an operator is missing. -/
  | expectedExpressionAfter (operator found : Bytes)
  /-- The operand of a prefix operator is missing. -/
  | expectedOperand (operator : Bytes)
  /-- The body of a branch or loop is missing. -/
  | expectedBody (found : Bytes)
  /-- A token that no statement starts with. -/
  | unexpectedToken (found : Bytes)
  /-- An expression stands where a statement should. -/
  | expressionStatement
  /-- The left side of an assignment is not a name. -/
  | invalidTarget
  /-- The condition of a loop is the literal for truth. -/
  | endlessLoop
  deriving DecidableEq, Repr

namespace Complaint

/-- The stable code of a complaint. -/
def code : Complaint → Bytes
  | unterminatedText => Bytes.utf8 "L0001"
  | unexpectedCharacter _ => Bytes.utf8 "L0002"
  | malformedNumber _ => Bytes.utf8 "L0003"
  | invalidNumber _ | expectedToken _ _ | expectedExpression _ | expectedExpressionAfter _ _
  | expectedOperand _ | expectedBody _ => Bytes.utf8 "P0001"
  | unexpectedToken _ | expressionStatement => Bytes.utf8 "P0002"
  | invalidTarget => Bytes.utf8 "P0003"
  | endlessLoop => Bytes.utf8 "P0004"

/-- Every complaint is an error, apart from the one about an endless loop. -/
def severity : Complaint → Severity
  | endlessLoop => .warning
  | _ => .error

/-- The message of a complaint. -/
def message : Complaint → Bytes
  | unterminatedText => Bytes.utf8 "unterminated string literal"
  | unexpectedCharacter lexeme =>
    Bytes.utf8 "unexpected character '" ++ lexeme ++ Bytes.utf8 "'"
  | malformedNumber lexeme =>
    Bytes.utf8 "malformed number literal '" ++ lexeme ++ Bytes.utf8 "'"
  | invalidNumber lexeme => Bytes.utf8 "invalid number '" ++ lexeme ++ Bytes.utf8 "'"
  | expectedToken wanted found =>
    Bytes.utf8 "expected '" ++ wanted.label ++ Bytes.utf8 "', got '" ++ found ++ Bytes.utf8 "'"
  | expectedExpression found =>
    Bytes.utf8 "expected expression, got '" ++ found ++ Bytes.utf8 "'"
  | expectedExpressionAfter operator found =>
    Bytes.utf8 "expected expression after '" ++ operator ++ Bytes.utf8 "', got '" ++ found
      ++ Bytes.utf8 "'"
  | expectedOperand operator =>
    Bytes.utf8 "expected operand after '" ++ operator ++ Bytes.utf8 "'"
  | expectedBody found =>
    Bytes.utf8 "expected '\x7b' or a statement, got '" ++ found ++ Bytes.utf8 "'"
  | unexpectedToken found => Bytes.utf8 "unexpected token '" ++ found ++ Bytes.utf8 "'"
  | expressionStatement => Bytes.utf8 "expression is not a statement"
  | invalidTarget => Bytes.utf8 "cannot assign to this expression"
  | endlessLoop => Bytes.utf8 "loop condition is always true and the language has no break"

/-- The advice that goes with a complaint, empty if there is none. -/
def hint : Complaint → Bytes
  | unterminatedText =>
    Bytes.utf8 "strings end on the line they start; write \"\" for a literal quote"
  | unexpectedCharacter [0x26] => Bytes.utf8 "did you mean '&&' or 'and'?"
  | unexpectedCharacter [0x7c] => Bytes.utf8 "did you mean '||' or 'or'?"
  | expressionStatement => Bytes.utf8 "use 'console <expr>' to print a value"
  | endlessLoop => Bytes.utf8 "this loop never terminates"
  | _ => []

end Complaint

/-- A complaint about a place of the source. -/
structure Finding where
  /-- The reason. -/
  complaint : Complaint
  /-- The place it is about. -/
  span : Span
  deriving DecidableEq, Repr

namespace Finding

/-- What is shown for a finding. -/
def diagnostic (finding : Finding) : Diagnostic where
  code := finding.complaint.code
  severity := finding.complaint.severity
  message := finding.complaint.message
  hint := finding.complaint.hint
  span := finding.span

/-- Whether a finding is an error. -/
def isError (finding : Finding) : Bool :=
  finding.complaint.severity == .error

/-- Whether any of the findings is an error. -/
def anyError (findings : List Finding) : Bool :=
  findings.any isError

/-- The lines shown for findings, each with a newline. -/
def renderLines (findings : List Finding) : Bytes :=
  Bytes.unlines (findings.map fun finding => finding.diagnostic.render)

end Finding

end ConsoleScript
