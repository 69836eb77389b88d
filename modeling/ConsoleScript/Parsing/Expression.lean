import ConsoleScript.Number.Literal
import ConsoleScript.Parsing.Cursor
import ConsoleScript.Tree.Basic

/-! # Reading expressions

Expressions are read by operator strength. An operand is a literal, a name, a unary operator with
its operand, or an expression in parentheses; it is continued as long as the next token is a binary
operator stronger than the floor that the caller sets. From weak to strong: `||`, `&&`, equality,
comparison, addition, multiplication, the unary operators, power. Equal strengths group to the left,
except for power, whose exponent may hold another power.

The three functions call each other on ever shorter token lists; each result carries the proof that
no step goes back and that a value costs at least one token. `Cursor.expression` is the reader
without the proof. -/

namespace ConsoleScript

namespace TokenKind

/-- The strength of a binary operator, zero for every other kind. -/
def strength : TokenKind → Nat
  | either => 10
  | both => 20
  | equal | notEqual => 30
  | less | lessEqual | greater | greaterEqual => 40
  | plus | minus => 50
  | star | slash | percent => 60
  | caret => 80
  | _ => 0

/-- The strength of the unary operators: weaker than a power, stronger than a product. -/
def unaryStrength : Nat :=
  70

/-- The floor for the right operand of a binary operator: its own strength, so that equal operators
group to the left, but one less for a power, which groups to the right. -/
def rightFloor (kind : TokenKind) : Nat :=
  if kind = caret then kind.strength - 1 else kind.strength

end TokenKind

namespace Parsed

/-- No token was put back, and a value was paid for with a token. -/
def Advances {α : Type} (start : Cursor) (parsed : Parsed (Option α)) : Prop :=
  parsed.cursor.size ≤ start.size ∧ (parsed.value.isSome → parsed.cursor.size < start.size)

/-- Reports a missing expression at the place where reading it began. -/
def required (start : Cursor) (parsed : Parsed (Option Expr)) : Parsed (Option Expr) :=
  match parsed.value with
  | some _ => parsed
  | none =>
    { parsed with
      findings := parsed.findings
        ++ [⟨.expectedExpression start.peek.description, start.peek.span⟩] }

@[simp] theorem value_required (start : Cursor) (parsed : Parsed (Option Expr)) :
    (parsed.required start).value = parsed.value := by
  unfold required
  split <;> rfl

@[simp] theorem cursor_required (start : Cursor) (parsed : Parsed (Option Expr)) :
    (parsed.required start).cursor = parsed.cursor := by
  unfold required
  split <;> rfl

end Parsed

namespace Cursor

mutual

/-- Reads an expression whose binary operators outside parentheses are stronger than `floor`. -/
def expressionStep (floor : Nat) (cursor : Cursor) :
    { parsed : Parsed (Option Expr) // parsed.Advances cursor } :=
  let operand := operandStep cursor
  match found : operand.1.value with
  | none => ⟨⟨none, operand.1.cursor, operand.1.findings⟩, operand.2.1, by simp⟩
  | some left =>
    have shorter : operand.1.cursor.size < cursor.size := operand.2.2 (by simp [found])
    let whole := continueStep floor left operand.1.cursor
    ⟨⟨whole.1.value, whole.1.cursor, operand.1.findings ++ whole.1.findings⟩,
      Nat.le_of_lt (Nat.lt_of_le_of_lt whole.2 shorter),
      fun _ => Nat.lt_of_le_of_lt whole.2 shorter⟩
termination_by (cursor.size, 2)
decreasing_by
  · exact Prod.Lex.right _ (by omega)
  · exact Prod.Lex.left _ _ shorter

/-- Reads binary operators stronger than `floor` with their right operands, behind the operand
`left`. -/
def continueStep (floor : Nat) (left : Expr) (cursor : Cursor) :
    { parsed : Parsed (Option Expr) // parsed.cursor.size ≤ cursor.size } :=
  match cursor with
  | ⟨[], last⟩ => ⟨⟨some left, ⟨[], last⟩, []⟩, Nat.le_refl _⟩
  | ⟨sign :: rest, last⟩ =>
    if sign.kind.strength ≤ floor then ⟨⟨some left, ⟨sign :: rest, last⟩, []⟩, Nat.le_refl _⟩
    else
      let behind := (Cursor.mk rest sign.span.stop).skipNewlines
      have shorter : behind.size < (sign :: rest).length :=
        Nat.lt_succ_of_le (size_skipNewlines_le ⟨rest, sign.span.stop⟩)
      let right := expressionStep sign.kind.rightFloor behind
      have between : right.1.cursor.size < (sign :: rest).length :=
        Nat.lt_of_le_of_lt right.2.1 shorter
      match right.1.value with
      | none =>
        let found := right.1.cursor.peek
        ⟨⟨none, right.1.cursor, right.1.findings
          ++ [⟨.expectedExpressionAfter sign.lexeme found.description, found.span⟩]⟩,
          Nat.le_of_lt between⟩
      | some operand =>
        let span : Span := ⟨left.span.start, operand.span.stop⟩
        let joined := Expr.binary span (.ofKind sign.kind) left operand
        let whole := continueStep floor joined right.1.cursor
        ⟨⟨whole.1.value, whole.1.cursor, right.1.findings ++ whole.1.findings⟩,
          Nat.le_trans whole.2 (Nat.le_of_lt between)⟩
termination_by (cursor.size, 1)
decreasing_by
  · exact Prod.Lex.left _ _ shorter
  · exact Prod.Lex.left _ _ between

/-- Reads an operand. Nothing is consumed if none starts here. -/
def operandStep (cursor : Cursor) :
    { parsed : Parsed (Option Expr) // parsed.Advances cursor } :=
  match cursor with
  | ⟨[], last⟩ => ⟨⟨none, ⟨[], last⟩, []⟩, Nat.le_refl _, by simp⟩
  | ⟨token :: rest, last⟩ =>
    let behind := Cursor.mk rest token.span.stop
    have shorter : behind.size < (token :: rest).length := Nat.lt_succ_self _
    let leaf (expr : Expr) (findings : List Finding) :
        { parsed : Parsed (Option Expr) // parsed.Advances ⟨token :: rest, last⟩ } :=
      ⟨⟨some expr, behind, findings⟩, Nat.le_of_lt shorter, fun _ => shorter⟩
    match token.kind with
    | .number =>
      leaf (.number token.span (literalValue token.lexeme))
        (if acceptsLiteral token.lexeme then []
          else [⟨.invalidNumber token.lexeme, token.span⟩])
    | .text => leaf (.text token.span token.lexeme) []
    | .trueWord => leaf (.boolean token.span true) []
    | .falseWord => leaf (.boolean token.span false) []
    | .nilWord => leaf (.nil token.span) []
    | .name => leaf (.name token.span token.lexeme) []
    | .minus | .bang =>
      let inner := expressionStep TokenKind.unaryStrength behind
      have less : inner.1.cursor.size < (token :: rest).length :=
        Nat.lt_of_le_of_lt inner.2.1 shorter
      match inner.1.value with
      | none =>
        ⟨⟨none, inner.1.cursor, inner.1.findings
          ++ [⟨.expectedOperand token.lexeme, inner.1.cursor.peek.span⟩]⟩,
          Nat.le_of_lt less, by simp⟩
      | some operand =>
        ⟨⟨some (.unary ⟨token.span.start, inner.1.cursor.last⟩ (.ofKind token.kind) operand),
          inner.1.cursor, inner.1.findings⟩, Nat.le_of_lt less, fun _ => less⟩
    | .leftParen =>
      let inside := behind.skipNewlines
      have deeper : inside.size < (token :: rest).length :=
        Nat.lt_of_le_of_lt (size_skipNewlines_le behind) shorter
      let inner := expressionStep 0 inside
      have less : inner.1.cursor.size < (token :: rest).length :=
        Nat.lt_of_le_of_lt inner.2.1 deeper
      let checked := inner.1.required inside
      match inner.1.value with
      | none => ⟨⟨none, inner.1.cursor, checked.findings⟩, Nat.le_of_lt less, by simp⟩
      | some expr =>
        let close := inner.1.cursor.skipNewlines.expect .rightParen
        have closed : close.cursor.size < (token :: rest).length :=
          Nat.lt_of_le_of_lt (Nat.le_trans (size_expect_le _ _) (size_skipNewlines_le _)) less
        ⟨⟨some (.paren ⟨token.span.start, close.cursor.last⟩ expr), close.cursor,
          checked.findings ++ close.findings⟩, Nat.le_of_lt closed, fun _ => closed⟩
    | _ => ⟨⟨none, ⟨token :: rest, last⟩, []⟩, Nat.le_refl _, by simp⟩
termination_by (cursor.size, 0)
decreasing_by
  · exact Prod.Lex.left _ _ shorter
  · exact Prod.Lex.left _ _ deeper

end

/-- Reads an expression whose binary operators outside parentheses are stronger than `floor`. No
value means that no expression could be read here. -/
def expression (floor : Nat) (cursor : Cursor) : Parsed (Option Expr) :=
  (cursor.expressionStep floor).1

/-- Reads binary operators stronger than `floor` behind the operand `left`. -/
def continuation (floor : Nat) (left : Expr) (cursor : Cursor) : Parsed (Option Expr) :=
  (continueStep floor left cursor).1

/-- Reads an operand. -/
def operand (cursor : Cursor) : Parsed (Option Expr) :=
  cursor.operandStep.1

/-- Reads an expression, and reports it if there is none. -/
def requiredExpression (cursor : Cursor) : Parsed (Option Expr) :=
  (cursor.expression 0).required cursor

theorem advances_expression (floor : Nat) (cursor : Cursor) :
    (cursor.expression floor).Advances cursor :=
  (cursor.expressionStep floor).2

theorem size_requiredExpression_le (cursor : Cursor) :
    cursor.requiredExpression.cursor.size ≤ cursor.size := by
  rw [requiredExpression, Parsed.cursor_required]
  exact (cursor.advances_expression 0).1

/-! ## The readers without their proofs -/

/-- An expression is an operand with what continues it. -/
theorem expression_eq (floor : Nat) (cursor : Cursor) :
    cursor.expression floor =
      match cursor.operand.value with
      | none => ⟨none, cursor.operand.cursor, cursor.operand.findings⟩
      | some left =>
        let whole := continuation floor left cursor.operand.cursor
        ⟨whole.value, whole.cursor, cursor.operand.findings ++ whole.findings⟩ := by
  rw [expression, expressionStep]
  dsimp only [operand]
  split <;> rename_i h
  · simp [h]
  · simp [h, continuation]

@[simp] theorem continuation_nil (floor : Nat) (left : Expr) (last : Position) :
    continuation floor left ⟨[], last⟩ = ⟨some left, ⟨[], last⟩, []⟩ := by
  rw [continuation, continueStep]

/-- A binary operator above the floor joins the expression behind it to the left operand. -/
theorem continuation_cons (floor : Nat) (left : Expr) (sign : Token) (rest : List Token)
    (last : Position) :
    continuation floor left ⟨sign :: rest, last⟩ =
      if sign.kind.strength ≤ floor then ⟨some left, ⟨sign :: rest, last⟩, []⟩
      else
        let right := (Cursor.mk rest sign.span.stop).skipNewlines.expression sign.kind.rightFloor
        match right.value with
        | none =>
          ⟨none, right.cursor, right.findings ++ [⟨.expectedExpressionAfter sign.lexeme
            right.cursor.peek.description, right.cursor.peek.span⟩]⟩
        | some operand =>
          let whole := continuation floor (.binary ⟨left.span.start, operand.span.stop⟩
            (.ofKind sign.kind) left operand) right.cursor
          ⟨whole.value, whole.cursor, right.findings ++ whole.findings⟩ := by
  rw [continuation, continueStep]
  dsimp only [expression]
  split
  · rfl
  · split <;> simp [continuation]

@[simp] theorem operand_nil (last : Position) : operand ⟨[], last⟩ = ⟨none, ⟨[], last⟩, []⟩ := by
  rw [operand, operandStep]

/-- The operand that starts with a token. -/
theorem operand_cons (token : Token) (rest : List Token) (last : Position) :
    operand ⟨token :: rest, last⟩ =
      let behind := Cursor.mk rest token.span.stop
      match token.kind with
      | .number =>
        ⟨some (.number token.span (literalValue token.lexeme)), behind,
          if acceptsLiteral token.lexeme then []
          else [⟨.invalidNumber token.lexeme, token.span⟩]⟩
      | .text => ⟨some (.text token.span token.lexeme), behind, []⟩
      | .trueWord => ⟨some (.boolean token.span true), behind, []⟩
      | .falseWord => ⟨some (.boolean token.span false), behind, []⟩
      | .nilWord => ⟨some (.nil token.span), behind, []⟩
      | .name => ⟨some (.name token.span token.lexeme), behind, []⟩
      | .minus | .bang =>
        let inner := behind.expression TokenKind.unaryStrength
        match inner.value with
        | none =>
          ⟨none, inner.cursor, inner.findings
            ++ [⟨.expectedOperand token.lexeme, inner.cursor.peek.span⟩]⟩
        | some operand =>
          ⟨some (.unary ⟨token.span.start, inner.cursor.last⟩ (.ofKind token.kind) operand),
            inner.cursor, inner.findings⟩
      | .leftParen =>
        let inner := behind.skipNewlines.requiredExpression
        match inner.value with
        | none => ⟨none, inner.cursor, inner.findings⟩
        | some expr =>
          let close := inner.cursor.skipNewlines.expect .rightParen
          ⟨some (.paren ⟨token.span.start, close.cursor.last⟩ expr), close.cursor,
            inner.findings ++ close.findings⟩
      | _ => ⟨none, ⟨token :: rest, last⟩, []⟩ := by
  rw [operand, operandStep]
  dsimp only [expression, requiredExpression]
  cases hk : token.kind <;> simp only []
  case minus => split <;> simp
  case bang => split <;> simp
  case leftParen =>
    simp only [Parsed.value_required, Parsed.cursor_required]
    split <;> simp

end Cursor

end ConsoleScript
