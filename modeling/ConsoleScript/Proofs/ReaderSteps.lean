import ConsoleScript.Proofs.ReaderCalls

/-! # Steps of the readers

What each reader can do, said once. A step of a reader is described in terms of what is given by the
calls that it makes: there is one relation for each reader and one rule for each way to read.

* **`ExpressionCall.Step`**, **`StatementCall.Step`** — the steps of all readers. `Given` is any
  relation between calls and what they give;
* **`step_unroll`** — one level of calls takes one of these steps;
* **`read_induction`** — what every step keeps holds of everything that is read. -/

namespace ConsoleScript

/-- Whether an expression can start with a token of this kind. -/
def TokenKind.startsExpression : TokenKind → Bool
  | number | text | trueWord | falseWord | nilWord | name | minus | bang | leftParen => true
  | _ => false

/-! ## Readers of expressions -/

namespace ExpressionCall

/-- An expression is an operand with what continues it. -/
inductive ExpressionStep (Given : ExpressionCall → Parsed (Option Expr) → Prop) (floor : Nat)
    (cursor : Cursor) : Parsed (Option Expr) → Prop where
  /-- There is no operand. -/
  | missing {behind : Cursor} {findings : List Finding}
      (first : Given (operand cursor) ⟨none, behind, findings⟩) :
      ExpressionStep Given floor cursor ⟨none, behind, findings⟩
  /-- There is one, and what continues it is read. -/
  | continued {left : Expr} {behind : Cursor} {findings : List Finding}
      {whole : Parsed (Option Expr)}
      (first : Given (operand cursor) ⟨some left, behind, findings⟩)
      (further : Given (continuation floor left behind) whole) :
      ExpressionStep Given floor cursor ⟨whole.value, whole.cursor, findings ++ whole.findings⟩

/-- An operand is continued by binary operators above the floor with their right operands. -/
inductive ContinuationStep (Given : ExpressionCall → Parsed (Option Expr) → Prop) (floor : Nat)
    (left : Expr) : Cursor → Parsed (Option Expr) → Prop where
  /-- No binary operator above the floor follows. -/
  | done {cursor : Cursor} (weak : cursor.kind.strength ≤ floor) :
      ContinuationStep Given floor left cursor ⟨some left, cursor, []⟩
  /-- One follows, but no right operand. -/
  | missing {sign : Token} {rest : List Token} {last : Position} {behind : Cursor}
      {findings : List Finding} (above : floor < sign.kind.strength)
      (right : Given (expression sign.kind.rightFloor (Cursor.mk rest sign.span.stop).skipNewlines)
        ⟨none, behind, findings⟩) :
      ContinuationStep Given floor left ⟨sign :: rest, last⟩
        ⟨none, behind, findings
          ++ [⟨.expectedExpressionAfter sign.lexeme behind.peek.description, behind.peek.span⟩]⟩
  /-- One follows with its right operand, and both operands are continued together. -/
  | joined {sign : Token} {rest : List Token} {last : Position} {second : Expr} {behind : Cursor}
      {findings : List Finding} {whole : Parsed (Option Expr)} (above : floor < sign.kind.strength)
      (right : Given (expression sign.kind.rightFloor (Cursor.mk rest sign.span.stop).skipNewlines)
        ⟨some second, behind, findings⟩)
      (further : Given (continuation floor (.binary ⟨left.span.start, second.span.stop⟩
        (.ofKind sign.kind) left second) behind) whole) :
      ContinuationStep Given floor left ⟨sign :: rest, last⟩
        ⟨whole.value, whole.cursor, findings ++ whole.findings⟩

/-- An operand is read by its first token. -/
inductive OperandStep (Given : ExpressionCall → Parsed (Option Expr) → Prop) :
    Cursor → Parsed (Option Expr) → Prop where
  /-- No expression can start here. -/
  | absent {cursor : Cursor} (foreign : cursor.kind.startsExpression = false) :
      OperandStep Given cursor ⟨none, cursor, []⟩
  /-- A number literal. -/
  | number {token : Token} {rest : List Token} {last : Position} (kind : token.kind = .number) :
      OperandStep Given ⟨token :: rest, last⟩
        ⟨some (.number token.span (literalValue token.lexeme)), ⟨rest, token.span.stop⟩,
          if acceptsLiteral token.lexeme then []
          else [⟨.invalidNumber token.lexeme, token.span⟩]⟩
  /-- A text literal. -/
  | text {token : Token} {rest : List Token} {last : Position} (kind : token.kind = .text) :
      OperandStep Given ⟨token :: rest, last⟩
        ⟨some (.text token.span token.lexeme), ⟨rest, token.span.stop⟩, []⟩
  /-- The literal of a truth value. -/
  | boolean {token : Token} {rest : List Token} {last : Position} {truth : Bool}
      (kind : token.kind = if truth then .trueWord else .falseWord) :
      OperandStep Given ⟨token :: rest, last⟩
        ⟨some (.boolean token.span truth), ⟨rest, token.span.stop⟩, []⟩
  /-- The literal for nothing. -/
  | nil {token : Token} {rest : List Token} {last : Position} (kind : token.kind = .nilWord) :
      OperandStep Given ⟨token :: rest, last⟩
        ⟨some (.nil token.span), ⟨rest, token.span.stop⟩, []⟩
  /-- A name. -/
  | name {token : Token} {rest : List Token} {last : Position} (kind : token.kind = .name) :
      OperandStep Given ⟨token :: rest, last⟩
        ⟨some (.name token.span token.lexeme), ⟨rest, token.span.stop⟩, []⟩
  /-- A unary operator without an operand. -/
  | unsigned {token : Token} {rest : List Token} {last : Position} {behind : Cursor}
      {findings : List Finding} (kind : token.kind = .minus ∨ token.kind = .bang)
      (inner : Given (expression TokenKind.unaryStrength ⟨rest, token.span.stop⟩)
        ⟨none, behind, findings⟩) :
      OperandStep Given ⟨token :: rest, last⟩
        ⟨none, behind, findings ++ [⟨.expectedOperand token.lexeme, behind.peek.span⟩]⟩
  /-- A unary operator with its operand. -/
  | signed {token : Token} {rest : List Token} {last : Position} {expr : Expr} {behind : Cursor}
      {findings : List Finding} (kind : token.kind = .minus ∨ token.kind = .bang)
      (inner : Given (expression TokenKind.unaryStrength ⟨rest, token.span.stop⟩)
        ⟨some expr, behind, findings⟩) :
      OperandStep Given ⟨token :: rest, last⟩
        ⟨some (.unary ⟨token.span.start, behind.last⟩ (.ofKind token.kind) expr), behind, findings⟩
  /-- A parenthesis without an expression in it. -/
  | unenclosed {token : Token} {rest : List Token} {last : Position} {start behind : Cursor}
      {findings : List Finding} (kind : token.kind = .leftParen)
      (skipped : (Cursor.mk rest token.span.stop).skipNewlines = start)
      (inner : Given (expression 0 start) ⟨none, behind, findings⟩) :
      OperandStep Given ⟨token :: rest, last⟩
        ⟨none, behind, findings ++ [⟨.expectedExpression start.peek.description, start.peek.span⟩]⟩
  /-- An expression in parentheses, the closing one of which may be missing. -/
  | enclosed {token : Token} {rest : List Token} {last : Position} {expr : Expr} {behind : Cursor}
      {findings : List Finding} {close : Parsed Unit} (kind : token.kind = .leftParen)
      (inner : Given (expression 0 (Cursor.mk rest token.span.stop).skipNewlines)
        ⟨some expr, behind, findings⟩)
      (closes : behind.skipNewlines.expect .rightParen = close) :
      OperandStep Given ⟨token :: rest, last⟩
        ⟨some (.paren ⟨token.span.start, close.cursor.last⟩ expr), close.cursor,
          findings ++ close.findings⟩

/-- The steps of the readers of expressions. -/
def Step (Given : ExpressionCall → Parsed (Option Expr) → Prop) :
    ExpressionCall → Parsed (Option Expr) → Prop
  | expression floor cursor => ExpressionStep Given floor cursor
  | continuation floor left cursor => ContinuationStep Given floor left cursor
  | operand cursor => OperandStep Given cursor

section Unrolling

variable {Given : ExpressionCall → Parsed (Option Expr) → Prop}
  {inner : ExpressionCall → Parsed (Option Expr)} (given : ∀ call, Given call (inner call))
include given

theorem step_unroll_expression (floor : Nat) (cursor : Cursor) :
    ExpressionStep Given floor cursor (unroll inner (expression floor cursor)) := by
  have first := given (operand cursor)
  rw [unroll]
  generalize inner (operand cursor) = parsed at first ⊢
  obtain ⟨value, behind, findings⟩ := parsed
  cases value with
  | none => exact .missing first
  | some left => exact .continued first (given _)

theorem step_unroll_continuation (floor : Nat) (left : Expr) (cursor : Cursor) :
    ContinuationStep Given floor left cursor (unroll inner (continuation floor left cursor)) := by
  obtain ⟨rest, last⟩ := cursor
  cases rest with
  | nil => exact .done (Nat.zero_le floor)
  | cons sign rest =>
    have right := given
      (expression sign.kind.rightFloor (Cursor.mk rest sign.span.stop).skipNewlines)
    rw [unroll]
    split
    · rename_i weak
      exact .done weak
    · rename_i strong
      generalize inner (expression _ _) = parsed at right ⊢
      obtain ⟨value, behind, findings⟩ := parsed
      cases value with
      | none => exact .missing (Nat.lt_of_not_le strong) right
      | some second => exact .joined (Nat.lt_of_not_le strong) right (given _)

/-- A unary operator comes with its operand or without one. -/
theorem step_unroll_signed {token : Token} {rest : List Token} {last : Position}
    (kind : token.kind = .minus ∨ token.kind = .bang) :
    OperandStep Given ⟨token :: rest, last⟩ (unroll inner (operand ⟨token :: rest, last⟩)) := by
  have content := given (expression TokenKind.unaryStrength ⟨rest, token.span.stop⟩)
  rw [unroll]
  dsimp only
  generalize inner (expression TokenKind.unaryStrength _) = parsed at content ⊢
  obtain ⟨value, behind, findings⟩ := parsed
  cases value with
  | none =>
    have step : OperandStep Given ⟨token :: rest, last⟩ _ := .unsigned kind content
    rcases kind with kind | kind <;> simpa only [kind] using step
  | some expr =>
    have step : OperandStep Given ⟨token :: rest, last⟩ _ := .signed kind content
    rcases kind with kind | kind <;> simpa only [kind] using step

/-- A parenthesis encloses an expression or none. -/
theorem step_unroll_enclosed {token : Token} {rest : List Token} {last : Position}
    (kind : token.kind = .leftParen) :
    OperandStep Given ⟨token :: rest, last⟩ (unroll inner (operand ⟨token :: rest, last⟩)) := by
  have content := given (expression 0 (Cursor.mk rest token.span.stop).skipNewlines)
  rw [unroll]
  simp only [kind, Parsed.value_required, Parsed.cursor_required]
  generalize inner (expression _ _) = parsed at content ⊢
  obtain ⟨value, behind, findings⟩ := parsed
  cases value with
  | none => exact .unenclosed kind rfl content
  | some expr => exact .enclosed kind content rfl

theorem step_unroll_operand (cursor : Cursor) :
    OperandStep Given cursor (unroll inner (operand cursor)) := by
  obtain ⟨rest, last⟩ := cursor
  cases rest with
  | nil => exact .absent rfl
  | cons token rest =>
    cases kind : token.kind
    case minus => exact step_unroll_signed given (.inl kind)
    case bang => exact step_unroll_signed given (.inr kind)
    case leftParen => exact step_unroll_enclosed given kind
    all_goals
      rw [unroll]
      simp only [kind]
    case number => exact .number kind
    case text => exact .text kind
    case trueWord => exact .boolean kind
    case falseWord => exact .boolean kind
    case nilWord => exact .nil kind
    case name => exact .name kind
    all_goals exact .absent (by simp [Cursor.kind, Cursor.peek, kind, TokenKind.startsExpression])

/-- One level of calls is a step of the reader that is called. -/
theorem step_unroll (call : ExpressionCall) : Step Given call (unroll inner call) := by
  cases call with
  | expression floor cursor => exact step_unroll_expression given floor cursor
  | continuation floor left cursor => exact step_unroll_continuation given floor left cursor
  | operand cursor => exact step_unroll_operand given cursor

end Unrolling

/-- What holds of a guess and is kept by every step holds of what is read. -/
theorem read_induction {motive : ExpressionCall → Parsed (Option Expr) → Prop}
    (guess : ExpressionCall → Parsed (Option Expr)) (base : ∀ call, motive call (guess call))
    (step : ∀ call parsed, Step motive call parsed → motive call parsed) (call : ExpressionCall) :
    motive call call.read := by
  have kept (depth : Nat) : ∀ call, motive call (unrolled guess depth call) := by
    induction depth with
    | zero => exact base
    | succ depth ih => exact fun call => step call _ (step_unroll ih call)
  rw [← unrolled_eq_read guess (Nat.lt_succ_self call.measure)]
  exact kept _ call

end ExpressionCall

/-! ## Readers of statements -/

/-- The words that open a further branch of a conditional, and the cursor behind them. -/
inductive Cursor.Opens (cursor : Cursor) : Token → Cursor → Prop where
  /-- The word for a further branch. -/
  | elseif {word : Token} {rest : List Token} {last : Position}
      (ahead : cursor.skipNewlines = ⟨word :: rest, last⟩) (kind : word.kind = .elseifWord) :
      Opens cursor word ⟨rest, word.span.stop⟩
  /-- The word for a last block with the word for a conditional directly behind it. -/
  | elseIf {word : Token} {rest : List Token} {last : Position}
      (ahead : cursor.skipNewlines = ⟨word :: rest, last⟩) (kind : word.kind = .elseWord)
      (next : (Cursor.mk rest word.span.stop).kind = .ifWord) :
      Opens cursor (Cursor.mk rest word.span.stop).peek (Cursor.mk rest word.span.stop).advance

namespace StatementCall

/-- The reader of a branch reads a condition, and the body behind it. -/
inductive BranchStep (Given : (call : StatementCall) → Parsed call.Result → Prop) (word : Token)
    (cursor : Cursor) : Parsed Branch → Prop where
  /-- The condition may be missing. -/
  | guarded {inside : Parsed Block} (body : Given (body cursor.requiredExpression.cursor) inside) :
      BranchStep Given word cursor
        ⟨.mk (inside.cursor.spanFrom word.span.start)
            (cursor.requiredExpression.value.getD .missing) inside.value,
          inside.cursor, cursor.requiredExpression.findings ++ inside.findings⟩

/-- Branches, the first one behind its word, with what is further to it. -/
inductive ChainStep (Given : (call : StatementCall) → Parsed call.Result → Prop) (word : Token)
    (start : Cursor) : Parsed (List Branch × Block) → Prop where
  /-- The further branches are read behind the first one. -/
  | linked {first : Parsed Branch} {others : Parsed (List Branch × Block)}
      (opening : Given (branch word start) first) (further : Given (branches first.cursor) others) :
      ChainStep Given word start
        ⟨(first.value :: others.value.1, others.value.2), others.cursor,
          first.findings ++ others.findings⟩

/-- A statement is read by its first token. -/
inductive StatementStep (Given : (call : StatementCall) → Parsed call.Result → Prop) :
    Cursor → Parsed (Option Stmt) → Prop where
  /-- No other statement starts here. -/
  | assignment {cursor : Cursor}
      (other : cursor.kind ∉ [.ifWord, .whileWord, .consoleWord, .leftBrace]) :
      StatementStep Given cursor cursor.assignment
  /-- A conditional. -/
  | conditional {word : Token} {rest : List Token} {last : Position}
      {chain : Parsed (List Branch × Block)} (kind : word.kind = .ifWord)
      (linked : ChainStep Given word ⟨rest, word.span.stop⟩ chain) :
      StatementStep Given ⟨word :: rest, last⟩
        ⟨some (.conditional (chain.cursor.spanFrom word.span.start) chain.value.1 chain.value.2),
          chain.cursor, chain.findings⟩
  /-- A loop; what is found in its condition comes before the warning, and that before the body. -/
  | loop {word : Token} {rest : List Token} {last : Position} {condition : Parsed (Option Expr)}
      {repeated : Parsed Block} (kind : word.kind = .whileWord)
      (tested : (Cursor.mk rest word.span.stop).requiredExpression = condition)
      (body : Given (body condition.cursor) repeated) :
      StatementStep Given ⟨word :: rest, last⟩
        ⟨some (.loop (repeated.cursor.spanFrom word.span.start) (condition.value.getD .missing)
            repeated.value),
          repeated.cursor,
          condition.findings ++ Cursor.loopWarnings word condition.value ++ repeated.findings⟩
  /-- A console statement. -/
  | console {word : Token} {rest : List Token} {last : Position} (kind : word.kind = .consoleWord) :
      StatementStep Given ⟨word :: rest, last⟩
        ((Cursor.mk rest word.span.stop).consoleStatement word)
  /-- A block. -/
  | block {brace : Token} {rest : List Token} {last : Position} {inside : Parsed (Span × List Stmt)}
      (kind : brace.kind = .leftBrace)
      (content : Given (braced brace ⟨rest, brace.span.stop⟩) inside) :
      StatementStep Given ⟨brace :: rest, last⟩
        ⟨some (.block inside.value.1 inside.value.2), inside.cursor, inside.findings⟩

/-- Further branches are read by the words that stand behind the line breaks. -/
inductive BranchesStep (Given : (call : StatementCall) → Parsed call.Result → Prop)
    (cursor : Cursor) : Parsed (List Branch × Block) → Prop where
  /-- There are no further branches, and line breaks stay. -/
  | absent (other : cursor.skipNewlines.kind ∉ [.elseifWord, .elseWord]) :
      BranchesStep Given cursor ⟨([], .absent), cursor, []⟩
  /-- There is a further branch. -/
  | further {word : Token} {start : Cursor} {chain : Parsed (List Branch × Block)}
      (opens : cursor.Opens word start) (linked : ChainStep Given word start chain) :
      BranchesStep Given cursor chain
  /-- There is a last block. -/
  | otherwise {word : Token} {rest : List Token} {last : Position} {final : Parsed Block}
      (ahead : cursor.skipNewlines = ⟨word :: rest, last⟩) (kind : word.kind = .elseWord)
      (apart : (Cursor.mk rest word.span.stop).kind ≠ .ifWord)
      (content : Given (body ⟨rest, word.span.stop⟩) final) :
      BranchesStep Given cursor ⟨([], final.value), final.cursor, final.findings⟩

/-- A body is a block or a single statement. -/
inductive BodyStep (Given : (call : StatementCall) → Parsed call.Result → Prop) :
    Cursor → Parsed Block → Prop where
  /-- Neither of the two starts here. -/
  | missing {cursor : Cursor} (ends : Cursor.endsBody cursor.kind = true) :
      BodyStep Given cursor
        ⟨.present cursor.peek.span [], cursor,
          [⟨.expectedBody cursor.peek.description, cursor.peek.span⟩]⟩
  /-- A block. -/
  | block {brace : Token} {rest : List Token} {last : Position} {inside : Parsed (Span × List Stmt)}
      (kind : brace.kind = .leftBrace)
      (content : Given (braced brace ⟨rest, brace.span.stop⟩) inside) :
      BodyStep Given ⟨brace :: rest, last⟩
        ⟨.present inside.value.1 inside.value.2, inside.cursor, inside.findings⟩
  /-- A single statement, which may be left out. -/
  | single {cursor : Cursor} {stmt : Parsed (Option Stmt)}
      (starts : Cursor.endsBody cursor.kind = false) (content : Given (statement cursor) stmt) :
      BodyStep Given cursor
        ⟨.present (stmt.cursor.spanFrom cursor.peek.span.start) stmt.value.toList, stmt.cursor,
          stmt.findings⟩

/-- A block is a run of statements and a closing brace. -/
inductive BracedStep (Given : (call : StatementCall) → Parsed call.Result → Prop) (brace : Token)
    (cursor : Cursor) : Parsed (Span × List Stmt) → Prop where
  /-- The closing brace may be missing. -/
  | closed {inside : Parsed (List Stmt)} {close : Parsed Unit}
      (content : Given (statements true cursor.skipSeparators) inside)
      (closes : inside.cursor.expect .rightBrace = close) :
      BracedStep Given brace cursor
        ⟨(close.cursor.spanFrom brace.span.start, inside.value), close.cursor,
          inside.findings ++ close.findings⟩

/-- Statements are read one after the other, with separators behind them. -/
inductive StatementsStep (Given : (call : StatementCall) → Parsed call.Result → Prop)
    (inBraces : Bool) (cursor : Cursor) : Parsed (List Stmt) → Prop where
  /-- There are no further statements. -/
  | ended (ends : cursor.kind = .endOfInput ∨ (inBraces = true ∧ cursor.kind = .rightBrace)) :
      StatementsStep Given inBraces cursor ⟨[], cursor, []⟩
  /-- There is one, which may be left out, with others behind it. -/
  | more {stmt : Parsed (Option Stmt)} {others : Parsed (List Stmt)}
      (ongoing : ¬(cursor.kind = .endOfInput ∨ (inBraces = true ∧ cursor.kind = .rightBrace)))
      (first : Given (statement cursor) stmt)
      (further : Given (statements inBraces stmt.cursor.skipSeparators) others) :
      StatementsStep Given inBraces cursor
        ⟨stmt.value.toList ++ others.value, others.cursor, stmt.findings ++ others.findings⟩

/-- The steps of the readers of statements. -/
def Step (Given : (call : StatementCall) → Parsed call.Result → Prop) :
    (call : StatementCall) → Parsed call.Result → Prop
  | statement cursor => StatementStep Given cursor
  | branch word cursor => BranchStep Given word cursor
  | branches cursor => BranchesStep Given cursor
  | body cursor => BodyStep Given cursor
  | braced brace cursor => BracedStep Given brace cursor
  | statements inBraces cursor => StatementsStep Given inBraces cursor

section Unrolling

variable {Given : (call : StatementCall) → Parsed call.Result → Prop} {inner : Reader}
  (given : ∀ call, Given call (inner call))
include given

theorem chain_inner (word : Token) (start : Cursor) :
    let first := inner (branch word start)
    let others := inner (branches first.cursor)
    ChainStep Given word start
      ⟨(first.value :: others.value.1, others.value.2), others.cursor,
        first.findings ++ others.findings⟩ :=
  .linked (given (branch word start)) (given (branches _))

theorem step_unroll_statement (cursor : Cursor) :
    StatementStep Given cursor (unroll inner (statement cursor)) := by
  obtain ⟨rest, last⟩ := cursor
  cases rest with
  | nil => exact .assignment (show TokenKind.endOfInput ∉ _ by decide)
  | cons token rest =>
    rw [unroll]
    cases kind : token.kind
    case ifWord => exact .conditional kind (chain_inner given token ⟨rest, token.span.stop⟩)
    case whileWord => exact .loop kind rfl (given (body _))
    case consoleWord => exact .console kind
    case leftBrace => exact .block kind (given (braced token _))
    all_goals exact .assignment (by simp [Cursor.kind, Cursor.peek, kind])

theorem step_unroll_branches (cursor : Cursor) :
    BranchesStep Given cursor (unroll inner (branches cursor)) := by
  rw [unroll]
  split
  · rename_i ahead
    refine .absent ?_
    rw [ahead]
    exact show TokenKind.endOfInput ∉ _ by decide
  · rename_i word rest last ahead
    dsimp only
    split
    · rename_i kind
      exact .further (.elseif ahead kind) (chain_inner given word _)
    · rename_i kind
      split
      · rename_i next
        exact .further (.elseIf ahead kind next) (chain_inner given _ _)
      · rename_i apart
        exact .otherwise ahead kind apart (given (body _))
    · rename_i not_elseif not_else
      refine .absent ?_
      rw [ahead]
      simpa using ⟨not_elseif, not_else⟩

theorem step_unroll_body (cursor : Cursor) :
    BodyStep Given cursor (unroll inner (body cursor)) := by
  obtain ⟨rest, last⟩ := cursor
  cases rest with
  | nil => exact .missing rfl
  | cons token rest =>
    rw [unroll]
    split
    · rename_i kind
      exact .block kind (given (braced token _))
    · split
      · rename_i ends
        exact .missing ends
      · rename_i starts
        exact .single (Bool.eq_false_iff.2 starts) (given (statement _))

theorem step_unroll_statements (inBraces : Bool) (cursor : Cursor) :
    StatementsStep Given inBraces cursor (unroll inner (statements inBraces cursor)) := by
  obtain ⟨rest, last⟩ := cursor
  cases rest with
  | nil => exact .ended (.inl rfl)
  | cons token rest =>
    rw [unroll]
    split
    · rename_i ends
      exact .ended ends
    · rename_i ongoing
      exact .more ongoing (given (statement _)) (given (statements inBraces _))

/-- One level of calls is a step of the reader that is called. -/
theorem step_unroll (call : StatementCall) : Step Given call (unroll inner call) := by
  cases call with
  | statement cursor => exact step_unroll_statement given cursor
  | branch word cursor => exact .guarded (given (body _))
  | branches cursor => exact step_unroll_branches given cursor
  | body cursor => exact step_unroll_body given cursor
  | braced brace cursor => exact .closed (given (statements true _)) rfl
  | statements inBraces cursor => exact step_unroll_statements given inBraces cursor

end Unrolling

/-- What holds of a guess and is kept by every step holds of what is read. -/
theorem read_induction {motive : (call : StatementCall) → Parsed call.Result → Prop}
    (guess : Reader) (base : ∀ call, motive call (guess call))
    (step : ∀ call parsed, Step motive call parsed → motive call parsed) (call : StatementCall) :
    motive call call.read := by
  have kept (depth : Nat) : ∀ call, motive call (unrolled guess depth call) := by
    induction depth with
    | zero => exact base
    | succ depth ih => exact fun call => step call _ (step_unroll ih call)
  rw [← unrolled_eq_read guess (Nat.lt_succ_self call.measure)]
  exact kept _ call

end StatementCall

end ConsoleScript
