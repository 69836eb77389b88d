import ConsoleScript.Proofs.ExpressionReading
import ConsoleScript.Parsing.Program

/-! # Calls of the readers

The readers call each other: an expression is read by its operands, a statement by its blocks, and
so on. Here these calls are laid open.

* **`ExpressionCall`**, **`StatementCall`** — the calls of the readers, each with what it is made
  with, and a measure: three times the tokens that are left, and a rank for calls that are made
  without consuming one;
* **`unroll`** — one level of calls: a reader does its own work and leaves every call that it makes
  to a given reader;
* **`unroll_eq_read`**, **`unrolled_eq_read`** — a call makes calls of smaller measure only, so
  unrolling deep enough gives what is read, whatever stands in place of deeper calls;
* **`Parsing.readBy_unrolled`** — and so for a whole list of tokens. -/

namespace ConsoleScript

/-! ## Calls of the readers of expressions -/

/-- A call of a reader of expressions. -/
inductive ExpressionCall where
  /-- An expression above a floor. -/
  | expression (floor : Nat) (cursor : Cursor)
  /-- What continues an operand above a floor. -/
  | continuation (floor : Nat) (left : Expr) (cursor : Cursor)
  /-- An operand. -/
  | operand (cursor : Cursor)

namespace ExpressionCall

/-- Where a call begins to read. -/
def cursor : ExpressionCall → Cursor
  | expression _ cursor | continuation _ _ cursor | operand cursor => cursor

/-- What a call reads. -/
def read : ExpressionCall → Parsed (Option Expr)
  | expression floor cursor => cursor.expression floor
  | continuation floor left cursor => cursor.continuation floor left
  | operand cursor => cursor.operand

/-- How deep a call can lead: an expression begins with its operand at the same cursor, and every
other call is made behind a token. -/
def measure : ExpressionCall → Nat
  | expression _ cursor => 3 * cursor.size + 2
  | continuation _ _ cursor => 3 * cursor.size + 1
  | operand cursor => 3 * cursor.size

/-- What a call reads if the calls that it makes are left to `inner`. -/
def unroll (inner : ExpressionCall → Parsed (Option Expr)) :
    ExpressionCall → Parsed (Option Expr)
  | expression floor cursor =>
    let first := inner (operand cursor)
    match first.value with
    | none => ⟨none, first.cursor, first.findings⟩
    | some left =>
      let whole := inner (continuation floor left first.cursor)
      ⟨whole.value, whole.cursor, first.findings ++ whole.findings⟩
  | continuation _ left ⟨[], last⟩ => ⟨some left, ⟨[], last⟩, []⟩
  | continuation floor left ⟨sign :: rest, last⟩ =>
    if sign.kind.strength ≤ floor then ⟨some left, ⟨sign :: rest, last⟩, []⟩
    else
      let right :=
        inner (expression sign.kind.rightFloor (Cursor.mk rest sign.span.stop).skipNewlines)
      match right.value with
      | none =>
        ⟨none, right.cursor, right.findings ++ [⟨.expectedExpressionAfter sign.lexeme
          right.cursor.peek.description, right.cursor.peek.span⟩]⟩
      | some second =>
        let whole := inner (continuation floor (.binary ⟨left.span.start, second.span.stop⟩
          (.ofKind sign.kind) left second) right.cursor)
        ⟨whole.value, whole.cursor, right.findings ++ whole.findings⟩
  | operand ⟨[], last⟩ => ⟨none, ⟨[], last⟩, []⟩
  | operand ⟨token :: rest, last⟩ =>
    let behind := Cursor.mk rest token.span.stop
    match token.kind with
    | .number =>
      ⟨some (.number token.span (literalValue token.lexeme)), behind,
        if acceptsLiteral token.lexeme then []
        else [⟨.invalidNumber token.lexeme, token.span⟩]⟩
    | .text => ⟨some (.text token.span token.lexeme), behind, []⟩
    | .trueWord => ⟨some (.boolean token.span true), behind, []⟩
    | .falseWord => ⟨some (.boolean token.span false), behind, []⟩
    | .nilWord => ⟨some (.nil token.span), behind, []⟩
    | .name => ⟨some (.name token.span token.lexeme), behind, []⟩
    | .minus | .bang =>
      let signed := inner (expression TokenKind.unaryStrength behind)
      match signed.value with
      | none =>
        ⟨none, signed.cursor, signed.findings
          ++ [⟨.expectedOperand token.lexeme, signed.cursor.peek.span⟩]⟩
      | some expr =>
        ⟨some (.unary ⟨token.span.start, signed.cursor.last⟩ (.ofKind token.kind) expr),
          signed.cursor, signed.findings⟩
    | .leftParen =>
      let enclosed := (inner (expression 0 behind.skipNewlines)).required behind.skipNewlines
      match enclosed.value with
      | none => ⟨none, enclosed.cursor, enclosed.findings⟩
      | some expr =>
        let close := enclosed.cursor.skipNewlines.expect .rightParen
        ⟨some (.paren ⟨token.span.start, close.cursor.last⟩ expr), close.cursor,
          enclosed.findings ++ close.findings⟩
    | _ => ⟨none, ⟨token :: rest, last⟩, []⟩

/-- What a call reads if its calls are unrolled `depth` levels deep, and `guess` stands in place of
every deeper one. -/
def unrolled (guess : ExpressionCall → Parsed (Option Expr)) :
    Nat → ExpressionCall → Parsed (Option Expr)
  | 0 => guess
  | depth + 1 => unroll (unrolled guess depth)

/-- A reader gives what is read at every call of a measure below a bound. -/
def AgreesBelow (bound : Nat) (inner : ExpressionCall → Parsed (Option Expr)) : Prop :=
  ∀ call, call.measure < bound → inner call = call.read

section Agreement

variable {inner : ExpressionCall → Parsed (Option Expr)}

/-- What continues an operand is read behind it, and an operand costs a token. -/
theorem unroll_expression {floor : Nat} {cursor : Cursor}
    (smaller : AgreesBelow (expression floor cursor).measure inner) :
    unroll inner (expression floor cursor) = cursor.expression floor := by
  have first : inner (operand cursor) = cursor.operand :=
    smaller (operand cursor) (by simp only [measure]; omega)
  simp only [unroll, Cursor.expression_eq, first]
  cases found : cursor.operand.value with
  | none => rfl
  | some left =>
    have shorter : cursor.operand.cursor.size < cursor.size :=
      cursor.operandStep.2.2 (Option.isSome_of_eq_some found)
    have whole : inner (continuation floor left cursor.operand.cursor)
        = cursor.operand.cursor.continuation floor left :=
      smaller (continuation floor left cursor.operand.cursor) (by simp only [measure]; omega)
    simp only [whole]

/-- A right operand is read behind its operator. -/
theorem unroll_continuation {floor : Nat} {left : Expr} {cursor : Cursor}
    (smaller : AgreesBelow (continuation floor left cursor).measure inner) :
    unroll inner (continuation floor left cursor) = cursor.continuation floor left := by
  obtain ⟨rest, last⟩ := cursor
  cases rest with
  | nil => simp only [unroll, Cursor.continuation_nil]
  | cons sign rest =>
    simp only [unroll, Cursor.continuation_cons]
    split
    · rfl
    · have fewer := Cursor.size_skipNewlines_le ⟨rest, sign.span.stop⟩
      generalize (Cursor.mk rest sign.span.stop).skipNewlines = behind at fewer ⊢
      change behind.size ≤ rest.length at fewer
      have right : inner (expression sign.kind.rightFloor behind)
          = behind.expression sign.kind.rightFloor :=
        smaller (expression sign.kind.rightFloor behind)
          (by simp only [measure, Cursor.size_mk, List.length_cons]; omega)
      have moved := (behind.advances_expression sign.kind.rightFloor).1
      rw [right]
      cases found : (behind.expression sign.kind.rightFloor).value with
      | none => rfl
      | some second =>
        have whole := smaller (continuation floor (.binary ⟨left.span.start, second.span.stop⟩
          (.ofKind sign.kind) left second) (behind.expression sign.kind.rightFloor).cursor)
          (by simp only [measure, Cursor.size_mk, List.length_cons]; omega)
        dsimp only
        rw [whole, read]

/-- What an operand nests is read behind its first token, whatever line breaks are skipped. -/
theorem unroll_operand {cursor : Cursor} (smaller : AgreesBelow (operand cursor).measure inner) :
    unroll inner (operand cursor) = cursor.operand := by
  obtain ⟨rest, last⟩ := cursor
  cases rest with
  | nil => simp only [unroll, Cursor.operand_nil]
  | cons token rest =>
    have nested (floor : Nat) (behind : Cursor) (fewer : behind.size ≤ rest.length) :
        inner (expression floor behind) = behind.expression floor :=
      smaller (expression floor behind)
        (by simp only [measure, Cursor.size_mk, List.length_cons]; omega)
    have signed := nested TokenKind.unaryStrength ⟨rest, token.span.stop⟩ (Nat.le_refl _)
    have enclosed := nested 0 (Cursor.mk rest token.span.stop).skipNewlines
      (Cursor.size_skipNewlines_le _)
    simp only [unroll, Cursor.operand_cons, signed, enclosed]
    rfl

/-- A call that makes calls of smaller measure only reads the same as long as these do. -/
theorem unroll_eq_read {call : ExpressionCall} (smaller : AgreesBelow call.measure inner) :
    unroll inner call = call.read := by
  cases call with
  | expression floor cursor => exact unroll_expression smaller
  | continuation floor left cursor => exact unroll_continuation smaller
  | operand cursor => exact unroll_operand smaller

end Agreement

/-- Unrolling deeper than the measure of a call gives what it reads: no guess is ever looked at. -/
theorem unrolled_eq_read (guess : ExpressionCall → Parsed (Option Expr)) {depth : Nat}
    {call : ExpressionCall} (deep : call.measure < depth) :
    unrolled guess depth call = call.read := by
  induction depth generalizing call with
  | zero => exact absurd deep (Nat.not_lt_zero _)
  | succ depth ih =>
    rw [unrolled]
    exact unroll_eq_read fun other less => ih (Nat.lt_of_lt_of_le less (Nat.le_of_lt_succ deep))

end ExpressionCall

/-! ## Calls of the readers of statements -/

/-- A call of a reader of statements. -/
inductive StatementCall where
  /-- A statement. -/
  | statement (cursor : Cursor)
  /-- A condition and a body behind the word that opens a branch. -/
  | branch (word : Token) (cursor : Cursor)
  /-- The further branches of a conditional and its last block. -/
  | branches (cursor : Cursor)
  /-- The body of a branch or loop. -/
  | body (cursor : Cursor)
  /-- A block behind its opening brace. -/
  | braced (brace : Token) (cursor : Cursor)
  /-- Statements up to the end of input or, inside braces, up to a closing brace. -/
  | statements (inBraces : Bool) (cursor : Cursor)

namespace StatementCall

/-- What kind of thing a call reads. -/
abbrev Result : StatementCall → Type
  | statement _ => Option Stmt
  | branch _ _ => Branch
  | branches _ => List Branch × Block
  | body _ => Block
  | braced _ _ => Span × List Stmt
  | statements _ _ => List Stmt

/-- Readers for all calls. -/
abbrev Reader : Type :=
  (call : StatementCall) → Parsed call.Result

/-- Where a call begins to read. -/
def cursor : StatementCall → Cursor
  | statement cursor | branch _ cursor | branches cursor | body cursor | braced _ cursor
  | statements _ cursor => cursor

/-- What a call reads. -/
def read : Reader
  | statement cursor => cursor.statement
  | branch word cursor => cursor.branch word
  | branches cursor => cursor.branches
  | body cursor => cursor.body
  | braced brace cursor => cursor.braced brace
  | statements inBraces cursor => cursor.statements inBraces

/-- How deep a call can lead: a branch without a condition reads its body at the same cursor, a body
its statement, and every other call is made behind a token. -/
def measure : StatementCall → Nat
  | statement cursor | branches cursor => 3 * cursor.size
  | body cursor | statements _ cursor => 3 * cursor.size + 1
  | branch _ cursor | braced _ cursor => 3 * cursor.size + 2

/-- What a call reads if the calls that it makes are left to `inner`. -/
def unroll (inner : Reader) : Reader
  | statement ⟨[], last⟩ => Cursor.assignment ⟨[], last⟩
  | statement ⟨token :: rest, last⟩ =>
    let behind := Cursor.mk rest token.span.stop
    match token.kind with
    | .ifWord =>
      let first := inner (branch token behind)
      let others := inner (branches first.cursor)
      ⟨some (.conditional (others.cursor.spanFrom token.span.start)
        (first.value :: others.value.1) others.value.2),
        others.cursor, first.findings ++ others.findings⟩
    | .whileWord =>
      let condition := behind.requiredExpression
      let repeated := inner (body condition.cursor)
      ⟨some (.loop (repeated.cursor.spanFrom token.span.start) (condition.value.getD .missing)
          repeated.value),
        repeated.cursor,
        condition.findings ++ Cursor.loopWarnings token condition.value ++ repeated.findings⟩
    | .consoleWord => behind.consoleStatement token
    | .leftBrace =>
      let block := inner (braced token behind)
      ⟨some (.block block.value.1 block.value.2), block.cursor, block.findings⟩
    | _ => Cursor.assignment ⟨token :: rest, last⟩
  | branch word cursor =>
    let condition := cursor.requiredExpression
    let guarded := inner (body condition.cursor)
    ⟨.mk (guarded.cursor.spanFrom word.span.start) (condition.value.getD .missing) guarded.value,
      guarded.cursor, condition.findings ++ guarded.findings⟩
  | branches cursor =>
    match cursor.skipNewlines with
    | ⟨[], _⟩ => ⟨([], .absent), cursor, []⟩
    | ⟨word :: rest, _⟩ =>
      let behind := Cursor.mk rest word.span.stop
      match word.kind with
      | .elseifWord =>
        let first := inner (branch word behind)
        let others := inner (branches first.cursor)
        ⟨(first.value :: others.value.1, others.value.2), others.cursor,
          first.findings ++ others.findings⟩
      | .elseWord =>
        if behind.kind = .ifWord then
          let first := inner (branch behind.peek behind.advance)
          let others := inner (branches first.cursor)
          ⟨(first.value :: others.value.1, others.value.2), others.cursor,
            first.findings ++ others.findings⟩
        else
          let last := inner (body behind)
          ⟨([], last.value), last.cursor, last.findings⟩
      | _ => ⟨([], .absent), cursor, []⟩
  | body ⟨[], last⟩ =>
    ⟨.present Token.pastEnd.span [], ⟨[], last⟩,
      [⟨.expectedBody Token.pastEnd.description, Token.pastEnd.span⟩]⟩
  | body ⟨token :: rest, last⟩ =>
    if token.kind = .leftBrace then
      let block := inner (braced token ⟨rest, token.span.stop⟩)
      ⟨.present block.value.1 block.value.2, block.cursor, block.findings⟩
    else if Cursor.endsBody token.kind then
      ⟨.present token.span [], ⟨token :: rest, last⟩,
        [⟨.expectedBody token.description, token.span⟩]⟩
    else
      let stmt := inner (statement ⟨token :: rest, last⟩)
      ⟨.present (stmt.cursor.spanFrom token.span.start) stmt.value.toList, stmt.cursor,
        stmt.findings⟩
  | braced brace cursor =>
    let inside := inner (statements true cursor.skipSeparators)
    let close := inside.cursor.expect .rightBrace
    ⟨(close.cursor.spanFrom brace.span.start, inside.value), close.cursor,
      inside.findings ++ close.findings⟩
  | statements _ ⟨[], last⟩ => ⟨[], ⟨[], last⟩, []⟩
  | statements inBraces ⟨token :: rest, last⟩ =>
    if token.kind = .endOfInput ∨ (inBraces = true ∧ token.kind = .rightBrace) then
      ⟨[], ⟨token :: rest, last⟩, []⟩
    else
      let stmt := inner (statement ⟨token :: rest, last⟩)
      let others := inner (statements inBraces stmt.cursor.skipSeparators)
      ⟨stmt.value.toList ++ others.value, others.cursor, stmt.findings ++ others.findings⟩

/-- The reader that stays where it is and finds nothing. -/
def idle : Reader
  | statement cursor => ⟨none, cursor, []⟩
  | branch _ cursor => ⟨.mk .unset .missing (.present .unset []), cursor, []⟩
  | branches cursor => ⟨([], .absent), cursor, []⟩
  | body cursor => ⟨.present .unset [], cursor, []⟩
  | braced _ cursor => ⟨(.unset, []), cursor, []⟩
  | statements _ cursor => ⟨[], cursor, []⟩

@[simp] theorem cursor_idle (call : StatementCall) : (idle call).cursor = call.cursor := by
  cases call <;> rfl

/-- What a call reads if its calls are unrolled `depth` levels deep, and `guess` stands in place of
every deeper one. -/
def unrolled (guess : Reader) : Nat → Reader
  | 0 => guess
  | depth + 1 => unroll (unrolled guess depth)

/-- A reader gives what is read at every call of a measure below a bound. -/
def AgreesBelow (bound : Nat) (inner : Reader) : Prop :=
  ∀ call, call.measure < bound → inner call = call.read

section Agreement

variable {inner : Reader}

/-- Whatever a statement nests is read behind its first token. -/
theorem unroll_statement {cursor : Cursor}
    (smaller : AgreesBelow (statement cursor).measure inner) :
    unroll inner (statement cursor) = cursor.statement := by
  obtain ⟨rest, last⟩ := cursor
  cases rest with
  | nil => simp only [unroll, Cursor.statement_nil]
  | cons token rest =>
    let behind := Cursor.mk rest token.span.stop
    have nested : ∀ call : StatementCall, call.measure ≤ 3 * rest.length + 2 →
        inner call = call.read :=
      fun call less => smaller call (Nat.lt_of_le_of_lt less (Nat.lt_succ_self _))
    have first : inner (branch token behind) = behind.branch token :=
      nested (branch token behind) (Nat.le_refl _)
    have fewer : (behind.branch token).cursor.size ≤ rest.length :=
      Cursor.size_branch_le token behind
    have others : inner (branches (behind.branch token).cursor)
        = (behind.branch token).cursor.branches :=
      nested (branches (behind.branch token).cursor) (by simp only [measure]; omega)
    have tested : behind.requiredExpression.cursor.size ≤ rest.length :=
      Cursor.size_requiredExpression_le behind
    have repeated := nested (body behind.requiredExpression.cursor)
      (by simp only [measure]; omega)
    have block := nested (braced token behind) (Nat.le_refl _)
    rw [Cursor.statement_cons, unroll]
    dsimp only
    rw [first, others, repeated, block]
    rfl

/-- The body of a branch is read behind the condition. -/
theorem unroll_branch {word : Token} {cursor : Cursor}
    (smaller : AgreesBelow (branch word cursor).measure inner) :
    unroll inner (branch word cursor) = cursor.branch word := by
  have fewer := Cursor.size_requiredExpression_le cursor
  have guarded : inner (body cursor.requiredExpression.cursor)
      = cursor.requiredExpression.cursor.body :=
    smaller (body cursor.requiredExpression.cursor) (by simp only [measure]; omega)
  simp only [unroll, Cursor.branch_eq, guarded]

/-- A further branch is read behind the word that opens it, and what is further to it behind the
branch. -/
theorem unroll_branches {cursor : Cursor} (smaller : AgreesBelow (branches cursor).measure inner) :
    unroll inner (branches cursor) = cursor.branches := by
  rw [Cursor.branches_eq, unroll]
  have fewer := Cursor.size_skipNewlines_le cursor
  generalize cursor.skipNewlines = ahead at fewer ⊢
  obtain ⟨rest, last⟩ := ahead
  cases rest with
  | nil => rfl
  | cons word rest =>
    let behind := Cursor.mk rest word.span.stop
    have nested : ∀ call : StatementCall, call.measure ≤ 3 * rest.length + 2 →
        inner call = call.read := by
      intro call less
      rw [Cursor.size_mk, List.length_cons] at fewer
      refine smaller call (Nat.lt_of_le_of_lt less ?_)
      show 3 * rest.length + 2 < 3 * cursor.size
      omega
    have chain (opening : Token) (start : Cursor) (within : start.size ≤ rest.length) :
        inner (branch opening start) = start.branch opening ∧
          inner (branches (start.branch opening).cursor)
            = (start.branch opening).cursor.branches := by
      have shorter := Cursor.size_branch_le opening start
      exact ⟨nested (branch opening start) (by simp only [measure]; omega),
        nested (branches (start.branch opening).cursor) (by simp only [measure]; omega)⟩
    have first := chain word behind (Nat.le_refl _)
    have second := chain behind.peek behind.advance (Cursor.size_advance_le behind)
    have final := nested (body behind) (Nat.le_succ _)
    dsimp only
    rw [first.1, first.2, second.1, second.2, final]
    rfl

/-- A body is a block behind its brace, or a statement, which has the smaller rank. -/
theorem unroll_body {cursor : Cursor} (smaller : AgreesBelow (body cursor).measure inner) :
    unroll inner (body cursor) = cursor.body := by
  obtain ⟨rest, last⟩ := cursor
  cases rest with
  | nil => simp only [unroll, Cursor.body_nil]
  | cons token rest =>
    have block : inner (braced token ⟨rest, token.span.stop⟩)
        = (Cursor.mk rest token.span.stop).braced token :=
      smaller (braced token ⟨rest, token.span.stop⟩)
        (by simp only [measure, Cursor.size_mk, List.length_cons]; omega)
    have single : inner (statement ⟨token :: rest, last⟩)
        = Cursor.statement ⟨token :: rest, last⟩ :=
      smaller (statement ⟨token :: rest, last⟩) (by simp only [measure]; omega)
    simp only [unroll, Cursor.body_cons, block, single]

/-- The statements of a block have a smaller rank than the block. -/
theorem unroll_braced {brace : Token} {cursor : Cursor}
    (smaller : AgreesBelow (braced brace cursor).measure inner) :
    unroll inner (braced brace cursor) = cursor.braced brace := by
  have fewer := Cursor.size_skipSeparators_le cursor
  have inside : inner (statements true cursor.skipSeparators)
      = cursor.skipSeparators.statements true :=
    smaller (statements true cursor.skipSeparators) (by simp only [measure]; omega)
  simp only [unroll, Cursor.braced_eq, inside]

/-- Further statements are read behind the first one, which costs a token. -/
theorem unroll_statements {inBraces : Bool} {cursor : Cursor}
    (smaller : AgreesBelow (statements inBraces cursor).measure inner) :
    unroll inner (statements inBraces cursor) = cursor.statements inBraces := by
  obtain ⟨rest, last⟩ := cursor
  cases rest with
  | nil => simp only [unroll, Cursor.statements_nil]
  | cons token rest =>
    have first : inner (statement ⟨token :: rest, last⟩)
        = Cursor.statement ⟨token :: rest, last⟩ :=
      smaller (statement ⟨token :: rest, last⟩) (by simp only [measure]; omega)
    have shorter := (Cursor.consumes_statement ⟨token :: rest, last⟩).2 (Nat.succ_pos _)
    have fewer := Cursor.size_skipSeparators_le (Cursor.statement ⟨token :: rest, last⟩).cursor
    have others := smaller
      (statements inBraces (Cursor.statement ⟨token :: rest, last⟩).cursor.skipSeparators)
      (by simp only [measure]; omega)
    rw [Cursor.statements_cons, unroll]
    dsimp only
    rw [first, others]
    rfl

/-- A call makes calls of smaller measure only, so it reads the same if these do. -/
theorem unroll_eq_read {call : StatementCall} (smaller : AgreesBelow call.measure inner) :
    unroll inner call = call.read := by
  cases call with
  | statement cursor => exact unroll_statement smaller
  | branch word cursor => exact unroll_branch smaller
  | branches cursor => exact unroll_branches smaller
  | body cursor => exact unroll_body smaller
  | braced brace cursor => exact unroll_braced smaller
  | statements inBraces cursor => exact unroll_statements smaller

end Agreement

/-- Unrolling deeper than the measure of a call gives what it reads: no guess is ever looked at. -/
theorem unrolled_eq_read (guess : Reader) {depth : Nat} {call : StatementCall}
    (deep : call.measure < depth) : unrolled guess depth call = call.read := by
  induction depth generalizing call with
  | zero => exact absurd deep (Nat.not_lt_zero _)
  | succ depth ih =>
    rw [unrolled]
    exact unroll_eq_read fun other less => ih (Nat.lt_of_lt_of_le less (Nat.le_of_lt_succ deep))

end StatementCall

/-- Reads a list of tokens, its statements being read by the given reader. -/
def Parsing.readBy (reader : StatementCall.Reader) (tokens : List Token) : Parsing :=
  let start := Cursor.ofTokens tokens
  let stmts := reader (.statements false start.skipSeparators)
  { program := ⟨⟨start.peek.span.start, stmts.cursor.peek.span.stop⟩, stmts.value⟩
    findings := stmts.findings }

/-- A list of tokens is read by unrolling the calls three levels deep for each token. -/
theorem Parsing.readBy_unrolled (guess : StatementCall.Reader) {tokens : List Token} {depth : Nat}
    (deep : 3 * tokens.length + 1 < depth) :
    readBy (StatementCall.unrolled guess depth) tokens = read tokens := by
  have fewer : (Cursor.ofTokens tokens).skipSeparators.size ≤ tokens.length :=
    Cursor.size_skipSeparators_le _
  have within : (StatementCall.statements false
      (Cursor.ofTokens tokens).skipSeparators).measure < depth := by
    simp only [StatementCall.measure]
    omega
  rw [readBy, StatementCall.unrolled_eq_read guess within]
  rfl

end ConsoleScript
