import ConsoleScript.Parsing.Expression

/-! # Reading statements

Statements are read by their first token: `if`, `while`, `console`, an opening brace, or else an
assignment. The body of a branch or loop is a braced block or a single statement. An erroneous
statement is reported and left out, and reading goes on at the next likely beginning of one.

As with expressions, every step carries the proof that no token is put back; a statement costs at
least one token unless none is left. The readers without the proofs are `Cursor.statement`,
`Cursor.statements` and their companions. -/

namespace ConsoleScript

namespace Parsed

/-- No token was put back, and at least one was consumed if there was any. -/
def Consumes {α : Type} (start : Cursor) (parsed : Parsed α) : Prop :=
  parsed.cursor.size ≤ start.size ∧ (0 < start.size → parsed.cursor.size < start.size)

end Parsed

namespace Cursor

/-- The place from `start` to the end of the last consumed token. -/
def spanFrom (cursor : Cursor) (start : Position) : Span :=
  ⟨start, cursor.last⟩

/-- Reads a console statement behind its word. -/
def consoleStatement (word : Token) (cursor : Cursor) : Parsed (Option Stmt) :=
  let value := cursor.requiredExpression
  match value.value with
  | none => ⟨none, value.cursor.synchronize, value.findings⟩
  | some expr =>
    ⟨some (.console (value.cursor.spanFrom word.span.start) expr), value.cursor, value.findings⟩

/-- Reads the right side of an assignment that begins at `start`. -/
def assignedValue (start : Position) (name : Bytes) (cursor : Cursor) : Parsed (Option Stmt) :=
  let value := cursor.requiredExpression
  match value.value with
  | none => ⟨none, value.cursor.synchronize, value.findings⟩
  | some expr =>
    ⟨some (.assign (value.cursor.spanFrom start) name expr), value.cursor, value.findings⟩

/-- Reads an assignment: an expression that has to be a name, the sign, and the value. -/
def assignment (cursor : Cursor) : Parsed (Option Stmt) :=
  let target := cursor.expression 0
  match target.value with
  | none =>
    ⟨none, target.cursor.advance.synchronize, target.findings
      ++ [⟨.unexpectedToken cursor.peek.description, cursor.peek.span⟩]⟩
  | some expr =>
    if target.cursor.kind = .assign then
      match expr with
      | .name _ name =>
        let value := target.cursor.advance.assignedValue cursor.peek.span.start name
        { value with findings := target.findings ++ value.findings }
      | _ =>
        ⟨none, target.cursor.advance.synchronize, target.findings ++ [⟨.invalidTarget, expr.span⟩]⟩
    else
      ⟨none, target.cursor.synchronize, target.findings ++ [⟨.expressionStatement, expr.span⟩]⟩

theorem size_consoleStatement_le (word : Token) (cursor : Cursor) :
    (cursor.consoleStatement word).cursor.size ≤ cursor.size := by
  unfold consoleStatement
  dsimp only
  split
  · exact Nat.le_trans (size_synchronize_le _) (size_requiredExpression_le cursor)
  · exact size_requiredExpression_le cursor

theorem size_assignedValue_le (start : Position) (name : Bytes) (cursor : Cursor) :
    (cursor.assignedValue start name).cursor.size ≤ cursor.size := by
  unfold assignedValue
  dsimp only
  split
  · exact Nat.le_trans (size_synchronize_le _) (size_requiredExpression_le cursor)
  · exact size_requiredExpression_le cursor

theorem size_advance_lt (cursor : Cursor) (some_left : 0 < cursor.size) :
    cursor.advance.size < cursor.size := by
  obtain ⟨rest, last⟩ := cursor
  cases rest with
  | nil => simp at some_left
  | cons token rest => simp

theorem consumes_assignment (cursor : Cursor) : cursor.assignment.Consumes cursor := by
  have moved := cursor.advances_expression 0
  unfold assignment
  dsimp only
  split
  · refine ⟨Nat.le_trans (size_synchronize_le _) (Nat.le_trans (size_advance_le _) moved.1), ?_⟩
    intro some_left
    refine Nat.lt_of_le_of_lt (size_synchronize_le _) ?_
    by_cases left : 0 < (cursor.expression 0).cursor.size
    · exact Nat.lt_of_lt_of_le (size_advance_lt _ left) moved.1
    · exact Nat.lt_of_le_of_lt (size_advance_le _) (by omega)
  · rename_i expr found
    have shorter := moved.2 (by simp [found])
    have enough : ∀ behind : Cursor, behind.size ≤ (cursor.expression 0).cursor.size →
        behind.size ≤ cursor.size ∧ (0 < cursor.size → behind.size < cursor.size) :=
      fun behind le => ⟨by omega, fun _ => by omega⟩
    split
    · split
      · exact enough _ (Nat.le_trans (size_assignedValue_le _ _ _) (size_advance_le _))
      · exact enough _ (Nat.le_trans (size_synchronize_le _) (size_advance_le _))
    · exact enough _ (size_synchronize_le _)

/-- Whether no statement can start with a kind, so that a body without braces is missing. -/
def endsBody (kind : TokenKind) : Bool :=
  isSeparator kind || kind == .endOfInput || kind == .rightBrace

/-- The warning about a loop whose condition is the literal for truth. -/
def loopWarnings (word : Token) : Option Expr → List Finding
  | some (.boolean span true) => [⟨.endlessLoop, word.span.join span⟩]
  | _ => []

mutual

/-- Reads a statement; no value means that it was erroneous and left out. -/
def statementStep (cursor : Cursor) :
    { parsed : Parsed (Option Stmt) // parsed.Consumes cursor } :=
  match cursor with
  | ⟨[], last⟩ => ⟨assignment ⟨[], last⟩, consumes_assignment _⟩
  | ⟨token :: rest, last⟩ =>
    let behind := Cursor.mk rest token.span.stop
    have shorter : behind.size < (token :: rest).length := Nat.lt_succ_self _
    let paid {parsed : Parsed (Option Stmt)} (le : parsed.cursor.size ≤ behind.size) :
        parsed.Consumes ⟨token :: rest, last⟩ :=
      ⟨Nat.le_of_lt (Nat.lt_of_le_of_lt le shorter), fun _ => Nat.lt_of_le_of_lt le shorter⟩
    match token.kind with
    | .ifWord =>
      let branch := branchStep token behind
      let others := branchesStep branch.1.cursor
      ⟨⟨some (.conditional (others.1.cursor.spanFrom token.span.start)
          (branch.1.value :: others.1.value.1) others.1.value.2),
        others.1.cursor, branch.1.findings ++ others.1.findings⟩,
        paid (Nat.le_trans others.2 branch.2)⟩
    | .whileWord =>
      let condition := behind.requiredExpression
      have le : condition.cursor.size ≤ behind.size := size_requiredExpression_le behind
      let body := bodyStep condition.cursor
      ⟨⟨some (.loop (body.1.cursor.spanFrom token.span.start) (condition.value.getD .missing)
          body.1.value),
        body.1.cursor,
        condition.findings ++ loopWarnings token condition.value ++ body.1.findings⟩,
        paid (Nat.le_trans body.2 le)⟩
    | .consoleWord => ⟨behind.consoleStatement token, paid (size_consoleStatement_le token behind)⟩
    | .leftBrace =>
      let block := bracedStep token behind
      ⟨⟨some (.block block.1.value.1 block.1.value.2), block.1.cursor, block.1.findings⟩,
        paid block.2⟩
    | _ => ⟨assignment ⟨token :: rest, last⟩, consumes_assignment _⟩
termination_by (cursor.size, 1)
decreasing_by
  · exact Prod.Lex.left _ _ shorter
  · exact Prod.Lex.left _ _ (Nat.lt_of_le_of_lt branch.2 shorter)
  · exact Prod.Lex.left _ _ (Nat.lt_of_le_of_lt le shorter)
  · exact Prod.Lex.left _ _ shorter

/-- Reads the condition and the body of a branch behind the word that opens it. -/
def branchStep (word : Token) (cursor : Cursor) :
    { parsed : Parsed Branch // parsed.cursor.size ≤ cursor.size } :=
  let condition := cursor.requiredExpression
  have le : condition.cursor.size ≤ cursor.size := size_requiredExpression_le cursor
  let body := bodyStep condition.cursor
  ⟨⟨.mk (body.1.cursor.spanFrom word.span.start) (condition.value.getD .missing) body.1.value,
    body.1.cursor, condition.findings ++ body.1.findings⟩, Nat.le_trans body.2 le⟩
termination_by (cursor.size, 3)
decreasing_by
  · rcases Nat.lt_or_eq_of_le le with less | same
    · exact Prod.Lex.left _ _ less
    · rw [same]; exact Prod.Lex.right _ (by omega)

/-- Reads the further branches of a conditional and its last block. Line breaks before the word that
opens one are skipped, but stay if no such word follows. -/
def branchesStep (cursor : Cursor) :
    { parsed : Parsed (List Branch × Block) // parsed.cursor.size ≤ cursor.size } :=
  match ahead : cursor.skipNewlines with
  | ⟨[], _⟩ => ⟨⟨([], .absent), cursor, []⟩, Nat.le_refl _⟩
  | ⟨word :: rest, _⟩ =>
    have shorter : rest.length < cursor.size := by
      have le := size_skipNewlines_le cursor
      rw [ahead] at le
      exact Nat.lt_of_succ_le le
    let behind := Cursor.mk rest word.span.stop
    match word.kind with
    | .elseifWord =>
      let branch := branchStep word behind
      have less : branch.1.cursor.size < cursor.size := Nat.lt_of_le_of_lt branch.2 shorter
      let others := branchesStep branch.1.cursor
      ⟨⟨(branch.1.value :: others.1.value.1, others.1.value.2), others.1.cursor,
        branch.1.findings ++ others.1.findings⟩,
        Nat.le_trans others.2 (Nat.le_of_lt less)⟩
    | .elseWord =>
      if behind.kind = .ifWord then
        let branch := branchStep behind.peek behind.advance
        have less : branch.1.cursor.size < cursor.size :=
          Nat.lt_of_le_of_lt (Nat.le_trans branch.2 (size_advance_le behind)) shorter
        let others := branchesStep branch.1.cursor
        ⟨⟨(branch.1.value :: others.1.value.1, others.1.value.2), others.1.cursor,
          branch.1.findings ++ others.1.findings⟩,
          Nat.le_trans others.2 (Nat.le_of_lt less)⟩
      else
        let body := bodyStep behind
        ⟨⟨([], body.1.value), body.1.cursor, body.1.findings⟩,
          Nat.le_trans body.2 (Nat.le_of_lt shorter)⟩
    | _ => ⟨⟨([], .absent), cursor, []⟩, Nat.le_refl _⟩
termination_by (cursor.size, 0)
decreasing_by
  · exact Prod.Lex.left _ _ shorter
  · exact Prod.Lex.left _ _ less
  · exact Prod.Lex.left _ _ (Nat.lt_of_le_of_lt (size_advance_le behind) shorter)
  · exact Prod.Lex.left _ _ less
  · exact Prod.Lex.left _ _ shorter

/-- Reads the body of a branch or loop: a braced block or a single statement. -/
def bodyStep (cursor : Cursor) :
    { parsed : Parsed Block // parsed.cursor.size ≤ cursor.size } :=
  match cursor with
  | ⟨[], last⟩ =>
    ⟨⟨.present Token.pastEnd.span [], ⟨[], last⟩,
      [⟨.expectedBody Token.pastEnd.description, Token.pastEnd.span⟩]⟩, Nat.le_refl _⟩
  | ⟨token :: rest, last⟩ =>
    if token.kind = .leftBrace then
      let block := bracedStep token ⟨rest, token.span.stop⟩
      ⟨⟨.present block.1.value.1 block.1.value.2, block.1.cursor, block.1.findings⟩,
        Nat.le_succ_of_le block.2⟩
    else if endsBody token.kind then
      ⟨⟨.present token.span [], ⟨token :: rest, last⟩,
        [⟨.expectedBody token.description, token.span⟩]⟩, Nat.le_refl _⟩
    else
      let stmt := statementStep ⟨token :: rest, last⟩
      ⟨⟨.present (stmt.1.cursor.spanFrom token.span.start) stmt.1.value.toList,
        stmt.1.cursor, stmt.1.findings⟩, stmt.2.1⟩
termination_by (cursor.size, 2)
decreasing_by
  · exact Prod.Lex.left _ _ (Nat.lt_succ_self _)
  · exact Prod.Lex.right _ (by omega)

/-- Reads a braced block behind its opening brace: the place of the block and its statements. -/
def bracedStep (brace : Token) (cursor : Cursor) :
    { parsed : Parsed (Span × List Stmt) // parsed.cursor.size ≤ cursor.size } :=
  let inside := statementsStep true cursor.skipSeparators
  let close := inside.1.cursor.expect .rightBrace
  ⟨⟨(close.cursor.spanFrom brace.span.start, inside.1.value), close.cursor,
    inside.1.findings ++ close.findings⟩,
    Nat.le_trans (size_expect_le _ _) (Nat.le_trans inside.2 (size_skipSeparators_le cursor))⟩
termination_by (cursor.size, 3)
decreasing_by
  · rcases Nat.lt_or_eq_of_le (size_skipSeparators_le cursor) with less | same
    · exact Prod.Lex.left _ _ less
    · rw [same]; exact Prod.Lex.right _ (by omega)

/-- Reads statements with separators behind them, up to the end of input and, inside braces, up to a
closing brace. -/
def statementsStep (braced : Bool) (cursor : Cursor) :
    { parsed : Parsed (List Stmt) // parsed.cursor.size ≤ cursor.size } :=
  match cursor with
  | ⟨[], last⟩ => ⟨⟨[], ⟨[], last⟩, []⟩, Nat.le_refl _⟩
  | ⟨token :: rest, last⟩ =>
    if token.kind = .endOfInput ∨ (braced = true ∧ token.kind = .rightBrace) then
      ⟨⟨[], ⟨token :: rest, last⟩, []⟩, Nat.le_refl _⟩
    else
      let stmt := statementStep ⟨token :: rest, last⟩
      have shorter : stmt.1.cursor.skipSeparators.size < (token :: rest).length :=
        Nat.lt_of_le_of_lt (size_skipSeparators_le _) (stmt.2.2 (Nat.zero_lt_succ _))
      let others := statementsStep braced stmt.1.cursor.skipSeparators
      ⟨⟨stmt.1.value.toList ++ others.1.value, others.1.cursor,
        stmt.1.findings ++ others.1.findings⟩, Nat.le_trans others.2 (Nat.le_of_lt shorter)⟩
termination_by (cursor.size, 2)
decreasing_by
  · exact Prod.Lex.right _ (by omega)
  · exact Prod.Lex.left _ _ shorter

end

/-! ## The readers without their proofs -/

/-- Reads a statement; no value means that it was erroneous and left out. -/
def statement (cursor : Cursor) : Parsed (Option Stmt) :=
  cursor.statementStep.1

/-- Reads the condition and the body of a branch behind the word that opens it. -/
def branch (word : Token) (cursor : Cursor) : Parsed Branch :=
  (branchStep word cursor).1

/-- Reads the further branches of a conditional and its last block. -/
def branches (cursor : Cursor) : Parsed (List Branch × Block) :=
  cursor.branchesStep.1

/-- Reads the body of a branch or loop. -/
def body (cursor : Cursor) : Parsed Block :=
  cursor.bodyStep.1

/-- Reads a braced block behind its opening brace. -/
def braced (brace : Token) (cursor : Cursor) : Parsed (Span × List Stmt) :=
  (bracedStep brace cursor).1

/-- Reads statements up to the end of input or, inside braces, up to a closing brace. -/
def statements (inBraces : Bool) (cursor : Cursor) : Parsed (List Stmt) :=
  (statementsStep inBraces cursor).1

@[simp] theorem statement_nil (last : Position) :
    statement ⟨[], last⟩ = assignment ⟨[], last⟩ := by
  rw [statement, statementStep]

/-- The statement that starts with a token. -/
theorem statement_cons (token : Token) (rest : List Token) (last : Position) :
    statement ⟨token :: rest, last⟩ =
      let behind := Cursor.mk rest token.span.stop
      match token.kind with
      | .ifWord =>
        let first := behind.branch token
        let others := first.cursor.branches
        ⟨some (.conditional (others.cursor.spanFrom token.span.start)
          (first.value :: others.value.1) others.value.2),
          others.cursor, first.findings ++ others.findings⟩
      | .whileWord =>
        let condition := behind.requiredExpression
        let body := condition.cursor.body
        ⟨some (.loop (body.cursor.spanFrom token.span.start) (condition.value.getD .missing)
            body.value),
          body.cursor, condition.findings ++ loopWarnings token condition.value ++ body.findings⟩
      | .consoleWord => behind.consoleStatement token
      | .leftBrace =>
        let block := behind.braced token
        ⟨some (.block block.value.1 block.value.2), block.cursor, block.findings⟩
      | _ => assignment ⟨token :: rest, last⟩ := by
  rw [statement, statementStep]
  dsimp only [branch, branches, body, braced]
  cases token.kind <;> rfl

/-- A branch is a condition with a body. -/
theorem branch_eq (word : Token) (cursor : Cursor) :
    cursor.branch word =
      let condition := cursor.requiredExpression
      let body := condition.cursor.body
      ⟨.mk (body.cursor.spanFrom word.span.start) (condition.value.getD .missing) body.value,
        body.cursor, condition.findings ++ body.findings⟩ := by
  rw [branch, branchStep]
  rfl

/-- The further branches of a conditional, by the word behind the line breaks. -/
theorem branches_eq (cursor : Cursor) :
    cursor.branches =
      match cursor.skipNewlines with
      | ⟨[], _⟩ => ⟨([], .absent), cursor, []⟩
      | ⟨word :: rest, _⟩ =>
        let behind := Cursor.mk rest word.span.stop
        match word.kind with
        | .elseifWord =>
          let first := behind.branch word
          let others := first.cursor.branches
          ⟨(first.value :: others.value.1, others.value.2), others.cursor,
            first.findings ++ others.findings⟩
        | .elseWord =>
          if behind.kind = .ifWord then
            let first := behind.advance.branch behind.peek
            let others := first.cursor.branches
            ⟨(first.value :: others.value.1, others.value.2), others.cursor,
              first.findings ++ others.findings⟩
          else
            let body := behind.body
            ⟨([], body.value), body.cursor, body.findings⟩
        | _ => ⟨([], .absent), cursor, []⟩ := by
  rw [branches, branchesStep]
  dsimp only [branch, body]
  split
  · rename_i ahead
    rw [ahead]
  · rename_i word rest last ahead
    simp only [ahead]
    cases word.kind <;> try rfl
    dsimp only
    split <;> rfl

@[simp] theorem body_nil (last : Position) :
    body ⟨[], last⟩ = ⟨.present Token.pastEnd.span [], ⟨[], last⟩,
      [⟨.expectedBody Token.pastEnd.description, Token.pastEnd.span⟩]⟩ := by
  rw [body, bodyStep]

/-- The body that starts with a token. -/
theorem body_cons (token : Token) (rest : List Token) (last : Position) :
    body ⟨token :: rest, last⟩ =
      if token.kind = .leftBrace then
        let block := (Cursor.mk rest token.span.stop).braced token
        ⟨.present block.value.1 block.value.2, block.cursor, block.findings⟩
      else if endsBody token.kind then
        ⟨.present token.span [], ⟨token :: rest, last⟩,
          [⟨.expectedBody token.description, token.span⟩]⟩
      else
        let stmt := statement ⟨token :: rest, last⟩
        ⟨.present (stmt.cursor.spanFrom token.span.start) stmt.value.toList, stmt.cursor,
          stmt.findings⟩ := by
  rw [body, bodyStep]
  dsimp only [braced, statement]
  split
  · rfl
  · split <;> rfl

/-- A braced block is a run of statements and a closing brace. -/
theorem braced_eq (brace : Token) (cursor : Cursor) :
    cursor.braced brace =
      let inside := cursor.skipSeparators.statements true
      let close := inside.cursor.expect .rightBrace
      ⟨(close.cursor.spanFrom brace.span.start, inside.value), close.cursor,
        inside.findings ++ close.findings⟩ := by
  rw [braced, bracedStep]
  rfl

@[simp] theorem statements_nil (inBraces : Bool) (last : Position) :
    statements inBraces ⟨[], last⟩ = ⟨[], ⟨[], last⟩, []⟩ := by
  rw [statements, statementsStep]

/-- A run of statements that starts with a token. -/
theorem statements_cons (inBraces : Bool) (token : Token) (rest : List Token) (last : Position) :
    statements inBraces ⟨token :: rest, last⟩ =
      if token.kind = .endOfInput ∨ (inBraces = true ∧ token.kind = .rightBrace) then
        ⟨[], ⟨token :: rest, last⟩, []⟩
      else
        let stmt := statement ⟨token :: rest, last⟩
        let others := stmt.cursor.skipSeparators.statements inBraces
        ⟨stmt.value.toList ++ others.value, others.cursor, stmt.findings ++ others.findings⟩ := by
  rw [statements, statementsStep]
  dsimp only [statement]
  split <;> rfl

/-- A statement never puts a token back, and costs one unless none is left. -/
theorem consumes_statement (cursor : Cursor) : cursor.statement.Consumes cursor :=
  cursor.statementStep.2

theorem size_branch_le (word : Token) (cursor : Cursor) :
    (cursor.branch word).cursor.size ≤ cursor.size :=
  (branchStep word cursor).2

end Cursor

end ConsoleScript
