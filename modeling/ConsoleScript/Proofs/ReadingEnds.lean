import ConsoleScript.Proofs.ReaderSteps

/-! # Reading ends

No reader and no step between the calls of readers moves backwards, which is read off what a step
can be (`ExpressionCall.suffix_read`, `StatementCall.suffix_read`). `reading_ends` puts this
together with what is known of the depth of calls, of what a statement costs, and of the places at
which no expression can start. -/

namespace ConsoleScript

/-! ## No reader moves backwards -/

namespace Cursor

theorem suffix_advance (cursor : Cursor) : cursor.advance.rest <:+ cursor.rest := by
  obtain ⟨rest, last⟩ := cursor
  cases rest with
  | nil => exact List.suffix_refl _
  | cons token rest => exact List.suffix_cons token rest

theorem suffix_skipWhile (skips : TokenKind → Bool) (cursor : Cursor) :
    (cursor.skipWhile skips).rest <:+ cursor.rest := by
  obtain ⟨skipped, -, parts, -⟩ := cursor.skipWhile_spec skips
  exact ⟨skipped, parts.symm⟩

/-- What stands behind the token that follows the line breaks is ahead. -/
theorem suffix_of_skipNewlines {cursor : Cursor} {word : Token} {rest : List Token}
    {last : Position} (ahead : cursor.skipNewlines = ⟨word :: rest, last⟩) :
    rest <:+ cursor.rest := by
  have skipped := cursor.suffix_skipWhile (· == .newline)
  change cursor.skipNewlines.rest <:+ cursor.rest at skipped
  rw [ahead] at skipped
  exact (List.suffix_cons word rest).trans skipped

theorem suffix_synchronize (cursor : Cursor) : cursor.synchronize.rest <:+ cursor.rest := by
  rw [synchronize]
  split
  · exact (suffix_advance _).trans (suffix_skipWhile _ cursor)
  · exact suffix_skipWhile _ cursor

theorem suffix_expect (wanted : TokenKind) (cursor : Cursor) :
    (cursor.expect wanted).cursor.rest <:+ cursor.rest := by
  rw [expect]
  split
  · exact cursor.suffix_advance
  · exact List.suffix_refl _

end Cursor

/-! ## Readers of expressions -/

namespace ExpressionCall

/-- A call leaves a rest of what it was given. -/
def Forward (call : ExpressionCall) (parsed : Parsed (Option Expr)) : Prop :=
  parsed.cursor.rest <:+ call.cursor.rest

theorem forward_expression {floor : Nat} {cursor : Cursor} {parsed : Parsed (Option Expr)}
    (step : ExpressionStep Forward floor cursor parsed) :
    (expression floor cursor).Forward parsed := by
  cases step with
  | missing first => exact first
  | continued first further => exact further.trans first

theorem forward_continuation {floor : Nat} {left : Expr} {cursor : Cursor}
    {parsed : Parsed (Option Expr)} (step : ContinuationStep Forward floor left cursor parsed) :
    (continuation floor left cursor).Forward parsed := by
  -- A right operand is read behind its operator and the line breaks there.
  have behind {sign : Token} {rest right : List Token}
      (second : right <:+ (Cursor.mk rest sign.span.stop).skipNewlines.rest) :
      right <:+ sign :: rest :=
    (second.trans (Cursor.suffix_skipWhile _ _)).trans (List.suffix_cons sign rest)
  cases step with
  | done => exact List.suffix_refl _
  | missing _ right => exact behind right
  | joined _ right further => exact further.trans (behind right)

theorem forward_operand {cursor : Cursor} {parsed : Parsed (Option Expr)}
    (step : OperandStep Forward cursor parsed) : (operand cursor).Forward parsed := by
  cases step with
  | absent => exact List.suffix_refl _
  | number | text | boolean | nil | name => exact List.suffix_cons _ _
  | unsigned _ inner | signed _ inner => exact inner.trans (List.suffix_cons _ _)
  | unenclosed _ skipped inner =>
    subst skipped
    exact (inner.trans (Cursor.suffix_skipWhile _ _)).trans (List.suffix_cons _ _)
  | enclosed _ inner closes =>
    subst closes
    exact (Cursor.suffix_expect _ _).trans ((Cursor.suffix_skipWhile _ _).trans
      ((inner.trans (Cursor.suffix_skipWhile _ _)).trans (List.suffix_cons _ _)))

/-- A reader of expressions leaves a rest of what it was given. -/
theorem suffix_read (call : ExpressionCall) : call.read.cursor.rest <:+ call.cursor.rest := by
  refine read_induction (motive := Forward) (fun call => ⟨none, call.cursor, []⟩)
    (fun _ => List.suffix_refl _) (fun call parsed step => ?_) call
  cases call with
  | expression floor cursor => exact forward_expression step
  | continuation floor left cursor => exact forward_continuation step
  | operand cursor => exact forward_operand step

end ExpressionCall

namespace Cursor

theorem suffix_expression (floor : Nat) (cursor : Cursor) :
    (cursor.expression floor).cursor.rest <:+ cursor.rest :=
  (ExpressionCall.expression floor cursor).suffix_read

theorem suffix_requiredExpression (cursor : Cursor) :
    cursor.requiredExpression.cursor.rest <:+ cursor.rest := by
  rw [requiredExpression, Parsed.cursor_required]
  exact cursor.suffix_expression 0

theorem suffix_consoleStatement (word : Token) (cursor : Cursor) :
    (cursor.consoleStatement word).cursor.rest <:+ cursor.rest := by
  rw [consoleStatement]
  split
  · exact (suffix_synchronize _).trans cursor.suffix_requiredExpression
  · exact cursor.suffix_requiredExpression

theorem suffix_assignedValue (start : Position) (name : Bytes) (cursor : Cursor) :
    (cursor.assignedValue start name).cursor.rest <:+ cursor.rest := by
  rw [assignedValue]
  split
  · exact (suffix_synchronize _).trans cursor.suffix_requiredExpression
  · exact cursor.suffix_requiredExpression

theorem suffix_assignment (cursor : Cursor) : cursor.assignment.cursor.rest <:+ cursor.rest := by
  have target := cursor.suffix_expression 0
  have behind := (suffix_advance _).trans target
  rw [assignment]
  dsimp only
  split
  · exact (suffix_synchronize _).trans behind
  · split
    · split
      · exact (suffix_assignedValue _ _ _).trans behind
      · exact (suffix_synchronize _).trans behind
    · exact (suffix_synchronize _).trans target

end Cursor

/-! ## Readers of statements -/

/-- The words that open a further branch are ahead. -/
theorem Cursor.Opens.suffix {cursor start : Cursor} {word : Token}
    (opens : cursor.Opens word start) : start.rest <:+ cursor.rest := by
  cases opens with
  | elseif ahead => exact suffix_of_skipNewlines ahead
  | elseIf ahead => exact (suffix_advance _).trans (suffix_of_skipNewlines ahead)

namespace StatementCall

/-- A call leaves a rest of what it was given. -/
def Forward (call : StatementCall) (parsed : Parsed call.Result) : Prop :=
  parsed.cursor.rest <:+ call.cursor.rest

/-- Behind a branch, what is further to it is read. -/
theorem forward_chain {word : Token} {start : Cursor} {chain : Parsed (List Branch × Block)}
    (step : ChainStep Forward word start chain) : chain.cursor.rest <:+ start.rest := by
  cases step with
  | linked opening further => exact further.trans opening

theorem forward_statement {cursor : Cursor} {parsed : Parsed (Option Stmt)}
    (step : StatementStep Forward cursor parsed) : (statement cursor).Forward parsed := by
  cases step with
  | assignment => exact cursor.suffix_assignment
  | conditional _ linked => exact (forward_chain linked).trans (List.suffix_cons _ _)
  | loop _ tested body =>
    subst tested
    exact body.trans ((Cursor.suffix_requiredExpression _).trans (List.suffix_cons _ _))
  | console => exact (Cursor.suffix_consoleStatement _ _).trans (List.suffix_cons _ _)
  | block _ content => exact content.trans (List.suffix_cons _ _)

theorem forward_branch {word : Token} {cursor : Cursor} {parsed : Parsed Branch}
    (step : BranchStep Forward word cursor parsed) : (branch word cursor).Forward parsed := by
  cases step with
  | guarded body => exact body.trans cursor.suffix_requiredExpression

theorem forward_branches {cursor : Cursor} {parsed : Parsed (List Branch × Block)}
    (step : BranchesStep Forward cursor parsed) : (branches cursor).Forward parsed := by
  cases step with
  | absent => exact List.suffix_refl _
  | further opens linked => exact (forward_chain linked).trans opens.suffix
  | otherwise ahead _ _ content => exact content.trans (Cursor.suffix_of_skipNewlines ahead)

theorem forward_body {cursor : Cursor} {parsed : Parsed Block}
    (step : BodyStep Forward cursor parsed) : (body cursor).Forward parsed := by
  cases step with
  | missing => exact List.suffix_refl _
  | block _ content => exact content.trans (List.suffix_cons _ _)
  | single _ content => exact content

theorem forward_braced {brace : Token} {cursor : Cursor} {parsed : Parsed (Span × List Stmt)}
    (step : BracedStep Forward brace cursor parsed) : (braced brace cursor).Forward parsed := by
  cases step with
  | closed content closes =>
    subst closes
    exact (Cursor.suffix_expect _ _).trans (content.trans (Cursor.suffix_skipWhile _ cursor))

theorem forward_statements {inBraces : Bool} {cursor : Cursor} {parsed : Parsed (List Stmt)}
    (step : StatementsStep Forward inBraces cursor parsed) :
    (statements inBraces cursor).Forward parsed := by
  cases step with
  | ended => exact List.suffix_refl _
  | more _ first further => exact (further.trans (Cursor.suffix_skipWhile _ _)).trans first

/-- A reader of statements leaves a rest of what it was given. -/
theorem suffix_read (call : StatementCall) : call.read.cursor.rest <:+ call.cursor.rest := by
  refine read_induction (motive := Forward) idle
    (fun other => show other.idle.cursor.rest <:+ _ from other.cursor_idle ▸ List.suffix_refl _)
    (fun call parsed step => ?_) call
  cases call with
  | statement cursor => exact forward_statement step
  | branch word cursor => exact forward_branch step
  | branches cursor => exact forward_branches step
  | body cursor => exact forward_body step
  | braced brace cursor => exact forward_braced step
  | statements inBraces cursor => exact forward_statements step

end StatementCall

/-! ## Tokens that are ahead -/

/-- All tokens ahead have a property. -/
def Cursor.Ahead (Has : Token → Prop) (cursor : Cursor) : Prop :=
  ∀ token ∈ cursor.rest, Has token

namespace Cursor.Ahead

variable {Has : Token → Prop} {cursor : Cursor}

/-- Reading on meets no other tokens. -/
theorem later (ahead : cursor.Ahead Has) {next : Cursor} (forward : next.rest <:+ cursor.rest) :
    next.Ahead Has :=
  fun token member => ahead token (forward.subset member)

theorem skipWhile (ahead : cursor.Ahead Has) (skips : TokenKind → Bool) :
    (cursor.skipWhile skips).Ahead Has :=
  ahead.later (cursor.suffix_skipWhile skips)

variable {token : Token} {rest : List Token} {last : Position}

theorem here (ahead : Cursor.Ahead Has ⟨token :: rest, last⟩) : Has token :=
  (List.forall_mem_cons.1 ahead).1

theorem behind (ahead : Cursor.Ahead Has ⟨token :: rest, last⟩) :
    Cursor.Ahead Has ⟨rest, token.span.stop⟩ :=
  (List.forall_mem_cons.1 ahead).2

end Cursor.Ahead

/-! ## What a reader consumes -/

namespace Cursor

/-- Where no expression can start, none is read, and nothing is consumed. -/
theorem expression_of_not_startsExpression {cursor : Cursor}
    (foreign : cursor.kind.startsExpression = false) (floor : Nat) :
    cursor.expression floor = ⟨none, cursor, []⟩ := by
  have nothing : cursor.operand = ⟨none, cursor, []⟩ := by
    obtain ⟨rest, last⟩ := cursor
    cases rest with
    | nil => exact operand_nil last
    | cons token rest =>
      change token.kind.startsExpression = false at foreign
      rw [operand_cons]
      cases kind : token.kind <;> simp [kind, TokenKind.startsExpression] at foreign ⊢
  rw [expression_eq, nothing]

/-- A statement that is read before the end of input costs a token. -/
theorem size_statement_lt {cursor : Cursor} (ongoing : cursor.kind ≠ .endOfInput) :
    cursor.statement.cursor.size < cursor.size := by
  refine (consumes_statement cursor).2 ?_
  obtain ⟨rest, last⟩ := cursor
  cases rest with
  | nil => exact absurd rfl ongoing
  | cons token rest => exact Nat.succ_pos _

end Cursor

/-- The cursors that the steps between the calls of readers lead to. -/
def Cursor.stepped (cursor : Cursor) (skips : TokenKind → Bool) (wanted : TokenKind) (word : Token)
    (start : Position) (name : Bytes) : List Cursor :=
  [cursor.advance, cursor.skipWhile skips, cursor.synchronize, (cursor.expect wanted).cursor,
    cursor.requiredExpression.cursor, (cursor.consoleStatement word).cursor,
    (cursor.assignedValue start name).cursor, cursor.assignment.cursor]

/-- **Reading always ends.** Each call of a reader makes calls of smaller measure only: with its
calls unrolled more levels than its measure says, it reads the same whatever stands in place of the
deeper ones, and so does a whole list of tokens, with the end of input anywhere in it or nowhere. No
reader and no step between their calls moves backwards: what it leaves is a rest of what it was
given. A statement that is read before the end of input costs a token, and where no expression can
start, reading one consumes nothing. -/
theorem reading_ends :
    (∀ (guess : ExpressionCall → Parsed (Option Expr)) (call : ExpressionCall) (depth : Nat),
      call.measure < depth → ExpressionCall.unrolled guess depth call = call.read) ∧
    (∀ (guess : StatementCall.Reader) (call : StatementCall) (depth : Nat),
      call.measure < depth → StatementCall.unrolled guess depth call = call.read) ∧
    (∀ (guess : StatementCall.Reader) (tokens : List Token) (depth : Nat),
      3 * tokens.length + 1 < depth →
        Parsing.readBy (StatementCall.unrolled guess depth) tokens = Parsing.read tokens) ∧
    (∀ call : ExpressionCall, call.read.cursor.rest <:+ call.cursor.rest) ∧
    (∀ call : StatementCall, call.read.cursor.rest <:+ call.cursor.rest) ∧
    (∀ (cursor : Cursor) skips wanted word start name,
      ∀ behind ∈ cursor.stepped skips wanted word start name, behind.rest <:+ cursor.rest) ∧
    (∀ cursor : Cursor, cursor.kind ≠ .endOfInput →
      cursor.statement.cursor.size < cursor.size) ∧
    ∀ cursor : Cursor, cursor.kind.startsExpression = false → ∀ floor,
      cursor.expression floor = ⟨none, cursor, []⟩ := by
  refine ⟨?_, ?_, ?_, ExpressionCall.suffix_read, StatementCall.suffix_read, ?_, ?_, ?_⟩
  · intro guess call depth deep
    exact ExpressionCall.unrolled_eq_read guess deep
  · intro guess call depth deep
    exact StatementCall.unrolled_eq_read guess deep
  · intro guess tokens depth deep
    exact Parsing.readBy_unrolled guess deep
  · intro cursor skips wanted word start name
    simp only [Cursor.stepped, List.forall_mem_cons]
    exact ⟨cursor.suffix_advance, cursor.suffix_skipWhile skips, cursor.suffix_synchronize,
      cursor.suffix_expect wanted, cursor.suffix_requiredExpression,
      cursor.suffix_consoleStatement word, cursor.suffix_assignedValue start name,
      cursor.suffix_assignment, fun _ none => absurd none List.not_mem_nil⟩
  · intro cursor ongoing
    exact Cursor.size_statement_lt ongoing
  · intro cursor foreign floor
    exact Cursor.expression_of_not_startsExpression foreign floor

/-- Operators and braces without an end of input: fourteen levels of calls suffice for four tokens,
the first of which is consumed, and no expression starts at the closing brace. -/
theorem reading_ends_operators :
    let tokens : List Token := [.unplaced .leftBrace [], .unplaced .rightBrace [],
      .unplaced .minus [], .unplaced .caret []]
    let cursor := Cursor.ofTokens tokens
    Parsing.readBy (StatementCall.unrolled StatementCall.idle 14) tokens = Parsing.read tokens ∧
      cursor.kind = .leftBrace ∧ cursor.statement.cursor.size < 4 ∧
      cursor.advance.expression 0 = ⟨none, cursor.advance, []⟩ := by
  intro tokens cursor
  obtain ⟨-, -, whole, -, -, -, costs, stays⟩ := reading_ends
  exact ⟨whole _ tokens 14 (by decide), rfl, costs cursor (by decide),
    stays cursor.advance rfl 0⟩

end ConsoleScript
