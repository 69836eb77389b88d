import ConsoleScript.Parsing.Program

/-! # Moving the places of a source

A reader carries places along and compares the offsets of two of them, nothing else. So moving the
tokens of a source to other places moves everything that is read from them, and changes nothing
besides.

* **`Relocation`** — a change of positions that keeps the order of their offsets;
* **`Cursor.expression_relocate`**, **`Cursor.relocatesStmts`** — what the readers of expressions
  and of statements give moves with the tokens. Both go by the number of tokens left, with one lemma
  for each reader;
* **`Parsing.read_relocate`** — the same for a whole program. -/

namespace ConsoleScript

/-- A change of positions. -/
structure Relocation where
  /-- Where a position goes. -/
  move : Position → Position
  /-- What has no position gets none. -/
  move_unset : move .unset = .unset
  /-- Of two positions, the one with the smaller offset keeps it. -/
  offset_lt : ∀ first second : Position,
    (move first).offset < (move second).offset ↔ first.offset < second.offset

attribute [simp] Relocation.move_unset Relocation.offset_lt

variable (places : Relocation)

/-! ## What is moved -/

/-- A span with both ends moved. -/
def Span.relocate (span : Span) : Span :=
  ⟨places.move span.start, places.move span.stop⟩

/-- A token at its new place. -/
def Token.relocate (token : Token) : Token :=
  { token with span := token.span.relocate places }

/-- A finding about the new place. -/
def Finding.relocate (finding : Finding) : Finding :=
  { finding with span := finding.span.relocate places }

/-- An expression whose places are moved. -/
def Expr.relocate : Expr → Expr
  | .number span value => .number (span.relocate places) value
  | .text span raw => .text (span.relocate places) raw
  | .boolean span value => .boolean (span.relocate places) value
  | .nil span => .nil (span.relocate places)
  | .name span word => .name (span.relocate places) word
  | .unary span operator operand => .unary (span.relocate places) operator operand.relocate
  | .binary span operator left right =>
    .binary (span.relocate places) operator left.relocate right.relocate
  | .paren span inner => .paren (span.relocate places) inner.relocate
  | .missing => .missing

mutual

/-- A statement whose places are moved. -/
def Stmt.relocate : Stmt → Stmt
  | .assign span name value => .assign (span.relocate places) name (value.relocate places)
  | .console span value => .console (span.relocate places) (value.relocate places)
  | .conditional span branches otherwise =>
    .conditional (span.relocate places) (relocateBranches branches) otherwise.relocate
  | .loop span condition body =>
    .loop (span.relocate places) (condition.relocate places) body.relocate
  | .block span stmts => .block (span.relocate places) (relocateStmts stmts)

/-- Statements whose places are moved. -/
def relocateStmts : List Stmt → List Stmt
  | [] => []
  | stmt :: rest => stmt.relocate :: relocateStmts rest

/-- Branches whose places are moved. -/
def relocateBranches : List Branch → List Branch
  | [] => []
  | branch :: rest => branch.relocate :: relocateBranches rest

/-- A branch whose places are moved. -/
def Branch.relocate : Branch → Branch
  | .mk span condition body =>
    .mk (span.relocate places) (condition.relocate places) body.relocate

/-- A block whose places are moved. -/
def Block.relocate : Block → Block
  | .absent => .absent
  | .present span stmts => .present (span.relocate places) (relocateStmts stmts)

end

/-- A program whose places are moved. -/
def Program.relocate (program : Program) : Program :=
  ⟨program.span.relocate places, relocateStmts places program.stmts⟩

/-- A cursor in the moved tokens. -/
def Cursor.relocate (cursor : Cursor) : Cursor :=
  ⟨cursor.rest.map (Token.relocate places), places.move cursor.last⟩

/-- What a reader gives, moved: `onValue` moves what was read. -/
def Parsed.relocate {α : Type} (onValue : α → α) (parsed : Parsed α) : Parsed α :=
  ⟨onValue parsed.value, parsed.cursor.relocate places,
    parsed.findings.map (Finding.relocate places)⟩

/-- What the parser gives, moved. -/
def Parsing.relocate (parsing : Parsing) : Parsing :=
  ⟨parsing.program.relocate places, parsing.findings.map (Finding.relocate places)⟩

/-! ## Places of what is moved -/

variable {places}

@[simp] theorem Span.relocate_unset : Span.unset.relocate places = .unset := by
  rw [Span.unset, Span.relocate, places.move_unset]

/-- What covers two moved spans is what covers the spans, moved. -/
theorem Span.relocate_join (first second : Span) :
    (first.relocate places).join (second.relocate places)
      = (first.join second).relocate places := by
  simp only [join, relocate, places.offset_lt]
  rw [apply_ite places.move, apply_ite places.move]

@[simp] theorem Token.relocate_pastEnd : Token.pastEnd.relocate places = .pastEnd := by
  rw [Token.relocate, Token.pastEnd, Span.relocate_unset]

@[simp] theorem Token.kind_relocate (token : Token) :
    (token.relocate places).kind = token.kind := rfl

@[simp] theorem Token.lexeme_relocate (token : Token) :
    (token.relocate places).lexeme = token.lexeme := rfl

@[simp] theorem Token.span_relocate (token : Token) :
    (token.relocate places).span = token.span.relocate places := rfl

@[simp] theorem Token.description_relocate (token : Token) :
    (token.relocate places).description = token.description := rfl

@[simp] theorem Expr.span_relocate (expr : Expr) :
    (expr.relocate places).span = expr.span.relocate places := by
  cases expr with
  | missing => exact Span.relocate_unset.symm
  | _ => rfl

/-- Moving findings makes no error and unmakes none. -/
@[simp] theorem Finding.anyError_relocate (findings : List Finding) :
    anyError (findings.map (Finding.relocate places)) = anyError findings := by
  rw [anyError, List.any_map]
  rfl

theorem relocateStmts_append (stmts more : List Stmt) :
    relocateStmts places (stmts ++ more)
      = relocateStmts places stmts ++ relocateStmts places more := by
  induction stmts with
  | nil => rfl
  | cons stmt stmts ih => rw [List.cons_append, relocateStmts, relocateStmts, ih, List.cons_append]

theorem relocateStmts_toList (stmt? : Option Stmt) :
    relocateStmts places stmt?.toList = (stmt?.map (Stmt.relocate places)).toList := by
  cases stmt? <;> rfl

/-- A condition that may be missing. -/
theorem Expr.relocate_getD (expr? : Option Expr) :
    (expr?.map (Expr.relocate places)).getD .missing = (expr?.getD .missing).relocate places := by
  cases expr? <;> rfl

/-! ## Passing over moved tokens -/

namespace Cursor

theorem relocate_cons (token : Token) (rest : List Token) (last : Position) :
    relocate places ⟨token :: rest, last⟩
      = ⟨token.relocate places :: rest.map (Token.relocate places), places.move last⟩ := rfl

/-- Behind a moved token. -/
theorem behind_relocate (token : Token) (rest : List Token) :
    Cursor.mk (rest.map (Token.relocate places)) (token.relocate places).span.stop
      = (Cursor.mk rest token.span.stop).relocate places := rfl

@[simp] theorem peek_relocate (cursor : Cursor) :
    (cursor.relocate places).peek = cursor.peek.relocate places := by
  obtain ⟨rest, last⟩ := cursor
  cases rest with
  | nil => exact Token.relocate_pastEnd.symm
  | cons token rest => rfl

@[simp] theorem kind_relocate (cursor : Cursor) :
    (cursor.relocate places).kind = cursor.kind := by
  rw [kind, peek_relocate, Token.kind_relocate, kind]

@[simp] theorem last_relocate (cursor : Cursor) :
    (cursor.relocate places).last = places.move cursor.last := rfl

@[simp] theorem advance_relocate (cursor : Cursor) :
    (cursor.relocate places).advance = cursor.advance.relocate places := by
  obtain ⟨rest, last⟩ := cursor
  cases rest <;> rfl

theorem skipWhile_relocate (skips : TokenKind → Bool) (cursor : Cursor) :
    (cursor.relocate places).skipWhile skips = (cursor.skipWhile skips).relocate places := by
  obtain ⟨tokens, last⟩ := cursor
  show skipWhile.go skips (tokens.map (Token.relocate places)) (places.move last)
    = (skipWhile.go skips tokens last).relocate places
  induction tokens generalizing last with
  | nil => rfl
  | cons token rest ih =>
    rw [List.map_cons, skipWhile.go, skipWhile.go, Token.kind_relocate]
    split
    · exact ih token.span.stop
    · rfl

@[simp] theorem skipNewlines_relocate (cursor : Cursor) :
    (cursor.relocate places).skipNewlines = cursor.skipNewlines.relocate places :=
  skipWhile_relocate _ cursor

@[simp] theorem skipSeparators_relocate (cursor : Cursor) :
    (cursor.relocate places).skipSeparators = cursor.skipSeparators.relocate places :=
  skipWhile_relocate _ cursor

@[simp] theorem synchronize_relocate (cursor : Cursor) :
    (cursor.relocate places).synchronize = cursor.synchronize.relocate places := by
  unfold synchronize
  dsimp only
  rw [skipWhile_relocate, kind_relocate]
  split
  · exact advance_relocate _
  · rfl

@[simp] theorem expect_relocate (wanted : TokenKind) (cursor : Cursor) :
    (cursor.relocate places).expect wanted = (cursor.expect wanted).relocate places id := by
  rw [expect, expect, kind_relocate]
  split
  · rw [advance_relocate]
    rfl
  · rw [peek_relocate]
    rfl

end Cursor

@[simp] theorem Parsed.required_relocate (start : Cursor) (parsed : Parsed (Option Expr)) :
    (parsed.relocate places (Option.map (Expr.relocate places))).required (start.relocate places)
      = (parsed.required start).relocate places (Option.map (Expr.relocate places)) := by
  obtain ⟨value, cursor, findings⟩ := parsed
  cases value with
  | some expr => rfl
  | none => simp [required, relocate, Finding.relocate]

/-! ## Reading moved expressions -/

namespace Cursor

/-- What is read as an expression moves with the tokens. -/
def RelocatesExpression (places : Relocation) (floor : Nat) (cursor : Cursor) : Prop :=
  (cursor.relocate places).expression floor
    = (cursor.expression floor).relocate places (Option.map (Expr.relocate places))

section Smaller

-- What is nested in an expression is read at cursors with fewer tokens left.
variable {bound : Nat} (smaller : ∀ (other : Cursor) (floor : Nat), other.size < bound →
  other.RelocatesExpression places floor)

include smaller

/-- An operand moves with its tokens if what is nested in it does. -/
theorem operand_relocate {cursor : Cursor} (within : cursor.size ≤ bound) :
    (cursor.relocate places).operand
      = cursor.operand.relocate places (Option.map (Expr.relocate places)) := by
  obtain ⟨tokens, last⟩ := cursor
  cases tokens with
  | nil =>
    rw [operand_nil]
    exact operand_nil (places.move last)
  | cons token rest =>
    have less : (Cursor.mk rest token.span.stop).size < bound := within
    rw [relocate_cons, operand_cons, operand_cons]
    cases kind : token.kind
    case number =>
      simp only [Token.kind_relocate, kind, Token.lexeme_relocate, Parsed.relocate]
      rw [apply_ite (List.map (Finding.relocate places))]
      rfl
    case minus | bang =>
      have inner := smaller _ TokenKind.unaryStrength less
      simp only [Token.kind_relocate, kind, behind_relocate]
      rw [inner]
      cases value : ((Cursor.mk rest token.span.stop).expression TokenKind.unaryStrength).value with
      | none => simp [Parsed.relocate, Finding.relocate, value]
      | some operand => simp [Parsed.relocate, Expr.relocate, Span.relocate, value]
    case leftParen =>
      -- A missing expression is reported at the token behind the parenthesis, which is moved too.
      let inside := (Cursor.mk rest token.span.stop).skipNewlines
      have deeper : inside.size < bound :=
        Nat.lt_of_le_of_lt (size_skipNewlines_le ⟨rest, token.span.stop⟩) less
      have inner : (inside.relocate places).requiredExpression
          = inside.requiredExpression.relocate places (Option.map (Expr.relocate places)) := by
        rw [requiredExpression, smaller _ 0 deeper]
        exact Parsed.required_relocate inside _
      simp only [Token.kind_relocate, kind, behind_relocate, skipNewlines_relocate]
      rw [inner]
      cases value : inside.requiredExpression.value with
      | none => simp [Parsed.relocate, inside, value]
      | some expr => simp [Parsed.relocate, Expr.relocate, Span.relocate, inside, value]
    all_goals simp only [Token.kind_relocate, kind]; rfl

/-- What continues an operand moves with the operand and the tokens. -/
theorem continuation_relocate (floor : Nat) (left : Expr) {cursor : Cursor}
    (within : cursor.size ≤ bound) :
    continuation floor (left.relocate places) (cursor.relocate places)
      = (continuation floor left cursor).relocate places (Option.map (Expr.relocate places)) := by
  -- Each round consumes an operator, so the number of tokens left decreases.
  induction length : cursor.size using Nat.strongRecOn generalizing cursor left with
  | ind size ih =>
    obtain ⟨tokens, last⟩ := cursor
    cases tokens with
    | nil =>
      rw [continuation_nil]
      exact continuation_nil floor _ (places.move last)
    | cons sign rest =>
      rw [relocate_cons, continuation_cons, continuation_cons, Token.kind_relocate]
      by_cases weak : sign.kind.strength ≤ floor
      · rw [if_pos weak, if_pos weak]
        rfl
      · rw [if_neg weak, if_neg weak]
        let behind := (Cursor.mk rest sign.span.stop).skipNewlines
        have shorter : behind.size < (sign :: rest).length :=
          Nat.lt_succ_of_le (size_skipNewlines_le ⟨rest, sign.span.stop⟩)
        have right := smaller behind sign.kind.rightFloor (Nat.lt_of_lt_of_le shorter within)
        simp only [behind_relocate, skipNewlines_relocate]
        rw [right]
        cases value : (behind.expression sign.kind.rightFloor).value with
        | none => simp [Parsed.relocate, Finding.relocate, behind, value]
        | some operand =>
          have less : (behind.expression sign.kind.rightFloor).cursor.size < size := by
            rw [← length]
            exact Nat.lt_of_le_of_lt (behind.advances_expression sign.kind.rightFloor).1 shorter
          let joined := Expr.binary ⟨left.span.start, operand.span.stop⟩ (.ofKind sign.kind) left
            operand
          have moved : joined.relocate places = .binary ⟨(left.relocate places).span.start,
              (operand.relocate places).span.stop⟩ (.ofKind sign.kind) (left.relocate places)
              (operand.relocate places) := by
            rw [Expr.span_relocate, Expr.span_relocate]
            rfl
          have further := ih _ less joined
            (Nat.le_of_lt (Nat.lt_of_lt_of_le less (length ▸ within))) rfl
          simp only [Parsed.relocate, value, Option.map_some, behind, ← moved, further, joined,
            List.map_append]

end Smaller

/-- What is read as an expression moves with the tokens. -/
theorem expression_relocate (floor : Nat) (cursor : Cursor) :
    cursor.RelocatesExpression places floor := by
  -- By the number of tokens left, for all floors at once.
  induction length : cursor.size using Nat.strongRecOn generalizing cursor floor with
  | ind size ih =>
    have smaller (other : Cursor) (floor : Nat) (less : other.size < cursor.size) :
        other.RelocatesExpression places floor :=
      ih other.size (length ▸ less) floor other rfl
    have operand := operand_relocate smaller (Nat.le_refl cursor.size)
    rw [RelocatesExpression, expression_eq, expression_eq, operand]
    cases value : cursor.operand.value with
    | none => simp [Parsed.relocate, value]
    | some left =>
      have within : cursor.operand.cursor.size ≤ cursor.size := cursor.operandStep.2.1
      have rest := continuation_relocate smaller floor left within
      simp only [Parsed.relocate, value, Option.map_some, rest, List.map_append]

theorem requiredExpression_relocate (cursor : Cursor) :
    (cursor.relocate places).requiredExpression
      = cursor.requiredExpression.relocate places (Option.map (Expr.relocate places)) := by
  rw [requiredExpression, expression_relocate 0 cursor]
  exact Parsed.required_relocate cursor _

/-! ## Reading moved statements -/

theorem consoleStatement_relocate (word : Token) (cursor : Cursor) :
    (cursor.relocate places).consoleStatement (word.relocate places)
      = (cursor.consoleStatement word).relocate places (Option.map (Stmt.relocate places)) := by
  rw [consoleStatement, consoleStatement, requiredExpression_relocate]
  cases value : cursor.requiredExpression.value with
  | none => simp [Parsed.relocate, value]
  | some expr => simp [Parsed.relocate, Stmt.relocate, Span.relocate, spanFrom, value]

theorem assignedValue_relocate (start : Position) (name : Bytes) (cursor : Cursor) :
    (cursor.relocate places).assignedValue (places.move start) name
      = (cursor.assignedValue start name).relocate places (Option.map (Stmt.relocate places)) := by
  rw [assignedValue, assignedValue, requiredExpression_relocate]
  cases value : cursor.requiredExpression.value with
  | none => simp [Parsed.relocate, value]
  | some expr => simp [Parsed.relocate, Stmt.relocate, Span.relocate, spanFrom, value]

/-- What is read as an assignment moves with the tokens. -/
theorem assignment_relocate (cursor : Cursor) :
    (cursor.relocate places).assignment
      = cursor.assignment.relocate places (Option.map (Stmt.relocate places)) := by
  rw [assignment, assignment, expression_relocate 0 cursor]
  cases value : (cursor.expression 0).value with
  | none => simp [Parsed.relocate, Finding.relocate, value]
  | some target =>
    by_cases assigns : (cursor.expression 0).cursor.kind = .assign
    · cases target with
      | name span name =>
        have assigned : ((cursor.expression 0).cursor.advance.relocate places).assignedValue
            (cursor.peek.span.relocate places).start name = _ :=
          assignedValue_relocate cursor.peek.span.start name (cursor.expression 0).cursor.advance
        simp only [Parsed.relocate, Option.map_some, Expr.relocate, value, kind_relocate, assigns,
          if_pos, peek_relocate, advance_relocate, Token.span_relocate, assigned, List.map_append]
      | _ => simp [Parsed.relocate, Finding.relocate, Expr.relocate, Expr.span, value, assigns]
    · simp [Parsed.relocate, Finding.relocate, value, assigns]

/-- The warning about an endless loop moves with the word and the condition. -/
theorem loopWarnings_relocate (word : Token) (condition : Option Expr) :
    loopWarnings (word.relocate places) (condition.map (Expr.relocate places))
      = (loopWarnings word condition).map (Finding.relocate places) := by
  cases condition with
  | none => rfl
  | some condition =>
    cases condition with
    | boolean span value =>
      cases value with
      | true =>
        show [Finding.mk .endlessLoop ((word.span.relocate places).join (span.relocate places))] = _
        rw [Span.relocate_join]
        rfl
      | false => rfl
    | _ => rfl

/-- What the readers of statements give moves with the tokens. -/
structure RelocatesStmts (places : Relocation) (cursor : Cursor) : Prop where
  /-- A statement. -/
  statement : (cursor.relocate places).statement
    = cursor.statement.relocate places (Option.map (Stmt.relocate places))
  /-- A branch behind a word. -/
  branch : ∀ word : Token, (cursor.relocate places).branch (word.relocate places)
    = (cursor.branch word).relocate places (Branch.relocate places)
  /-- Further branches and the last block. -/
  branches : (cursor.relocate places).branches
    = cursor.branches.relocate places (Prod.map (relocateBranches places) (Block.relocate places))
  /-- A body. -/
  body : (cursor.relocate places).body = cursor.body.relocate places (Block.relocate places)
  /-- A block behind its brace. -/
  braced : ∀ brace : Token, (cursor.relocate places).braced (brace.relocate places)
    = (cursor.braced brace).relocate places
      (Prod.map (Span.relocate places) (relocateStmts places))
  /-- A run of statements. -/
  statements : ∀ inBraces : Bool, (cursor.relocate places).statements inBraces
    = (cursor.statements inBraces).relocate places (relocateStmts places)

section SmallerStmts

-- What is nested in a statement is read at cursors with fewer tokens left.
variable {bound : Nat} (smaller : ∀ other : Cursor, other.size < bound →
  other.RelocatesStmts places)

include smaller

/-- A statement moves with its tokens if what is nested in it does. -/
theorem statement_relocate {cursor : Cursor} (within : cursor.size ≤ bound) :
    (cursor.relocate places).statement
      = cursor.statement.relocate places (Option.map (Stmt.relocate places)) := by
  obtain ⟨tokens, last⟩ := cursor
  cases tokens with
  | nil =>
    rw [statement_nil]
    exact (statement_nil (places.move last)).trans (assignment_relocate ⟨[], last⟩)
  | cons token rest =>
    have less : (Cursor.mk rest token.span.stop).size < bound := within
    rw [relocate_cons, statement_cons, statement_cons]
    cases kind : token.kind with
    | ifWord =>
      have first := (smaller _ less).branch token
      have shorter := Nat.lt_of_le_of_lt (size_branch_le token ⟨rest, token.span.stop⟩) less
      have others := (smaller _ shorter).branches
      simp only [Token.kind_relocate, kind, behind_relocate, first, Parsed.relocate, others,
        List.map_append]
      rfl
    | whileWord =>
      -- Only here are places compared: the warning covers the word and the condition.
      have le := size_requiredExpression_le ⟨rest, token.span.stop⟩
      have body := (smaller _ (Nat.lt_of_le_of_lt le less)).body
      simp only [Token.kind_relocate, kind, behind_relocate, requiredExpression_relocate,
        Parsed.relocate, body, Expr.relocate_getD, loopWarnings_relocate, List.map_append]
      rfl
    | consoleWord =>
      simp only [Token.kind_relocate, kind]
      exact consoleStatement_relocate token ⟨rest, token.span.stop⟩
    | leftBrace =>
      have block := (smaller _ less).braced token
      simp only [Token.kind_relocate, kind, behind_relocate, block]
      rfl
    | _ =>
      simp only [Token.kind_relocate, kind]
      exact assignment_relocate ⟨token :: rest, last⟩

/-- A body moves with its tokens if what is nested in it does. -/
theorem body_relocate {cursor : Cursor} (within : cursor.size ≤ bound) :
    (cursor.relocate places).body = cursor.body.relocate places (Block.relocate places) := by
  have stmt := statement_relocate smaller within
  obtain ⟨tokens, last⟩ := cursor
  cases tokens with
  | nil =>
    -- Without tokens the body is reported at no place, and that is not moved.
    rw [body_nil]
    refine (body_nil (places.move last)).trans ?_
    simp [Parsed.relocate, Block.relocate, relocateStmts, Finding.relocate, Token.pastEnd, relocate]
  | cons token rest =>
    have less : (Cursor.mk rest token.span.stop).size < bound := within
    have block := (smaller _ less).braced token
    rw [relocate_cons] at stmt ⊢
    rw [body_cons, body_cons, Token.kind_relocate]
    split
    · rw [behind_relocate, block]
      rfl
    · split
      · rfl
      · simp only [stmt, Parsed.relocate, Block.relocate, relocateStmts_toList]
        rfl

/-- A branch moves with its tokens if what is nested in it does. -/
theorem branch_relocate {cursor : Cursor} (within : cursor.size ≤ bound) (word : Token) :
    (cursor.relocate places).branch (word.relocate places)
      = (cursor.branch word).relocate places (Branch.relocate places) := by
  have le := size_requiredExpression_le cursor
  have body := body_relocate smaller (Nat.le_trans le within)
  rw [branch_eq, branch_eq, requiredExpression_relocate]
  simp only [Parsed.relocate, body, Expr.relocate_getD, List.map_append]
  rfl

/-- A branch with those behind it moves with its tokens if what is nested in it does. -/
theorem chain_relocate {cursor : Cursor} (less : cursor.size < bound) (word : Token) :
    (let first := (cursor.relocate places).branch (word.relocate places)
      let others := first.cursor.branches
      ⟨(first.value :: others.value.1, others.value.2), others.cursor,
        first.findings ++ others.findings⟩ : Parsed (List Branch × Block))
      = (let first := cursor.branch word
        let others := first.cursor.branches
        ⟨(first.value :: others.value.1, others.value.2), others.cursor,
          first.findings ++ others.findings⟩ : Parsed (List Branch × Block)).relocate places
        (Prod.map (relocateBranches places) (Block.relocate places)) := by
  have first := (smaller _ less).branch word
  have others := (smaller _ (Nat.lt_of_le_of_lt (size_branch_le word cursor) less)).branches
  simp only [first, Parsed.relocate, others, List.map_append]
  rfl

/-- Further branches move with their tokens if what is nested in them does. -/
theorem branches_relocate {cursor : Cursor} (within : cursor.size ≤ bound) :
    (cursor.relocate places).branches
      = cursor.branches.relocate places
        (Prod.map (relocateBranches places) (Block.relocate places)) := by
  have le := size_skipNewlines_le cursor
  rw [branches_eq, branches_eq, skipNewlines_relocate]
  -- If no branch follows the line breaks, they stay ahead in both readings.
  rcases ahead : cursor.skipNewlines with ⟨tokens, last⟩
  cases tokens with
  | nil => rfl
  | cons word rest =>
    rw [ahead] at le
    have less : (Cursor.mk rest word.span.stop).size < bound := Nat.lt_of_lt_of_le le within
    rw [relocate_cons]
    cases kind : word.kind with
    | elseifWord =>
      simp only [Token.kind_relocate, kind]
      exact chain_relocate smaller less word
    | elseWord =>
      let behind := Cursor.mk rest word.span.stop
      simp only [Token.kind_relocate, kind, behind_relocate, kind_relocate]
      split
      · have shorter := Nat.lt_of_le_of_lt (size_advance_le behind) less
        rw [advance_relocate, peek_relocate]
        exact chain_relocate smaller shorter behind.peek
      · have body := (smaller _ less).body
        simp only [body]
        rfl
    | _ =>
      simp only [Token.kind_relocate, kind]
      rfl

/-- A run of statements moves with its tokens if what is nested in it does. -/
theorem statements_relocate {cursor : Cursor} (within : cursor.size ≤ bound) (inBraces : Bool) :
    (cursor.relocate places).statements inBraces
      = (cursor.statements inBraces).relocate places (relocateStmts places) := by
  have stmt := statement_relocate smaller within
  obtain ⟨tokens, last⟩ := cursor
  cases tokens with
  | nil =>
    rw [statements_nil]
    exact statements_nil inBraces (places.move last)
  | cons token rest =>
    rw [relocate_cons] at stmt ⊢
    rw [statements_cons, statements_cons, Token.kind_relocate, stmt]
    split
    · rfl
    · have consumed := (consumes_statement ⟨token :: rest, last⟩).2 (Nat.succ_pos _)
      have shorter := Nat.lt_of_le_of_lt (size_skipSeparators_le _) consumed
      have less := Nat.lt_of_lt_of_le shorter within
      have others := (smaller _ less).statements inBraces
      simp only [Parsed.relocate, skipSeparators_relocate, others, relocateStmts_append,
        relocateStmts_toList, List.map_append]

/-- A block in braces moves with its tokens if what is nested in it does. -/
theorem braced_relocate {cursor : Cursor} (within : cursor.size ≤ bound) (brace : Token) :
    (cursor.relocate places).braced (brace.relocate places)
      = (cursor.braced brace).relocate places
        (Prod.map (Span.relocate places) (relocateStmts places)) := by
  have le := size_skipSeparators_le cursor
  have inside := statements_relocate smaller (Nat.le_trans le within) true
  rw [braced_eq, braced_eq, skipSeparators_relocate, inside]
  simp only [Parsed.relocate, expect_relocate, List.map_append]
  rfl

end SmallerStmts

/-- What the readers of statements give moves with the tokens. -/
theorem relocatesStmts (cursor : Cursor) : cursor.RelocatesStmts places := by
  -- By the number of tokens left, for all readers at once, since they call each other.
  induction length : cursor.size using Nat.strongRecOn generalizing cursor with
  | ind size ih =>
    have smaller (other : Cursor) (less : other.size < size) : other.RelocatesStmts places :=
      ih other.size less other rfl
    have within : cursor.size ≤ size := Nat.le_of_eq length
    exact ⟨statement_relocate smaller within, branch_relocate smaller within,
      branches_relocate smaller within, body_relocate smaller within,
      braced_relocate smaller within, statements_relocate smaller within⟩

theorem ofTokens_relocate (tokens : List Token) :
    ofTokens (tokens.map (Token.relocate places)) = (ofTokens tokens).relocate places := by
  cases tokens with
  | nil => simp [ofTokens, relocate, Token.pastEnd, Span.unset]
  | cons token rest => rfl

end Cursor

/-- **Reading does not depend on places.** What is read from moved tokens is what is read from the
tokens, moved. -/
theorem Parsing.read_relocate (tokens : List Token) :
    read (tokens.map (Token.relocate places)) = (read tokens).relocate places := by
  have moved : (Cursor.ofTokens tokens).skipSeparators.RelocatesStmts places :=
    Cursor.relocatesStmts _
  simp only [read, Cursor.ofTokens_relocate, Cursor.skipSeparators_relocate, moved.statements]
  simp [Parsed.relocate, Parsing.relocate, Program.relocate, Span.relocate]

end ConsoleScript
