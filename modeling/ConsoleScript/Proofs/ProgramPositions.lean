import ConsoleScript.Proofs.ExpressionPositions

/-! # The places of statements and programs

Every place that the statement reader reports or puts into a tree is a position of the source, with
one exception. A statement that is an unfinished expression up to the end of input is given up by
stepping over one more token, which is then the end of input itself. Behind it nothing has a place:
the program ends nowhere, and a closing brace that is missing is missed nowhere.

* **`Finding.Lost`** — the findings of a reading that stepped over the end of input;
* **`Cursor.Accounts`** — the end of input is ahead and all findings are placed, or it was lost;
* **`Parsed.Places`** — what a reader of statements gives. `Cursor.Continues` says what the next
  reader makes of it, in both cases;
* **`Parsing.places_read`** — the same for whole lists of tokens. -/

namespace ConsoleScript

mutual

/-- The places of a statement and of everything in it. -/
def Stmt.spans : Stmt → List Span
  | .assign span _ value => span :: value.spans
  | .console span value => span :: value.spans
  | .conditional span branches otherwise => span :: (branchSpans branches ++ otherwise.spans)
  | .loop span condition body => span :: (condition.spans ++ body.spans)
  | .block span stmts => span :: stmtSpans stmts

/-- The places of statements and of everything in them. -/
def stmtSpans : List Stmt → List Span
  | [] => []
  | stmt :: stmts => stmt.spans ++ stmtSpans stmts

/-- The places of branches and of everything in them. -/
def branchSpans : List Branch → List Span
  | [] => []
  | .mk span condition body :: branches =>
    span :: (condition.spans ++ body.spans) ++ branchSpans branches

/-- The places of a block and of everything in it; an absent one has none. -/
def Block.spans : Block → List Span
  | .absent => []
  | .present span stmts => span :: stmtSpans stmts

end

theorem stmtSpans_append (stmts more : List Stmt) :
    stmtSpans (stmts ++ more) = stmtSpans stmts ++ stmtSpans more := by
  induction stmts with
  | nil => rfl
  | cons stmt stmts ih => rw [List.cons_append, stmtSpans, stmtSpans, ih, List.append_assoc]

theorem branchSpans_cons (branch : Branch) (branches : List Branch) :
    branchSpans (branch :: branches) = branchSpans [branch] ++ branchSpans branches := by
  obtain ⟨span, condition, body⟩ := branch
  rw [branchSpans, branchSpans, branchSpans, List.append_nil]

namespace Finding

/-- The complaint about a closing brace that is missing behind the end of input. -/
def unplacedBrace : Finding :=
  ⟨.expectedToken .rightBrace (Bytes.utf8 "end of input"), .unset⟩

/-- The findings of a reading that stepped over the end of input, whose place is `stop`. -/
structure Lost (real : Position → Prop) (stop : Span) (findings : List Finding) : Prop where
  /-- An expression or operand was missed at the end of input. -/
  missing : MissedAt stop findings
  /-- Only closing braces are missed without a place. -/
  others : ∀ finding ∈ findings, finding.span.Within real ∨ finding = unplacedBrace

end Finding

namespace Cursor

section

variable (real : Position → Prop) (final : Token)

/-- The end of input is ahead and all findings are placed, or it was lost. -/
def Accounts (findings : List Finding) (cursor : Cursor) : Prop :=
  (cursor.Open final ∧ ∀ finding ∈ findings, finding.span.Within real) ∨
    (cursor.rest = [] ∧ Finding.Lost real final.span findings)

/-- What reading makes of a cursor before or behind the end of input. -/
structure Continues (cursor : Cursor) (spans : List Span) (findings : List Finding)
    (next : Cursor) : Prop where
  /-- Reading went on to a placed cursor. -/
  moves : cursor.Moves real next
  /-- What was read is placed. -/
  spans : ∀ span ∈ spans, span.Within real
  /-- Before the end of input, reading keeps it or loses it. -/
  ahead : cursor.Open final → next.Accounts real final findings
  /-- Behind it, at most a missing brace is reported. -/
  spent : cursor.rest = [] → next.rest = [] ∧ ∀ finding ∈ findings, finding = .unplacedBrace

end

end Cursor

/-- What a reader of statements gives, started at a cursor, where `spans` are the places in what was
read. -/
structure Parsed.Places {α : Type} (real : Position → Prop) (final : Token) (start : Cursor)
    (spans : List Span) (parsed : Parsed α) : Prop where
  /-- Reading went on to a placed cursor. -/
  moves : start.Moves real parsed.cursor
  /-- What was read is placed. -/
  spans : ∀ span ∈ spans, span.Within real
  /-- The end of input was kept or lost. -/
  accounts : parsed.cursor.Accounts real final parsed.findings

namespace Cursor

variable {real : Position → Prop} {final : Token}

/-- Placed findings may precede. -/
theorem Accounts.prepend {earlier findings : List Finding} {cursor : Cursor}
    (placed : ∀ finding ∈ earlier, finding.span.Within real)
    (accounts : cursor.Accounts real final findings) :
    cursor.Accounts real final (earlier ++ findings) := by
  rcases accounts with ⟨ahead, within⟩ | ⟨spent, missing, others⟩
  · exact .inl ⟨ahead, List.forall_mem_append.2 ⟨placed, within⟩⟩
  · refine .inr ⟨spent, missing.append_right _, ?_⟩
    exact List.forall_mem_append.2 ⟨fun finding member => .inl (placed finding member), others⟩

/-- What was accounted for stays so if reading continues. -/
theorem Accounts.continue {findings more : List Finding} {spans : List Span} {cursor next : Cursor}
    (accounts : cursor.Accounts real final findings)
    (continues : cursor.Continues real final spans more next) :
    next.Accounts real final (findings ++ more) := by
  rcases accounts with ⟨ahead, within⟩ | ⟨spent, missing, others⟩
  · exact (continues.ahead ahead).prepend within
  · obtain ⟨still, braces⟩ := continues.spent spent
    refine .inr ⟨still, missing.append_left _, ?_⟩
    exact List.forall_mem_append.2 ⟨others, fun finding member => .inr (braces finding member)⟩

/-- Reading that lost nothing may be continued by a reader that starts before the end of input. -/
theorem Continues.of_open {cursor next : Cursor} {spans : List Span} {findings : List Finding}
    (ahead : cursor.Open final) (moves : cursor.Moves real next)
    (placed : ∀ span ∈ spans, span.Within real) (accounts : next.Accounts real final findings) :
    cursor.Continues real final spans findings next := by
  refine ⟨moves, placed, fun _ => accounts, fun spent => ?_⟩
  obtain ⟨rest, parts⟩ := ahead.cons
  rw [spent] at parts
  cases parts

/-- Where nothing is read, nothing changes. -/
theorem Placed.continues {cursor : Cursor} (placed : cursor.Placed real) :
    cursor.Continues real final [] [] cursor :=
  ⟨placed.moves, by simp, fun ahead => .inl ⟨ahead, by simp⟩, fun spent => ⟨spent, by simp⟩⟩

/-- Expecting a closing brace behind the end of input reports it without a place. -/
theorem Placed.continues_expect {cursor : Cursor} (placed : cursor.Placed real)
    (left : cursor.Open final ∨ cursor.rest = []) :
    cursor.Continues real final [] (cursor.expect .rightBrace).findings
      (cursor.expect .rightBrace).cursor := by
  rcases left with ahead | spent
  · have proper : TokenKind.rightBrace ≠ .endOfInput := by decide
    obtain ⟨moves, still, within⟩ := expect_placed placed ahead proper
    exact .of_open ahead moves (by simp) (.inl ⟨still, within⟩)
  · obtain ⟨rest, last⟩ := cursor
    obtain rfl : rest = [] := spent
    have missed : (Cursor.mk [] last).expect .rightBrace = ⟨(), ⟨[], last⟩, [.unplacedBrace]⟩ := rfl
    rw [missed]
    refine ⟨placed.moves, by simp, ?_, by simp⟩
    intro ahead
    obtain ⟨others, parts⟩ := ahead.cons
    cases parts

/-! ## Statements of one line -/

/-- A statement that ends with a value, made of it and its own place, is placed. -/
theorem places_valued {make : Span → Expr → Stmt}
    (spans : ∀ span expr, (make span expr).spans = span :: expr.spans)
    {start cursor : Cursor} {beginning : Position} (moves : start.Moves real cursor)
    (ahead : cursor.Open final) (first : real beginning)
    (low : beginning.offset ≤ cursor.last.offset) {parsed : Parsed (Option Stmt)}
    (reads : parsed = match cursor.requiredExpression.value with
      | none => ⟨none, cursor.requiredExpression.cursor.synchronize,
        cursor.requiredExpression.findings⟩
      | some expr => ⟨some (make (cursor.requiredExpression.cursor.spanFrom beginning) expr),
        cursor.requiredExpression.cursor, cursor.requiredExpression.findings⟩) :
    parsed.Places real final start (stmtSpans parsed.value.toList) := by
  have valued := places_requiredExpression moves.placed ahead
  cases value : cursor.requiredExpression.value with
  | none =>
    rw [value] at reads
    rw [reads]
    have leaves := valued.moves.placed.synchronize
    exact ⟨moves.trans (valued.moves.trans leaves), by simp [stmtSpans],
      .inl ⟨valued.ahead.synchronize, valued.findings⟩⟩
  | some expr =>
    rw [value] at reads
    rw [reads]
    refine ⟨moves.trans valued.moves, ?_, .inl ⟨valued.ahead, valued.findings⟩⟩
    have own : (Span.mk beginning cursor.requiredExpression.cursor.last).Within real :=
      ⟨first, valued.moves.placed.last, Int.le_trans low valued.moves.forward⟩
    simpa [stmtSpans, spans, spanFrom] using And.intro own (valued.value expr value).spans

/-- A console statement is placed. -/
theorem places_consoleStatement {word : Token} {rest : List Token} {last : Position}
    (placed : (Cursor.mk (word :: rest) last).Placed real)
    (ahead : (Cursor.mk rest word.span.stop).Open final) :
    ((Cursor.mk rest word.span.stop).consoleStatement word).Places real final ⟨word :: rest, last⟩
      (stmtSpans ((Cursor.mk rest word.span.stop).consoleStatement word).value.toList) := by
  have here := placed.tokens word List.mem_cons_self
  have spans (span : Span) (expr : Expr) : (Stmt.console span expr).spans = span :: expr.spans := by
    rw [Stmt.spans]
  exact places_valued spans placed.step ahead here.start here.le rfl

/-- Behind the last token nothing is left to leave behind. -/
theorem synchronize_advance {cursor : Cursor} {token : Token} (only : cursor.rest = [token]) :
    cursor.peek = token ∧ cursor.advance.synchronize.rest = [] := by
  obtain ⟨rest, last⟩ := cursor
  obtain rfl : rest = [token] := only
  exact ⟨rfl, rfl⟩

/-- Only behind a missing target the end of input may be lost: it is given up by stepping over one
more token. -/
theorem accounts_missing_target {cursor : Cursor} (placed : cursor.Placed real)
    (ahead : cursor.Open final) (ongoing : cursor.kind ≠ .endOfInput)
    (missed : (cursor.expression 0).value = none) :
    (cursor.expression 0).cursor.advance.synchronize.Accounts real final
      ((cursor.expression 0).findings
        ++ [⟨.unexpectedToken cursor.peek.description, cursor.peek.span⟩]) := by
  have target := cursor.placesExpression 0 placed ahead
  have findings : ∀ finding ∈ (cursor.expression 0).findings
      ++ [⟨.unexpectedToken cursor.peek.description, cursor.peek.span⟩],
      finding.span.Within real :=
    List.forall_mem_append.2
      ⟨target.findings, List.forall_mem_singleton.2 (ahead.peek_within placed)⟩
  by_cases ends : (cursor.expression 0).cursor.kind = .endOfInput
  · -- The token that is stepped over is the end of input, where the target was missed.
    obtain ⟨peeks, spent⟩ := synchronize_advance (target.ahead.rest_eq ends)
    rcases target.missed missed with unmoved | missing
    · rw [unmoved] at ends
      exact absurd ends ongoing
    · rw [peeks] at missing
      exact .inr ⟨spent, missing.append_left _,
        fun finding member => .inl (findings finding member)⟩
  · exact .inl ⟨(target.ahead.advance ends).synchronize, findings⟩

/-- An assignment, or whatever stands in its place, is placed. -/
theorem places_assignment {cursor : Cursor} (placed : cursor.Placed real)
    (ahead : cursor.Open final) (ongoing : cursor.kind ≠ .endOfInput) :
    cursor.assignment.Places real final cursor (stmtSpans cursor.assignment.value.toList) := by
  have target := cursor.placesExpression 0 placed ahead
  have here := ahead.peek_within placed
  rw [assignment]
  cases value : (cursor.expression 0).value with
  | none =>
    have moves := target.moves.trans target.moves.placed.advance
    exact ⟨moves.trans moves.placed.synchronize, by simp [stmtSpans],
      accounts_missing_target placed ahead ongoing value⟩
  | some expr =>
    have tree := target.value expr value
    have own := tree.spans _ tree.own
    by_cases assigns : (cursor.expression 0).cursor.kind = .assign
    · have ongoing : (cursor.expression 0).cursor.kind ≠ .endOfInput := by
        rw [assigns]
        decide
      have still := target.ahead.advance ongoing
      have moves := target.moves.trans target.moves.placed.advance
      have refused : ∀ finding ∈ (cursor.expression 0).findings ++ [⟨.invalidTarget, expr.span⟩],
          finding.span.Within real :=
        List.forall_mem_append.2 ⟨target.findings, List.forall_mem_singleton.2 own⟩
      cases expr with
      | name span name =>
        simp only [assigns, if_true]
        -- The statement begins with the name, before the sign and the value.
        have low : cursor.peek.span.start.offset
            ≤ (cursor.expression 0).cursor.advance.last.offset :=
          Int.le_trans tree.low (Int.le_trans own.le
            (Int.le_trans tree.high target.moves.placed.advance.forward))
        have spans (span : Span) (expr : Expr) :
            (Stmt.assign span name expr).spans = span :: expr.spans := by
          rw [Stmt.spans]
        have assigned : ((cursor.expression 0).cursor.advance.assignedValue cursor.peek.span.start
            name).Places real final cursor _ :=
          places_valued spans moves still here.start low rfl
        exact ⟨assigned.moves, assigned.spans, assigned.accounts.prepend target.findings⟩
      | _ =>
        simp only [assigns, if_true]
        exact ⟨moves.trans moves.placed.synchronize, by simp [stmtSpans],
          .inl ⟨still.synchronize, refused⟩⟩
    · simp only [assigns, if_false]
      have leaves := target.moves.placed.synchronize
      refine ⟨target.moves.trans leaves, by simp [stmtSpans],
        .inl ⟨target.ahead.synchronize, ?_⟩⟩
      exact List.forall_mem_append.2 ⟨target.findings, List.forall_mem_singleton.2 own⟩

/-! ## Statements with statements in them -/

/-- A condition is placed, also if it is missing. -/
theorem spans_getD {start : Cursor} {parsed : Parsed (Option Expr)}
    (places : parsed.PlacesExpr real final start) :
    ∀ span ∈ (parsed.value.getD .missing).spans, span.Within real := by
  cases value : parsed.value with
  | none => simp [Expr.spans]
  | some expr => exact (places.value expr value).spans

/-- The end of input is ahead or nothing is left. -/
theorem Accounts.left {findings : List Finding} {cursor : Cursor}
    (accounts : cursor.Accounts real final findings) : cursor.Open final ∨ cursor.rest = [] :=
  accounts.imp And.left And.left

/-- Skipping separators loses nothing. -/
theorem Accounts.skipSeparators {findings : List Finding} {cursor : Cursor}
    (accounts : cursor.Accounts real final findings) :
    cursor.skipSeparators.Accounts real final findings := by
  rcases accounts with ⟨ahead, within⟩ | ⟨spent, lost⟩
  · exact .inl ⟨ahead.skipWhile rfl, within⟩
  · obtain ⟨rest, last⟩ := cursor
    obtain rfl : rest = [] := spent
    exact .inr ⟨rfl, lost⟩

/-- A token ahead is not behind the end of input. -/
theorem open_of_cons {token : Token} {rest : List Token} {last : Position}
    (left : (Cursor.mk (token :: rest) last).Open final ∨
      (Cursor.mk (token :: rest) last).rest = []) :
    (Cursor.mk (token :: rest) last).Open final := by
  rcases left with ahead | spent
  · exact ahead
  · cases spent

/-- A statement is placed wherever reading it starts before the end of input. -/
def PlacesStmt (real : Position → Prop) (final : Token) (cursor : Cursor) : Prop :=
  cursor.Placed real → cursor.Open final → cursor.kind ≠ .endOfInput →
    cursor.statement.Places real final cursor (stmtSpans cursor.statement.value.toList)

/-- What is further to a conditional is placed wherever reading it starts. -/
def ContinuesBranches (real : Position → Prop) (final : Token) (cursor : Cursor) : Prop :=
  cursor.Placed real → cursor.Open final ∨ cursor.rest = [] →
    cursor.Continues real final
      (branchSpans cursor.branches.value.1 ++ cursor.branches.value.2.spans)
      cursor.branches.findings cursor.branches.cursor

section Smaller

-- What is nested in a statement is read at cursors with fewer tokens left.
variable {bound : Nat}
  (smaller : ∀ other : Cursor, other.size < bound → other.PlacesStmt real final)

include smaller

/-- Statements with separators between them are placed, and lose the end of input with the first
that does. -/
theorem continues_statements {inBraces : Bool} {cursor : Cursor} (within : cursor.size < bound)
    (placed : cursor.Placed real) (left : cursor.Open final ∨ cursor.rest = []) :
    cursor.Continues real final (stmtSpans (cursor.statements inBraces).value)
      (cursor.statements inBraces).findings (cursor.statements inBraces).cursor := by
  -- Every statement consumes a token, so fewer are left for those behind it.
  induction length : cursor.size using Nat.strongRecOn generalizing cursor with
  | ind size ih =>
    obtain ⟨tokens, last⟩ := cursor
    cases tokens with
    | nil =>
      rw [statements_nil]
      exact placed.continues
    | cons token rest =>
      have ahead := open_of_cons left
      by_cases stops : token.kind = .endOfInput ∨ (inBraces = true ∧ token.kind = .rightBrace)
      · rw [statements_cons, if_pos stops]
        exact placed.continues
      · rw [statements_cons, if_neg stops]
        have stmt := smaller _ within placed ahead fun ends => stops (.inl ends)
        have skipped := stmt.moves.placed.skipWhile isSeparator
        have accounts := stmt.accounts.skipSeparators
        have shorter : (statement ⟨token :: rest, last⟩).cursor.skipSeparators.size < size := by
          rw [← length]
          exact Nat.lt_of_le_of_lt (size_skipSeparators_le _)
            ((consumes_statement ⟨token :: rest, last⟩).2 (Nat.succ_pos _))
        have others := ih _ shorter (Nat.lt_trans (length ▸ shorter) within) skipped.placed
          accounts.left rfl
        refine .of_open ahead (stmt.moves.trans (skipped.trans others.moves)) ?_
          (accounts.continue others)
        rw [stmtSpans_append]
        exact List.forall_mem_append.2 ⟨stmt.spans, others.spans⟩

/-- A braced block is placed, closed or not. -/
theorem places_braced {brace : Token} {rest : List Token} {last : Position}
    (within : (Cursor.mk rest brace.span.stop).size < bound)
    (placed : (Cursor.mk (brace :: rest) last).Placed real)
    (ahead : (Cursor.mk rest brace.span.stop).Open final) :
    ((Cursor.mk rest brace.span.stop).braced brace).Places real final ⟨rest, brace.span.stop⟩
      (((Cursor.mk rest brace.span.stop).braced brace).value.1
        :: stmtSpans ((Cursor.mk rest brace.span.stop).braced brace).value.2) := by
  rw [braced_eq]
  have skipped := placed.step.placed.skipWhile isSeparator
  have still : (Cursor.mk rest brace.span.stop).skipSeparators.Open final := ahead.skipWhile rfl
  have less := Nat.lt_of_le_of_lt (size_skipSeparators_le ⟨rest, brace.span.stop⟩) within
  have inside : Continues real final (Cursor.mk rest brace.span.stop).skipSeparators
      (stmtSpans ((Cursor.mk rest brace.span.stop).skipSeparators.statements true).value) _ _ :=
    continues_statements smaller less skipped.placed (.inl still)
  have accounts := inside.ahead still
  have close := inside.moves.placed.continues_expect accounts.left
  have moves := skipped.trans (inside.moves.trans close.moves)
  refine ⟨moves, ?_, accounts.continue close⟩
  exact List.forall_mem_cons.2 ⟨within_from placed moves, inside.spans⟩

/-- The body of a branch or loop is placed. -/
theorem places_body {cursor : Cursor} (within : cursor.size < bound) (placed : cursor.Placed real)
    (ahead : cursor.Open final) : cursor.body.Places real final cursor cursor.body.value.spans := by
  obtain ⟨tokens, last⟩ := cursor
  cases tokens with
  | nil =>
    obtain ⟨rest, parts⟩ := ahead.cons
    cases parts
  | cons token rest =>
    have here := placed.tokens token List.mem_cons_self
    rw [body_cons]
    by_cases opens : token.kind = .leftBrace
    · rw [if_pos opens]
      have behind := ahead.step (by simp [opens]) token.span.stop
      have block := places_braced smaller (Nat.lt_of_succ_lt within) placed behind
      refine ⟨placed.step.trans block.moves, ?_, block.accounts⟩
      rw [Block.spans]
      exact block.spans
    · rw [if_neg opens]
      by_cases ends : endsBody token.kind = true
      · rw [if_pos ends]
        refine ⟨placed.moves, ?_, .inl ⟨ahead, List.forall_mem_singleton.2 here⟩⟩
        rw [Block.spans, stmtSpans]
        exact List.forall_mem_singleton.2 here
      · rw [if_neg ends]
        have ongoing : token.kind ≠ .endOfInput := by
          intro final
          rw [final] at ends
          exact ends (by decide)
        have stmt := smaller _ within placed ahead ongoing
        -- The statement consumed the token, so it ended behind it.
        have passed : token.span.start.offset
            ≤ (statement ⟨token :: rest, last⟩).cursor.last.offset := by
          rcases stmt.moves.passed with same | passed
          · have less := (consumes_statement ⟨token :: rest, last⟩).2 (Nat.succ_pos _)
            rw [size, size, same] at less
            exact absurd less (Nat.lt_irrefl _)
          · exact passed
        refine ⟨stmt.moves, ?_, stmt.accounts⟩
        rw [Block.spans]
        exact List.forall_mem_cons.2
          ⟨⟨here.start, stmt.moves.placed.last, passed⟩, stmt.spans⟩

/-- A branch is placed, with or without its condition. -/
theorem places_branch {word : Token} {rest : List Token} {last : Position}
    (within : (Cursor.mk rest word.span.stop).size < bound)
    (placed : (Cursor.mk (word :: rest) last).Placed real)
    (ahead : (Cursor.mk rest word.span.stop).Open final) :
    ((Cursor.mk rest word.span.stop).branch word).Places real final ⟨rest, word.span.stop⟩
      (branchSpans [((Cursor.mk rest word.span.stop).branch word).value]) := by
  rw [branch_eq]
  have condition := places_requiredExpression placed.step.placed ahead
  have less := Nat.lt_of_le_of_lt (size_requiredExpression_le ⟨rest, word.span.stop⟩) within
  have body := places_body smaller less condition.moves.placed condition.ahead
  have moves := condition.moves.trans body.moves
  refine ⟨moves, ?_, body.accounts.prepend condition.findings⟩
  rw [branchSpans, branchSpans, List.append_nil]
  refine List.forall_mem_cons.2 ⟨within_from placed moves, ?_⟩
  exact List.forall_mem_append.2 ⟨spans_getD condition, body.spans⟩

/-- A branch with what is further to it is placed. -/
theorem places_chain {word : Token} {rest : List Token} {last : Position}
    (within : (Cursor.mk rest word.span.stop).size < bound)
    (placed : (Cursor.mk (word :: rest) last).Placed real)
    (ahead : (Cursor.mk rest word.span.stop).Open final)
    (later : ∀ other : Cursor, other.size ≤ (Cursor.mk rest word.span.stop).size →
      other.ContinuesBranches real final) :
    let first := (Cursor.mk rest word.span.stop).branch word
    let others := first.cursor.branches
    (Parsed.mk (first.value :: others.value.1, others.value.2) others.cursor
      (first.findings ++ others.findings)).Places real final ⟨rest, word.span.stop⟩
      (branchSpans (first.value :: others.value.1) ++ others.value.2.spans) := by
  intro first others
  have branch := places_branch smaller within placed ahead
  have continues := later _ (size_branch_le word ⟨rest, word.span.stop⟩) branch.moves.placed
    branch.accounts.left
  refine ⟨branch.moves.trans continues.moves, ?_, branch.accounts.continue continues⟩
  rw [branchSpans_cons, List.append_assoc]
  exact List.forall_mem_append.2 ⟨branch.spans, continues.spans⟩

/-- The further branches of a conditional are placed. -/
theorem continuesBranches {cursor : Cursor} (within : cursor.size < bound) :
    cursor.ContinuesBranches real final := by
  -- Every further branch stands behind its word: `elseif`, or `else` with or without an `if`.
  induction length : cursor.size using Nat.strongRecOn generalizing cursor with
  | ind size ih =>
    intro placed left
    by_cases opens : Token.opensBranch cursor.rest = true
    · obtain ⟨gap, word, rest, reached, -, parts, skips, kind⟩ := skipNewlines_of_opensBranch opens
      have ahead : cursor.Open final := by
        rcases left with ahead | spent
        · exact ahead
        · simp [spent] at parts
      have skipped : cursor.Moves real ⟨word :: rest, reached⟩ := by
        rw [← skips]
        exact placed.skipWhile _
      have still : (Cursor.mk (word :: rest) reached).Open final := by
        rw [← skips]
        exact ahead.skipWhile rfl
      have shorter : rest.length < cursor.size := by
        rw [Cursor.size, parts, List.length_append, List.length_cons]
        omega
      have later (others : List Token) (less : others.length < cursor.size) (other : Cursor)
          (le : other.size ≤ others.length) : other.ContinuesBranches real final :=
        ih _ (length ▸ Nat.lt_of_le_of_lt le less)
          (Nat.lt_trans (Nat.lt_of_le_of_lt le less) within) rfl
      rcases kind with kind | kind
      · have behind := still.step (by simp [kind]) word.span.stop
        have chain := places_chain smaller (Nat.lt_trans shorter within) skipped.placed behind
          (later rest shorter)
        rw [branches_of_elseif skips kind]
        exact .of_open ahead (skipped.trans (skipped.placed.step.trans chain.moves)) chain.spans
          chain.accounts
      · have behind := still.step (by simp [kind]) word.span.stop
        have step := skipped.placed.step
        by_cases next : Token.headKind rest = .ifWord
        · obtain ⟨second, others, rfl, if_kind⟩ := Token.cons_of_headKind next (by decide)
          have inner := behind.step (by simp [if_kind]) second.span.stop
          have less : others.length < cursor.size := Nat.lt_of_succ_lt shorter
          have chain := places_chain smaller (Nat.lt_trans less within) step.placed inner
            (later others less)
          rw [branches_of_elseIf skips kind if_kind]
          exact .of_open ahead
            (skipped.trans (step.trans (step.placed.step.trans chain.moves))) chain.spans
            chain.accounts
        · have body := places_body smaller (Nat.lt_trans shorter within) step.placed behind
          rw [branches_of_else skips kind next]
          exact .of_open ahead (skipped.trans (step.trans body.moves)) body.spans body.accounts
    · rw [Bool.not_eq_true] at opens
      have stays : cursor.branches = ⟨([], .absent), cursor, []⟩ :=
        branches_of_not_opensBranch opens cursor.last
      rw [stays]
      exact placed.continues

end Smaller

/-- The warning about an endless loop is placed at its word and condition. -/
theorem within_loopWarnings {word : Token} (here : word.span.Within real) {start : Cursor}
    {parsed : Parsed (Option Expr)} (places : parsed.PlacesExpr real final start) :
    ∀ finding ∈ loopWarnings word parsed.value, finding.span.Within real := by
  cases value : parsed.value with
  | none => simp [loopWarnings]
  | some expr =>
    have tree := places.value expr value
    have own := tree.spans _ tree.own
    unfold loopWarnings
    split
    · rename_i span same
      obtain rfl := Option.some.inj same
      exact List.forall_mem_singleton.2 (here.join own)
    · simp

/-- Every statement is placed. -/
theorem placesStmt (cursor : Cursor) : cursor.PlacesStmt real final := by
  -- By the number of tokens left: every nested statement stands behind the token that opens it.
  induction length : cursor.size using Nat.strongRecOn generalizing cursor with
  | ind size ih =>
    have smaller (other : Cursor) (less : other.size < cursor.size) :
        other.PlacesStmt real final :=
      ih _ (length ▸ less) other rfl
    intro placed ahead ongoing
    obtain ⟨tokens, last⟩ := cursor
    cases tokens with
    | nil =>
      obtain ⟨rest, parts⟩ := ahead.cons
      cases parts
    | cons token rest =>
      have here := placed.tokens token List.mem_cons_self
      have step := placed.step
      have behind := ahead.step ongoing token.span.stop
      have within : (Cursor.mk rest token.span.stop).size < (Cursor.mk (token :: rest) last).size :=
        Nat.lt_succ_self _
      rw [statement_cons]
      cases kind : token.kind with
      | ifWord =>
        have chain := places_chain smaller within placed behind
          fun other le => continuesBranches smaller (Nat.lt_of_le_of_lt le within)
        refine ⟨step.trans chain.moves, ?_, chain.accounts⟩
        have own := within_from placed chain.moves
        simpa [stmtSpans, Stmt.spans, spanFrom] using And.intro own chain.spans
      | whileWord =>
        have condition := places_requiredExpression step.placed behind
        have less := Nat.lt_of_le_of_lt (size_requiredExpression_le ⟨rest, token.span.stop⟩) within
        have body := places_body smaller less condition.moves.placed condition.ahead
        have moves := condition.moves.trans body.moves
        have reported := List.forall_mem_append.2
          ⟨condition.findings, within_loopWarnings here condition⟩
        refine ⟨step.trans moves, ?_, body.accounts.prepend reported⟩
        have own := within_from placed moves
        have inside := List.forall_mem_append.2 ⟨spans_getD condition, body.spans⟩
        simpa [stmtSpans, Stmt.spans, spanFrom] using And.intro own inside
      | consoleWord => exact places_consoleStatement placed behind
      | leftBrace =>
        have block := places_braced smaller within placed behind
        refine ⟨step.trans block.moves, ?_, block.accounts⟩
        simpa [stmtSpans, Stmt.spans] using block.spans
      | _ => exact places_assignment placed ahead ongoing

/-! ## Programs -/

/-- The statements of a program are read up to the end of input. -/
theorem statements_ends (cursor : Cursor) :
    (cursor.statements false).cursor.kind = .endOfInput := by
  induction length : cursor.size using Nat.strongRecOn generalizing cursor with
  | ind size ih =>
    obtain ⟨tokens, last⟩ := cursor
    cases tokens with
    | nil =>
      rw [statements_nil]
      rfl
    | cons token rest =>
      rw [statements_cons]
      by_cases ends : token.kind = .endOfInput
      · rw [if_pos (.inl ends)]
        exact ends
      · rw [if_neg (by simp [ends])]
        refine ih _ ?_ _ rfl
        rw [← length]
        exact Nat.lt_of_le_of_lt (size_skipSeparators_le _)
          ((consumes_statement ⟨token :: rest, last⟩).2 (Nat.succ_pos _))

/-- Before a list of tokens in order, a cursor is placed. -/
theorem placed_ofTokens {tokens : List Token} (some_token : tokens ≠ [])
    (within : ∀ token ∈ tokens, token.span.Within real)
    (ordered : tokens.Pairwise fun first second =>
      first.span.stop.offset ≤ second.span.start.offset) : (ofTokens tokens).Placed real := by
  cases tokens with
  | nil => exact absurd rfl some_token
  | cons token rest =>
    have here := within token List.mem_cons_self
    have after := (List.pairwise_cons.1 ordered).1
    refine ⟨here.start, within, ?_, ordered⟩
    exact List.forall_mem_cons.2
      ⟨Int.le_refl _, fun other member => Int.le_trans here.le (after other member)⟩

end Cursor

/-- What is read from a list of tokens is placed, and the program ends with the end of input, unless
that was lost. -/
theorem Parsing.places_read {real : Position → Prop} {marks : List Token} {final : Token}
    (ongoing : Token.Ongoing marks) (final_kind : final.kind = .endOfInput)
    (within : ∀ token ∈ marks ++ [final], token.span.Within real)
    (ordered : (marks ++ [final]).Pairwise fun first second =>
      first.span.stop.offset ≤ second.span.start.offset) :
    let parsing := read (marks ++ [final])
    (∀ span ∈ stmtSpans parsing.program.stmts, span.Within real) ∧
      real parsing.program.span.start ∧
      (((∀ finding ∈ parsing.findings, finding.span.Within real) ∧
          parsing.program.span.Within real ∧ parsing.program.span.stop = final.span.stop) ∨
        (parsing.program.span.stop = .unset ∧
          Finding.Lost real final.span parsing.findings)) := by
  intro parsing
  have placed := Cursor.placed_ofTokens (by simp) within ordered
  have ahead : (Cursor.ofTokens (marks ++ [final])).Open final := ⟨final_kind, marks, ongoing, rfl⟩
  have first := ahead.peek_within placed
  have skipped := placed.skipWhile Cursor.isSeparator
  have still : (Cursor.ofTokens (marks ++ [final])).skipSeparators.Open final := ahead.skipWhile rfl
  have stmts : Cursor.Continues real final (Cursor.ofTokens (marks ++ [final])).skipSeparators
      (stmtSpans ((Cursor.ofTokens (marks ++ [final])).skipSeparators.statements false).value)
      _ _ :=
    Cursor.continues_statements (fun other _ => other.placesStmt) (Nat.lt_succ_self _)
      skipped.placed (.inl still)
  refine ⟨stmts.spans, first.start, ?_⟩
  rcases stmts.ahead still with ⟨open_behind, reported⟩ | ⟨spent, lost⟩
  · have only := open_behind.rest_eq (Cursor.statements_ends _)
    have stop : parsing.program.span.stop = final.span.stop := by
      show (Cursor.peek _).span.stop = _
      rw [Cursor.peek, only]
      rfl
    have last := within final (List.mem_append_right _ List.mem_cons_self)
    have low : parsing.program.span.start.offset ≤ final.span.start.offset :=
      placed.behind final (List.mem_append_right _ List.mem_cons_self)
    refine .inl ⟨reported, ⟨first.start, ?_, ?_⟩, stop⟩
    · rw [stop]
      exact last.stop
    · rw [stop]
      exact Int.le_trans low last.le
  · refine .inr ⟨?_, lost⟩
    show (Cursor.peek _).span.stop = _
    rw [Cursor.peek, spent]
    rfl

/-- **Reported positions are real, unless the end of the source was lost.** For every source, the
findings of the lexer, the statements of the program with everything in them, and the beginning of
the program stand at positions of the source. So do the findings of the parser and the end of the
program, which is the end of the source; or else an expression or operand is missing at the very end
of the source, the program has no end, and of the findings only those about missing closing braces
may be without a place. -/
theorem reported_positions (source file : Bytes) :
    let lexing := Lexing.read source file
    let parsing := Parsing.read lexing.tokens
    let stop := (Position.start file).after source
    (∀ finding ∈ lexing.findings, finding.span.Within (Position.RealIn source file)) ∧
      (∀ span ∈ stmtSpans parsing.program.stmts, span.Within (Position.RealIn source file)) ∧
      parsing.program.span.start.RealIn source file ∧
      (((∀ finding ∈ parsing.findings, finding.span.Within (Position.RealIn source file)) ∧
          parsing.program.span.Within (Position.RealIn source file) ∧
          parsing.program.span.stop.offset = source.length) ∨
        (parsing.program.span.stop = .unset ∧
          Finding.Lost (Position.RealIn source file) ⟨stop, stop⟩ parsing.findings)) := by
  intro lexing parsing stop
  have tiles : Tiles (.start file) source lexing.tokens :=
    Lexing.tiles_readFrom (.start file) source
  have final_kind : (Token.mk .endOfInput [] ⟨stop, stop⟩).kind = .endOfInput := rfl
  obtain ⟨stmts, start, outcome⟩ := Parsing.places_read (Lexing.ongoing_marks (.start file) source)
    final_kind (fun _ => Lexing.within_tokens) tiles.ordered
  refine ⟨fun _ => Lexing.within_findings, stmts, start, ?_⟩
  rcases outcome with ⟨reported, whole, ends⟩ | lost
  · refine .inl ⟨reported, whole, ?_⟩
    have offset : stop.offset = source.length := by
      rw [Position.offset_after, Position.start, Int.zero_add]
    rw [← offset]
    exact congrArg Position.offset ends
  · exact .inr lost

/-- A minus sign alone loses the end: the program of the source `-` has an end that was never set,
which is no position of the source. -/
theorem reported_positions_minus :
    (Parsing.read (Lexing.read (Bytes.utf8 "-") []).tokens).program.span
        = ⟨⟨[], 0, 1, 1⟩, .unset⟩ ∧
      ¬Position.unset.RealIn (Bytes.utf8 "-") [] := by
  have tokens : (Lexing.read (Bytes.utf8 "-") []).tokens
      = [⟨.minus, [0x2d], ⟨⟨[], 0, 1, 1⟩, ⟨[], 1, 1, 2⟩⟩⟩,
        ⟨.endOfInput, [], ⟨⟨[], 1, 1, 2⟩, ⟨[], 1, 1, 2⟩⟩⟩] := by
    cbv
  constructor
  · rw [tokens]
    simp [Parsing.read, Cursor.ofTokens, Cursor.skipSeparators, Cursor.skipWhile,
      Cursor.skipWhile.go, Cursor.isSeparator, Cursor.statements_cons, Cursor.statement_cons,
      Cursor.assignment, Cursor.expression_eq, Cursor.operand_cons, Cursor.synchronize,
      Cursor.peek, Cursor.kind]
    rfl
  · intro is_real
    exact absurd is_real.line_eq (by decide)

end ConsoleScript
