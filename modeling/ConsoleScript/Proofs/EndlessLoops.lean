import ConsoleScript.Proofs.ReadingEnds
import ConsoleScript.Proofs.RunProgress

/-! # Loops without end

A loop whose condition is the literal for truth is reported when it is read, and it never comes to
its end when it is run.

* **`OpenedLoop`** — a loop of a tree with the token that opens it, and **`OpenedLoop.warning?`**,
  the warning that is due for it;
* **`Warned`** — what a reader consumed, the statements that it gave and its findings fit together:
  every loop has been opened by a token of its own, in order, and just the warnings that are due
  were given;
* **`StatementCall.warns_read`** — every reader does so, since every step of a reader keeps it: what
  is left out as erroneous is no loop and has none in it;
* **`Stmt.NeverCompletes`** — a statement has no end or fails. A loop ends only where its condition
  fails to hold (**`condition_of_repeatWhile`**), so one of the literal for truth never completes.

`loop_warnings_exact` puts these together. -/

namespace ConsoleScript

/-! ## Loops and their warnings -/

/-- A loop of a tree with the token that opens it. -/
structure OpenedLoop where
  /-- The token that opens the loop. -/
  word : Token
  /-- The place of the loop. -/
  span : Span
  /-- The condition of the loop. -/
  condition : Expr
  /-- The token is the word for loops. -/
  kind : word.kind = .whileWord
  /-- The loop begins where the token does. -/
  start : span.start = word.span.start

/-- The place and the condition of a statement that is a loop. -/
def Stmt.loop? : Stmt → Option (Span × Expr)
  | .loop span condition _ => some (span, condition)
  | _ => none

/-- The places and conditions of the loops in a program, each loop before those in its body. -/
def Program.loops (program : Program) : List (Span × Expr) :=
  (stmtParts program.stmts).filterMap Stmt.loop?

namespace OpenedLoop

/-- The place and the condition of a loop. -/
def node (loop : OpenedLoop) : Span × Expr :=
  (loop.span, loop.condition)

/-- The warning that is due for a loop: its condition is directly the literal for truth. -/
def warning? (loop : OpenedLoop) : Option Finding :=
  match loop.condition with
  | .boolean literal true => some ⟨.endlessLoop, loop.word.span.join literal⟩
  | _ => none

end OpenedLoop

namespace Finding

/-- Whether a finding is about a loop without end. -/
def isEndless (finding : Finding) : Bool :=
  finding.complaint = .endlessLoop

/-- No finding is about a loop without end. -/
def Quiet (findings : List Finding) : Prop :=
  ∀ finding ∈ findings, finding.complaint ≠ .endlessLoop

theorem Quiet.append {findings more : List Finding} (first : Quiet findings) (second : Quiet more) :
    Quiet (findings ++ more) :=
  List.forall_mem_append.2 ⟨first, second⟩

theorem quiet_nil : Quiet [] :=
  fun _ none => absurd none List.not_mem_nil

theorem quiet_singleton {complaint : Complaint} (other : complaint ≠ .endlessLoop) (span : Span) :
    Quiet [⟨complaint, span⟩] :=
  List.forall_mem_singleton.2 other

theorem Quiet.filter_eq {findings : List Finding} (quiet : Quiet findings) :
    findings.filter isEndless = [] :=
  List.filter_eq_nil_iff.2 fun finding member => by simp [isEndless, quiet finding member]

end Finding

/-! ## Readers that give no warning -/

open Finding (Quiet quiet_nil quiet_singleton)

/-- A missing expression is no loop. -/
theorem Parsed.quiet_required {parsed : Parsed (Option Expr)} (quiet : Quiet parsed.findings)
    (start : Cursor) : Quiet (parsed.required start).findings := by
  rw [required]
  split
  · exact quiet
  · exact quiet.append (quiet_singleton (by simp) _)

namespace Cursor

theorem quiet_expect (wanted : TokenKind) (cursor : Cursor) :
    Quiet (cursor.expect wanted).findings := by
  rw [expect]
  split
  · exact quiet_nil
  · exact quiet_singleton (by simp) _

end Cursor

namespace ExpressionCall

/-- A call does not warn about loops. -/
def IsQuiet (_ : ExpressionCall) (parsed : Parsed (Option Expr)) : Prop :=
  Quiet parsed.findings

theorem quiet_expression {floor : Nat} {cursor : Cursor} {parsed : Parsed (Option Expr)}
    (step : ExpressionStep IsQuiet floor cursor parsed) : Quiet parsed.findings := by
  cases step with
  | missing first => exact first
  | continued first further => exact Quiet.append first further

theorem quiet_continuation {floor : Nat} {left : Expr} {cursor : Cursor}
    {parsed : Parsed (Option Expr)} (step : ContinuationStep IsQuiet floor left cursor parsed) :
    Quiet parsed.findings := by
  cases step with
  | done => exact quiet_nil
  | missing _ right => exact Quiet.append right (quiet_singleton (by simp) _)
  | joined _ right further => exact Quiet.append right further

theorem quiet_operand {cursor : Cursor} {parsed : Parsed (Option Expr)}
    (step : OperandStep IsQuiet cursor parsed) : Quiet parsed.findings := by
  cases step with
  | absent | text | boolean | nil | name => exact quiet_nil
  | number =>
    dsimp only
    split
    · exact quiet_nil
    · exact quiet_singleton (by simp) _
  | unsigned _ inner | unenclosed _ _ inner =>
    exact Quiet.append inner (quiet_singleton (by simp) _)
  | signed _ inner => exact inner
  | enclosed _ inner closes => exact Quiet.append inner (closes ▸ Cursor.quiet_expect _ _)

/-- No reader of expressions warns about loops. -/
theorem quiet_read (call : ExpressionCall) : Quiet call.read.findings := by
  refine read_induction (motive := IsQuiet) (fun call => ⟨none, call.cursor, []⟩)
    (fun _ => quiet_nil) (fun call parsed step => ?_) call
  cases call with
  | expression floor cursor => exact quiet_expression step
  | continuation floor left cursor => exact quiet_continuation step
  | operand cursor => exact quiet_operand step

end ExpressionCall

namespace Cursor

theorem quiet_expression (floor : Nat) (cursor : Cursor) :
    Quiet (cursor.expression floor).findings :=
  (ExpressionCall.expression floor cursor).quiet_read

theorem quiet_requiredExpression (cursor : Cursor) : Quiet cursor.requiredExpression.findings :=
  Parsed.quiet_required (cursor.quiet_expression 0) cursor

theorem quiet_consoleStatement (word : Token) (cursor : Cursor) :
    Quiet (cursor.consoleStatement word).findings := by
  rw [consoleStatement]
  split <;> exact cursor.quiet_requiredExpression

theorem quiet_assignedValue (start : Position) (name : Bytes) (cursor : Cursor) :
    Quiet (cursor.assignedValue start name).findings := by
  rw [assignedValue]
  split <;> exact cursor.quiet_requiredExpression

theorem quiet_assignment (cursor : Cursor) : Quiet cursor.assignment.findings := by
  have target := cursor.quiet_expression 0
  rw [assignment]
  dsimp only
  split
  · exact target.append (quiet_singleton (by simp) _)
  · split
    · split
      · exact target.append (quiet_assignedValue _ _ _)
      · exact target.append (quiet_singleton (by simp) _)
    · exact target.append (quiet_singleton (by simp) _)

end Cursor

/-! ## Readers that give the warnings that are due -/

/-- The reader of loops gives the warning that is due, also if the condition is missing. -/
theorem OpenedLoop.filter_loopWarnings (loop : OpenedLoop) {condition : Option Expr}
    (same : loop.condition = condition.getD .missing) :
    (Cursor.loopWarnings loop.word condition).filter Finding.isEndless = loop.warning?.toList := by
  rw [warning?, same]
  fun_cases Cursor.loopWarnings loop.word condition with
  | case1 literal => rfl
  | case2 condition other =>
    cases condition with
    | none => rfl
    | some expr =>
      cases expr with
      | boolean literal value =>
        cases value with
        | true => exact absurd rfl (other literal)
        | false => rfl
      | number | text | nil | name | unary | binary | paren | missing => rfl

/-- Between `start` and `stop` tokens were consumed for statements, `parts` being all of them: every
loop among these was opened by a consumed token, in order, and of the findings those about loops
without end are the warnings that are due. -/
def Warned (start stop : List Token) (parts : List Stmt) (findings : List Finding) : Prop :=
  ∃ (consumed : List Token) (loops : List OpenedLoop), start = consumed ++ stop ∧
    (loops.map OpenedLoop.word).Sublist consumed ∧
    loops.map OpenedLoop.node = parts.filterMap Stmt.loop? ∧
    findings.filter Finding.isEndless = loops.filterMap OpenedLoop.warning?

namespace Warned

variable {start middle stop : List Token} {parts others : List Stmt} {findings more : List Finding}

/-- Where no statement is read, no warning is due. -/
theorem nothing (forward : stop <:+ start) (quiet : Quiet findings) :
    Warned start stop [] findings := by
  obtain ⟨consumed, split⟩ := forward
  exact ⟨consumed, [], split.symm, List.nil_sublist _, rfl, quiet.filter_eq⟩

/-- One reader goes on where another one stopped. -/
theorem append (first : Warned start middle parts findings)
    (second : Warned middle stop others more) :
    Warned start stop (parts ++ others) (findings ++ more) := by
  obtain ⟨front, loops, rfl, among, nodes, warnings⟩ := first
  obtain ⟨back, rest, rfl, behind, further, due⟩ := second
  refine ⟨front ++ back, loops ++ rest, (List.append_assoc ..).symm, ?_, ?_, ?_⟩
  · rw [List.map_append]
    exact among.append behind
  · rw [List.map_append, List.filterMap_append, nodes, further]
  · rw [List.filter_append, List.filterMap_append, warnings, due]

/-- Tokens may be skipped before. -/
theorem skip (forward : middle <:+ start) (later : Warned middle stop parts findings) :
    Warned start stop parts findings :=
  (nothing forward quiet_nil).append later

/-- Tokens may be skipped behind, and findings made that are not about loops. -/
theorem skipAfter (first : Warned start middle parts findings) (forward : stop <:+ middle)
    (quiet : Quiet more) : Warned start stop parts (findings ++ more) := by
  simpa using first.append (nothing forward quiet)

/-- A statement that is no loop may hold the others. -/
theorem hold {stmt : Stmt} (other : stmt.loop? = none) (inside : Warned start stop parts findings) :
    Warned start stop (stmt :: parts) findings := by
  obtain ⟨consumed, loops, split, among, nodes, warnings⟩ := inside
  exact ⟨consumed, loops, split, among, by rw [nodes, List.filterMap_cons_none other], warnings⟩

/-- A loop holds the statements of its body. -/
theorem loop {word : Token} {span : Span} {body : Block} (kind : word.kind = .whileWord)
    (begins : span.start = word.span.start) (condition : Option Expr)
    (inside : Warned start stop parts findings) :
    Warned (word :: start) stop (.loop span (condition.getD .missing) body :: parts)
      (Cursor.loopWarnings word condition ++ findings) := by
  obtain ⟨consumed, loops, rfl, among, nodes, warnings⟩ := inside
  -- The loop is listed before those of its body, as its token and its warning stand before theirs.
  let opened : OpenedLoop := ⟨word, span, condition.getD .missing, kind, begins⟩
  refine ⟨word :: consumed, opened :: loops, rfl, among.cons_cons word, ?_, ?_⟩
  · simp [opened, OpenedLoop.node, Stmt.loop?, nodes]
  · rw [List.filter_append, opened.filter_loopWarnings rfl, warnings]
    cases due : opened.warning? with
    | none => rw [List.filterMap_cons_none due]; rfl
    | some warning => rw [List.filterMap_cons_some due]; rfl

end Warned

theorem stmtParts_append (stmts more : List Stmt) :
    stmtParts (stmts ++ more) = stmtParts stmts ++ stmtParts more := by
  induction stmts with
  | nil => rfl
  | cons stmt rest ih => rw [List.cons_append, stmtParts, stmtParts, ih, List.append_assoc]

theorem stmtParts_singleton (stmt : Stmt) : stmtParts [stmt] = stmt.parts := by
  rw [stmtParts, stmtParts, List.append_nil]

theorem branchParts_cons (branch : Branch) (branches : List Branch) :
    branchParts (branch :: branches) = branch.body.parts ++ branchParts branches := by
  obtain ⟨span, condition, body⟩ := branch
  rw [branchParts, Branch.body]

/-- An assignment or a console statement, or none, is no loop. -/
theorem Warned.single {start stop : List Token} {found : Option Stmt} {findings : List Finding}
    (simple : ∀ stmt, found = some stmt → stmt.parts = [stmt] ∧ stmt.loop? = none)
    (forward : stop <:+ start) (quiet : Quiet findings) :
    Warned start stop (stmtParts found.toList) findings := by
  cases found with
  | none => exact .nothing forward quiet
  | some stmt =>
    obtain ⟨alone, other⟩ := simple stmt rfl
    rw [Option.toList, stmtParts, alone]
    exact (Warned.nothing forward quiet).hold other

namespace Cursor

theorem warned_consoleStatement (word : Token) (cursor : Cursor) :
    Warned cursor.rest (cursor.consoleStatement word).cursor.rest
      (stmtParts (cursor.consoleStatement word).value.toList)
      (cursor.consoleStatement word).findings := by
  refine .single ?_ (cursor.suffix_consoleStatement word) (cursor.quiet_consoleStatement word)
  intro stmt found
  rw [consoleStatement] at found
  split at found
  · cases found
  · cases found
    exact ⟨rfl, rfl⟩

theorem warned_assignment (cursor : Cursor) :
    Warned cursor.rest cursor.assignment.cursor.rest (stmtParts cursor.assignment.value.toList)
      cursor.assignment.findings := by
  refine .single ?_ cursor.suffix_assignment cursor.quiet_assignment
  intro stmt found
  rw [assignment] at found
  dsimp only at found
  split at found
  · cases found
  · split at found
    · split at found
      · rw [assignedValue] at found
        dsimp only at found
        split at found
        · cases found
        · cases found
          exact ⟨rfl, rfl⟩
      · cases found
    · cases found

end Cursor

namespace StatementCall

/-- What a reader of statements gives fits together with what it consumed and found. -/
def Warns : (call : StatementCall) → Parsed call.Result → Prop
  | statement cursor, parsed =>
    Warned cursor.rest parsed.cursor.rest (stmtParts parsed.value.toList) parsed.findings
  | branch _ cursor, parsed =>
    Warned cursor.rest parsed.cursor.rest parsed.value.body.parts parsed.findings
  | branches cursor, parsed =>
    Warned cursor.rest parsed.cursor.rest (branchParts parsed.value.1 ++ parsed.value.2.parts)
      parsed.findings
  | body cursor, parsed => Warned cursor.rest parsed.cursor.rest parsed.value.parts parsed.findings
  | braced _ cursor, parsed =>
    Warned cursor.rest parsed.cursor.rest (stmtParts parsed.value.2) parsed.findings
  | statements _ cursor, parsed =>
    Warned cursor.rest parsed.cursor.rest (stmtParts parsed.value) parsed.findings

/-- Behind a branch, what is further to it is read. -/
theorem warns_chain {word : Token} {start : Cursor} {chain : Parsed (List Branch × Block)}
    (step : ChainStep Warns word start chain) :
    Warned start.rest chain.cursor.rest (branchParts chain.value.1 ++ chain.value.2.parts)
      chain.findings := by
  cases step with
  | linked opening further =>
    rw [branchParts_cons, List.append_assoc]
    exact Warned.append opening further

theorem warns_statement {cursor : Cursor} {parsed : Parsed (Option Stmt)}
    (step : StatementStep Warns cursor parsed) : (statement cursor).Warns parsed := by
  have behind {token : Token} {rest : List Token} : rest <:+ token :: rest :=
    List.suffix_cons token rest
  cases step with
  | assignment => exact cursor.warned_assignment
  | conditional _ linked =>
    dsimp only [Warns]
    rw [Option.toList, stmtParts_singleton, Stmt.parts]
    exact ((warns_chain linked).skip behind).hold rfl
  | @loop word rest last condition repeated kind tested body =>
    -- What is found in the condition comes before the warning, and that before the body.
    subst tested
    let start := Cursor.mk rest word.span.stop
    have inside := Warned.skip start.suffix_requiredExpression body
    dsimp only [Warns]
    rw [Option.toList, stmtParts_singleton, Stmt.parts, List.append_assoc]
    refine Warned.append (.nothing (List.suffix_refl _) start.quiet_requiredExpression)
      (inside.loop kind ?_ start.requiredExpression.value)
    rfl
  | @console word rest =>
    exact ((Cursor.mk rest word.span.stop).warned_consoleStatement word).skip behind
  | block _ content =>
    dsimp only [Warns]
    rw [Option.toList, stmtParts_singleton, Stmt.parts]
    exact (Warned.skip behind content).hold rfl

theorem warns_branch {word : Token} {cursor : Cursor} {parsed : Parsed Branch}
    (step : BranchStep Warns word cursor parsed) : (branch word cursor).Warns parsed := by
  cases step with
  | guarded body =>
    exact Warned.append (.nothing cursor.suffix_requiredExpression cursor.quiet_requiredExpression)
      body

theorem warns_branches {cursor : Cursor} {parsed : Parsed (List Branch × Block)}
    (step : BranchesStep Warns cursor parsed) : (branches cursor).Warns parsed := by
  cases step with
  | absent => exact .nothing (List.suffix_refl _) quiet_nil
  | further opens linked => exact (warns_chain linked).skip opens.suffix
  | otherwise ahead _ _ content => exact Warned.skip (Cursor.suffix_of_skipNewlines ahead) content

theorem warns_body {cursor : Cursor} {parsed : Parsed Block} (step : BodyStep Warns cursor parsed) :
    (body cursor).Warns parsed := by
  cases step with
  | missing => exact .nothing (List.suffix_refl _) (quiet_singleton Complaint.noConfusion _)
  | block _ content => exact Warned.skip (List.suffix_cons _ _) content
  | single _ content => exact content

theorem warns_braced {brace : Token} {cursor : Cursor} {parsed : Parsed (Span × List Stmt)}
    (step : BracedStep Warns brace cursor parsed) : (braced brace cursor).Warns parsed := by
  cases step with
  | closed content closes =>
    subst closes
    exact (Warned.skip (Cursor.suffix_skipWhile _ cursor) content).skipAfter
      (Cursor.suffix_expect _ _) (Cursor.quiet_expect _ _)

/-- Erroneous assignments and console statements are left out, but no loop is. -/
theorem warns_statements {inBraces : Bool} {cursor : Cursor} {parsed : Parsed (List Stmt)}
    (step : StatementsStep Warns inBraces cursor parsed) :
    (statements inBraces cursor).Warns parsed := by
  cases step with
  | ended => exact .nothing (List.suffix_refl _) quiet_nil
  | more _ first further =>
    dsimp only [Warns]
    rw [stmtParts_append]
    exact Warned.append first (Warned.skip (Cursor.suffix_skipWhile _ _) further)

/-- Every reader of statements gives the warnings that are due. -/
theorem warns_read (call : StatementCall) : call.Warns call.read := by
  refine read_induction (motive := Warns) idle ?_ (fun call parsed step => ?_) call
  · intro other
    cases other <;> exact .nothing (List.suffix_refl _) quiet_nil
  cases call with
  | statement cursor => exact warns_statement step
  | branch word cursor => exact warns_branch step
  | branches cursor => exact warns_branches step
  | body cursor => exact warns_body step
  | braced brace cursor => exact warns_braced step
  | statements inBraces cursor => exact warns_statements step

end StatementCall

/-! ## Running loops without end -/

/-- A loop comes to its end only where its condition fails to hold. -/
theorem condition_of_repeatWhile {condition : State → Except Failure Bool}
    {body : State → Outcome Value} {fuel rounds count : Nat} {state after : State}
    (ends : repeatWhile fuel condition body rounds state = .done count after) :
    condition after = .ok false := by
  -- By the tests that are left: each one either goes on or is the last.
  induction fuel generalizing rounds state with
  | zero => cases ends
  | succ fuel ih =>
    rw [repeatWhile] at ends
    cases tested : condition state with
    | error failure => rw [tested] at ends; cases ends
    | ok truth =>
      rw [tested] at ends
      cases truth with
      | false =>
        obtain ⟨-, rfl⟩ := Outcome.done.inj ends
        exact tested
      | true =>
        cases ran : body state with
        | done value next => rw [ran] at ends; exact ih ends
        | failed failure next => rw [ran] at ends; cases ends
        | unfinished => rw [ran] at ends; cases ends

/-- A statement does not complete normally: however many rounds its loops are given, it has not come
to an end, or it fails, always in the same way if they are given enough. -/
def Stmt.NeverCompletes (stmt : Stmt) (console : Console) (state : State) : Prop :=
  (∀ fuel, stmt.run fuel console state = .unfinished) ∨
    ∃ (failure : Failure) (after : State) (enough : Nat), ∀ fuel, enough ≤ fuel →
      stmt.run fuel console state = .failed failure after

/-- A statement that has no result with any number of rounds does not complete normally. -/
theorem Stmt.neverCompletes {stmt : Stmt} {console : Console} {state : State}
    (resultless : ∀ fuel value after, stmt.run fuel console state ≠ .done value after) :
    stmt.NeverCompletes console state := by
  by_cases endless : ∀ fuel, stmt.run fuel console state = .unfinished
  · exact .inl endless
  · obtain ⟨enough, ends⟩ := not_forall.1 endless
    cases ran : stmt.run enough console state with
    | done value after => exact absurd ran (resultless enough value after)
    | unfinished => exact absurd ran ends
    | failed failure after =>
      refine .inr ⟨failure, after, enough, fun fuel more => ?_⟩
      rw [← ran]
      exact (Node.stmt stmt).run_mono more ends

/-- A loop whose condition is the literal for truth does not complete normally. -/
theorem Stmt.neverCompletes_loop (span literal : Span) (body : Block) (console : Console)
    (state : State) :
    (Stmt.loop span (.boolean literal true) body).NeverCompletes console state := by
  refine neverCompletes fun fuel value after ends => ?_
  rw [run] at ends
  cases ran : repeatWhile fuel (fun now => (Expr.boolean literal true).holds now.environment)
      (body.run fuel console) 0 state with
  | done count last => cases condition_of_repeatWhile ran
  | failed failure last => rw [ran] at ends; cases ends
  | unfinished => rw [ran] at ends; cases ends

/-! ## Exact and true warnings -/

/-- The code that is shown tells the findings about loops without end from the others. -/
theorem Finding.decide_code (finding : Finding) :
    decide (finding.diagnostic.code = Bytes.utf8 "P0004") = finding.isEndless := by
  obtain ⟨complaint, span⟩ := finding
  cases complaint <;> rfl

/-- Just the findings about loops without end are warnings. -/
theorem Finding.severity_diagnostic (finding : Finding) :
    finding.diagnostic.severity = if finding.isEndless then .warning else .error := by
  obtain ⟨complaint, span⟩ := finding
  cases complaint <;> rfl

/-- **The warnings about loops without end are exact and true.** Whatever the tokens are, each loop
of the tree that is read is opened by a token of its own, and the diagnostics with the code of the
warning are, in the order of the loops, those of the loops whose condition is directly the literal
for truth, from the opening token to the literal. They are warnings, and every other diagnostic is
an error. A loop of that kind does not complete normally, whatever its body is and wherever it is
run: it has no end, or it fails. -/
theorem loop_warnings_exact (tokens : List Token) :
    let parsing := Parsing.read tokens
    let diagnostics := parsing.findings.map Finding.diagnostic
    let isWarning := fun diagnostic : Diagnostic => diagnostic.code = Bytes.utf8 "P0004"
    (∃ loops : List OpenedLoop, (loops.map OpenedLoop.word).Sublist tokens ∧
        loops.map OpenedLoop.node = parsing.program.loops ∧
        diagnostics.filter isWarning
          = (loops.filterMap OpenedLoop.warning?).map Finding.diagnostic) ∧
      (∀ diagnostic ∈ diagnostics,
        diagnostic.severity = if isWarning diagnostic then .warning else .error) ∧
      ∀ (span literal : Span) (body : Block) (console : Console) (state : State),
        (Stmt.loop span (.boolean literal true) body).NeverCompletes console state := by
  intro parsing diagnostics isWarning
  refine ⟨?_, ?_, Stmt.neverCompletes_loop⟩
  · have read := (StatementCall.statements false (Cursor.ofTokens tokens).skipSeparators).warns_read
    obtain ⟨consumed, loops, split, among, nodes, warnings⟩ :=
      Warned.skip (Cursor.suffix_skipWhile _ _) read
    have inside : consumed.Sublist tokens := by
      change tokens = _ at split
      rw [split]
      exact List.sublist_append_left consumed _
    refine ⟨loops, among.trans inside, nodes, ?_⟩
    calc diagnostics.filter isWarning
        = (parsing.findings.filter Finding.isEndless).map Finding.diagnostic := by
          rw [List.filter_map]
          congr 2
          exact funext Finding.decide_code
      _ = (loops.filterMap OpenedLoop.warning?).map Finding.diagnostic := congrArg _ warnings
  · intro diagnostic member
    obtain ⟨finding, -, rfl⟩ := List.mem_map.1 member
    rw [finding.severity_diagnostic, ← finding.decide_code]
    simp only [isWarning, decide_eq_true_eq]

/-- In `while true { while true`, a body and a brace are missing; both loops are read, with a
warning for each of them. -/
theorem loop_warnings_exact_unclosed :
    let word : Token := .unplaced .whileWord []
    let literal : Token := .unplaced .trueWord []
    let tokens := [word, literal, .unplaced .leftBrace [], word, literal, .unplaced .endOfInput []]
    let diagnostics := (Parsing.read tokens).findings.map Finding.diagnostic
    diagnostics.map Diagnostic.code
        = [Bytes.utf8 "P0004", Bytes.utf8 "P0004", Bytes.utf8 "P0001", Bytes.utf8 "P0001"] ∧
      diagnostics.map Diagnostic.severity = [.warning, .warning, .error, .error] ∧
      ∃ loops : List OpenedLoop, loops.map OpenedLoop.node = (Parsing.read tokens).program.loops ∧
        (loops.filterMap OpenedLoop.warning?).length = 2 := by
  intro word literal tokens diagnostics
  have codes : diagnostics.map Diagnostic.code
      = [Bytes.utf8 "P0004", Bytes.utf8 "P0004", Bytes.utf8 "P0001", Bytes.utf8 "P0001"] := by
    simp [diagnostics, tokens, word, literal, Token.unplaced, Parsing.read, Cursor.ofTokens,
      Cursor.kind, Cursor.peek, Cursor.skipSeparators, Cursor.skipWhile, Cursor.skipWhile.go,
      Cursor.isSeparator, Cursor.endsBody, Cursor.statements_cons, Cursor.statement_cons,
      Cursor.requiredExpression, Cursor.expression_eq, Cursor.operand_cons,
      Cursor.continuation_cons, TokenKind.strength, Parsed.required, Cursor.body_cons,
      Cursor.braced_eq, Cursor.expect, Cursor.loopWarnings, Finding.diagnostic, Complaint.code]
  obtain ⟨⟨loops, -, nodes, warnings⟩, severities, -⟩ := loop_warnings_exact tokens
  refine ⟨codes, ?_, loops, nodes, ?_⟩
  · calc diagnostics.map Diagnostic.severity
        = (diagnostics.map Diagnostic.code).map fun code =>
            if code = Bytes.utf8 "P0004" then .warning else .error := by
          rw [List.map_map (l := diagnostics)]
          exact List.map_congr_left severities
      _ = [.warning, .warning, .error, .error] := by
          rw [codes]
          rfl
  · calc (loops.filterMap OpenedLoop.warning?).length
        = (diagnostics.map Diagnostic.code).countP fun code => code = Bytes.utf8 "P0004" := by
          rw [List.countP_map, List.countP_eq_length_filter, ← List.length_map Finding.diagnostic,
            ← warnings]
          rfl
      _ = 2 := by
          rw [codes]
          rfl

end ConsoleScript
