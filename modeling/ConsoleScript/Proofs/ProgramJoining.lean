import ConsoleScript.Proofs.LineRecovery
import ConsoleScript.Proofs.ProgramReading

/-! # Programs joined by a separator

Tokens that are read without an error can be put before any others: with a separator between them
both are read as if each stood alone, also if the others are erroneous.

* **`ReadsInto`** — statements are read, and reading goes on with whatever stands behind them, as
  long as that neither continues an expression nor adds a branch to a conditional;
* **`SpellsRun.readsInto`** — a spelling of statements is read in this way, by induction on them;
* **`SpellsRun.read_append`** — the same for whole lists of tokens. -/

namespace ConsoleScript

/-- Statements are read with the same findings wherever their tokens stand, and reading goes on with
what stands behind them. -/
def ReadsInto (tokens : List Token) (stmts : List Stmt) : Prop :=
  ∃ findings, ∀ (rest : List Token) (last : Position),
    Token.headStrength rest = 0 → Token.opensBranch rest = false →
    ∃ reached, (Cursor.mk (tokens ++ rest) last).skipSeparators.statements false =
      let others := (Cursor.mk rest reached).skipSeparators.statements false
      ⟨stmts ++ others.value, others.cursor, findings ++ others.findings⟩

/-- Separators before more tokens are skipped with those that follow. -/
theorem Cursor.skipSeparators_gap {gap : List Token} (separators : Token.AllSeparators gap)
    (rest : List Token) (last : Position) :
    ∃ reached, (Cursor.mk (gap ++ rest) last).skipSeparators
      = (Cursor.mk rest reached).skipSeparators := by
  induction gap generalizing last with
  | nil => exact ⟨last, rfl⟩
  | cons token gap ih =>
    obtain ⟨here, later⟩ := List.forall_mem_cons.1 separators
    obtain ⟨reached, same⟩ := ih later token.span.stop
    refine ⟨reached, ?_⟩
    rw [← same, skipSeparators, skipWhile, List.cons_append, skipWhile.go, if_pos here]
    rfl

namespace ReadsInto

/-- Separators alone are read as no statement. -/
theorem done {gap : List Token} (separators : Token.AllSeparators gap) : ReadsInto gap [] := by
  refine ⟨[], fun rest last _ _ => ?_⟩
  obtain ⟨reached, skips⟩ := Cursor.skipSeparators_gap separators rest last
  exact ⟨reached, by rw [skips]; rfl⟩

/-- A statement is read before what is read behind it. -/
theorem cons {gap tokens more : List Token} {stmt : Stmt} {stmts : List Stmt} {dangling : Bool}
    (separators : Token.AllSeparators gap) (first : SpellsStmt dangling tokens stmt)
    (run : SpellsRun more stmts) (others : ReadsInto more stmts) :
    ReadsInto (gap ++ (tokens ++ more)) (stmt :: stmts) := by
  obtain ⟨one, -, first_reads⟩ := first.reads
  obtain ⟨two, others_read⟩ := others
  refine ⟨one ++ two, fun rest last weak closed => ?_⟩
  obtain ⟨weak_behind, closed_behind⟩ := run.follow_closed weak closed
  obtain ⟨reached, statements⟩ := others_read rest stmt.span.stop weak closed
  refine ⟨reached, ?_⟩
  rw [List.append_assoc, List.append_assoc, first.statements_append separators
    (fun start => first_reads (more ++ rest) start weak_behind fun _ => closed_behind), statements]
  simp only [List.append_assoc, List.cons_append]

end ReadsInto

namespace SpellsRun

/-- Statements are read from their spelling, and reading goes on behind it. -/
theorem readsInto {tokens : List Token} {stmts : List Stmt} (spelled : SpellsRun tokens stmts) :
    ReadsInto tokens stmts := by
  induction stmts generalizing tokens with
  | nil =>
    cases spelled with
    | done separators => exact .done separators
  | cons stmt stmts ih =>
    cases spelled with
    | cons separators first others => exact .cons separators first others (ih others)

/-- A spelling of statements is read before other tokens, with findings of its own. -/
theorem read_append {front : List Token} {stmts : List Stmt} (spelled : SpellsRun front stmts) :
    ∃ findings, ∀ back : List Token, Token.headStrength back = 0 → Token.opensBranch back = false →
      (Parsing.read (front ++ back)).program.stmts = stmts ++ (Parsing.read back).program.stmts ∧
        (Parsing.read (front ++ back)).findings = findings ++ (Parsing.read back).findings := by
  obtain ⟨findings, reads⟩ := spelled.readsInto
  refine ⟨findings, fun back weak closed => ?_⟩
  obtain ⟨reached, whole⟩ := reads back (Cursor.ofTokens (front ++ back)).last weak closed
  obtain ⟨stmts_behind, -, findings_behind⟩ :=
    @Parsing.read_of_rest back (Cursor.mk back reached).skipSeparators
      (Cursor.rest_skipSeparators _)
  have start : Cursor.ofTokens (front ++ back)
      = ⟨front ++ back, (Cursor.ofTokens (front ++ back)).last⟩ := rfl
  rw [Parsing.read, start, whole, ← stmts_behind, ← findings_behind]
  exact ⟨rfl, rfl⟩

end SpellsRun

namespace Token

/-- A separator that joins two programs: a semicolon, or a line break behind which no branch of a
conditional follows. -/
def Joins (separator : Token) (back : List Token) : Prop :=
  separator.kind = .semicolon ∨ (separator.kind = .newline ∧ opensBranch back = false)

theorem Joins.isSeparator {separator : Token} {back : List Token} (joins : separator.Joins back) :
    Cursor.isSeparator separator.kind = true := by
  rcases joins with kind | ⟨kind, -⟩ <;> rw [kind] <;> rfl

/-- With the separator before them, the tokens behind it continue nothing. -/
theorem Joins.follow {separator : Token} {back : List Token} (joins : separator.Joins back) :
    headStrength (separator :: back) = 0 ∧ opensBranch (separator :: back) = false := by
  rcases joins with semicolon | ⟨newline, closed⟩
  · rw [headStrength_cons, opensBranch_cons (by simp [semicolon]), semicolon]
    exact ⟨rfl, rfl⟩
  · have layout : AllNewlines [separator] := by simpa [AllNewlines] using newline
    rw [headStrength_cons, newline]
    exact ⟨rfl, (opensBranch_append layout back).trans closed⟩

end Token

/-- **Reading is compositional at separators.** If tokens without an end of input are read without
an error, then with a semicolon behind them, or a line break behind which no branch of a conditional
follows, and any other tokens behind that, the statements that are read are those of both, places
included, and so are the findings. -/
theorem programs_join_at_separators {front back : List Token} {separator final : Token}
    (ongoing : Token.Ongoing front) (ends : final.kind = .endOfInput)
    (clean : Finding.anyError (Parsing.read (front ++ [final])).findings = false)
    (joins : separator.Joins back) :
    let first := Parsing.read (front ++ [final])
    let second := Parsing.read back
    let whole := Parsing.read (front ++ separator :: back)
    whole.program.stmts = first.program.stmts ++ second.program.stmts ∧
      whole.findings = first.findings ++ second.findings := by
  intro first second whole
  have spelled : SpellsRun front first.program.stmts :=
    Parsing.spells_of_read ongoing ends clean
  obtain ⟨findings, reads⟩ := spelled.read_append
  -- Read before the end of input, the findings of the first tokens are all there are.
  have own : first.findings = findings := by
    have weak : Token.headStrength [final] = 0 := by
      rw [Token.headStrength_cons, ends]
      rfl
    have closed : Token.opensBranch [final] = false := by
      rw [Token.opensBranch_cons (by simp [ends]), ends]
      rfl
    obtain ⟨-, -, nothing⟩ := @Parsing.read_ending [final] ends
    have alone := (reads [final] weak closed).2
    rwa [nothing, List.append_nil] at alone
  obtain ⟨weak, closed⟩ := joins.follow
  obtain ⟨stmts, reported⟩ := reads (separator :: back) weak closed
  obtain ⟨same_stmts, same_findings⟩ := Parsing.read_separator joins.isSeparator back
  exact ⟨by rw [stmts, same_stmts], by rw [reported, same_findings, own]⟩

/-- The tokens of an endless loop and a conditional without a last block, one behind the other. -/
def sampleLoop : List Token :=
  [.unplaced .whileWord [], .unplaced .trueWord [], .unplaced .leftBrace [],
    .unplaced .rightBrace [], .unplaced .ifWord [], .unplaced .name [0x61], .unplaced .leftBrace [],
    .unplaced .rightBrace []]

/-- The loop and the conditional are read, with a warning about the loop. -/
theorem read_sampleLoop :
    (Parsing.read (sampleLoop ++ [.unplaced .endOfInput []])).findings
      = [⟨.endlessLoop, Span.unset.join .unset⟩] := by
  simp [sampleLoop, Token.unplaced, Parsing.read, Cursor.ofTokens, Cursor.skipSeparators,
    Cursor.skipWhile, Cursor.skipWhile.go, Cursor.isSeparator, Cursor.statements_cons,
    Cursor.statement_cons, Cursor.branch_eq, Cursor.branches_eq, Cursor.body_cons, Cursor.braced_eq,
    Cursor.expect, Cursor.requiredExpression, Parsed.required, Cursor.expression_eq,
    Cursor.operand_cons, Cursor.continuation_cons, TokenKind.strength, Cursor.spanFrom, Cursor.peek,
    Cursor.kind, Cursor.loopWarnings, Cursor.skipNewlines]

/-- Behind a line break, an assignment is read after a sign that starts no statement, and both the
warning about the loop before it and the error about the sign are reported. -/
theorem programs_join_at_separators_loop :
    let final : Token := .unplaced .endOfInput []
    let newline : Token := .unplaced .newline Token.newlineLexeme
    let back : List Token := .unplaced .assign [0x3d] :: newline :: sampleAssignment
    let whole := Parsing.read (sampleLoop ++ newline :: back)
    Finding.anyError (Parsing.read (sampleLoop ++ [final])).findings = false ∧
      newline.Joins back ∧
      whole.program.stmts = (Parsing.read (sampleLoop ++ [final])).program.stmts
        ++ [.assign .unset [0x78] (.nil .unset)] ∧
      whole.findings = [⟨.endlessLoop, Span.unset.join .unset⟩,
        ⟨.unexpectedToken [0x3d], .unset⟩] := by
  intro final newline back whole
  have clean : Finding.anyError (Parsing.read (sampleLoop ++ [final])).findings = false := by
    rw [read_sampleLoop]
    rfl
  have joins : newline.Joins back := .inr ⟨rfl, rfl⟩
  have second : (Parsing.read back).program.stmts = [.assign .unset [0x78] (.nil .unset)] ∧
      (Parsing.read back).findings = [⟨.unexpectedToken [0x3d], .unset⟩] := by
    simp [back, newline, sampleAssignment, Token.unplaced, Parsing.read, Cursor.ofTokens,
      Cursor.skipSeparators, Cursor.skipWhile, Cursor.skipWhile.go, Cursor.isSeparator,
      Cursor.isRestart, Cursor.synchronize, Cursor.statements_cons, Cursor.statement_cons,
      Cursor.assignment, Cursor.assignedValue, Cursor.requiredExpression, Parsed.required,
      Cursor.expression_eq, Cursor.operand_cons, Cursor.continuation_cons, TokenKind.strength,
      Cursor.spanFrom, Cursor.peek, Cursor.kind, Token.description]
  obtain ⟨stmts, findings⟩ := programs_join_at_separators (by decide) rfl clean joins
  rw [second.1] at stmts
  rw [second.2, read_sampleLoop] at findings
  exact ⟨clean, joins, stmts, findings⟩

end ConsoleScript
