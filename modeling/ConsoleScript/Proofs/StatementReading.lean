import ConsoleScript.Proofs.StatementGrammar

/-! # Reading statements is exact

The readers of statements accept exactly the grammar of statements.

* **`SpellsStmt.reads`**, **`SpellsRun.reads`** — a spelling is read as its tree, with the same
  findings whatever stands behind it, as long as that neither continues an expression nor adds a
  branch to a dangling conditional;
* **`Cursor.readsStmt`**, **`Cursor.spells_of_statements`** — what is read without an error is
  spelled by the tokens that were consumed. -/

namespace ConsoleScript

/-! ## The first tokens of statements and branches -/

namespace TokenKind

/-- Whether a statement can start with a kind. -/
def startsStmt : TokenKind → Bool
  | name | consoleWord | ifWord | whileWord | leftBrace => true
  | _ => false

theorem strength_of_startsStmt {kind : TokenKind} (starts : kind.startsStmt = true) :
    kind.strength = 0 := by
  cases kind <;> simp [startsStmt, strength] at starts ⊢

theorem isSeparator_of_startsStmt {kind : TokenKind} (starts : kind.startsStmt = true) :
    Cursor.isSeparator kind = false := by
  cases kind <;> simp [startsStmt, Cursor.isSeparator] at starts ⊢

theorem endsBody_of_startsStmt {kind : TokenKind} (starts : kind.startsStmt = true) :
    Cursor.endsBody kind = false := by
  cases kind <;> simp [startsStmt, Cursor.isSeparator, Cursor.endsBody] at starts ⊢

end TokenKind

namespace SpellsStmt

/-- A statement starts at the place of its first token, with one of few kinds. -/
theorem head {dangling : Bool} {tokens : List Token} {stmt : Stmt}
    (spelled : SpellsStmt dangling tokens stmt) :
    ∃ token rest, tokens = token :: rest ∧ token.span.start = stmt.span.start ∧
      token.kind.startsStmt = true := by
  cases spelled with
  | assign named => exact ⟨_, _, rfl, rfl, by rw [named]; rfl⟩
  | console kind | conditional kind | loop kind | block kind =>
    exact ⟨_, _, rfl, rfl, by rw [kind]; rfl⟩

end SpellsStmt

namespace SpellsBody

theorem head {dangling : Bool} {tokens : List Token} {body : Block}
    (spelled : SpellsBody dangling tokens body) :
    ∃ token rest, tokens = token :: rest ∧ token.kind.startsStmt = true := by
  cases spelled with
  | braced opens => exact ⟨_, _, rfl, by rw [opens]; rfl⟩
  | single unbraced only =>
    obtain ⟨token, rest, same, -, starts⟩ := only.head
    exact ⟨token, rest, same, starts⟩

/-- What follows a body does not change the kind of its first token. -/
theorem headKind_ne {dangling : Bool} {tokens : List Token} {body : Block} {kind : TokenKind}
    (spelled : SpellsBody dangling tokens body) (ne : Token.headKind tokens ≠ kind)
    (rest : List Token) : Token.headKind (tokens ++ rest) ≠ kind := by
  obtain ⟨token, others, rfl, -⟩ := spelled.head
  exact ne

theorem headStrength {dangling : Bool} {tokens : List Token} {body : Block}
    (spelled : SpellsBody dangling tokens body) (rest : List Token) :
    Token.headStrength (tokens ++ rest) = 0 := by
  obtain ⟨token, others, rfl, starts⟩ := spelled.head
  exact TokenKind.strength_of_startsStmt starts

end SpellsBody

namespace Token

/-- Line breaks do not decide whether a branch follows. -/
theorem opensBranch_append {gap : List Token} (layout : AllNewlines gap) (rest : List Token) :
    opensBranch (gap ++ rest) = opensBranch rest := by
  have passed : ∀ token ∈ gap, (token.kind == .newline) = true :=
    fun token member => beq_iff_eq.2 (layout token member)
  rw [opensBranch, List.dropWhile_append_of_pos passed]
  rfl

/-- A token that is no line break decides whether a branch follows. -/
theorem opensBranch_cons {token : Token} (visible : token.kind ≠ .newline) (rest : List Token) :
    opensBranch (token :: rest) = (token.kind == .elseifWord || token.kind == .elseWord) := by
  rw [opensBranch, List.dropWhile_cons_of_neg (by simpa using visible)]
  rfl

/-- A token at which statements end: the end of input and, inside braces, a closing brace. -/
def EndsRun (inBraces : Bool) (tokens : List Token) : Prop :=
  ∃ token others, tokens = token :: others ∧
    (token.kind = .endOfInput ∨ (inBraces = true ∧ token.kind = .rightBrace))

theorem isSeparator_of_endsRun {inBraces : Bool} {token : Token}
    (final : token.kind = .endOfInput ∨ (inBraces = true ∧ token.kind = .rightBrace)) :
    Cursor.isSeparator token.kind = false := by
  rcases final with kind | ⟨-, kind⟩ <;> rw [kind] <;> rfl

/-- Separators neither continue an expression nor open a branch, if what follows does neither. -/
theorem follow_separators {gap rest : List Token} (separators : AllSeparators gap)
    (weak : headStrength rest = 0) (closed : opensBranch rest = false) :
    headStrength (gap ++ rest) = 0 ∧ opensBranch (gap ++ rest) = false := by
  induction gap with
  | nil => exact ⟨weak, closed⟩
  | cons token gap ih =>
    have tail := ih fun other member => separators other (List.mem_cons_of_mem token member)
    have separator := separators token List.mem_cons_self
    by_cases newline : token.kind = .newline
    · have layout : AllNewlines [token] := by simpa [AllNewlines] using newline
      exact ⟨by rw [List.cons_append, headStrength_cons, newline]; rfl,
        (opensBranch_append layout (gap ++ rest)).trans tail.2⟩
    · have semicolon : token.kind = .semicolon := by
        simpa [Cursor.isSeparator, newline] using separator
      rw [List.cons_append, opensBranch_cons newline, headStrength_cons, semicolon]
      exact ⟨rfl, rfl⟩

end Token

namespace SpellsRun

/-- A run of statements neither continues an expression nor opens a branch, if what follows it does
neither. -/
theorem follow_closed {tokens rest : List Token} {stmts : List Stmt}
    (spelled : SpellsRun tokens stmts) (weak : Token.headStrength rest = 0)
    (closed : Token.opensBranch rest = false) :
    Token.headStrength (tokens ++ rest) = 0 ∧ Token.opensBranch (tokens ++ rest) = false := by
  cases spelled with
  | done separators => exact Token.follow_separators separators weak closed
  | cons separators first =>
    -- No statement starts with an operator or with a word that opens a branch.
    obtain ⟨token, others, rfl, -, starts⟩ := first.head
    rw [List.append_assoc]
    refine Token.follow_separators separators (TokenKind.strength_of_startsStmt starts) ?_
    have visible : token.kind ≠ .newline := by
      intro same
      simp [same, TokenKind.startsStmt] at starts
    rw [List.cons_append, List.cons_append, Token.opensBranch_cons visible]
    revert starts
    cases token.kind <;> simp [TokenKind.startsStmt]

/-- A run of statements before its end neither continues an expression nor opens a branch. -/
theorem follow {inBraces : Bool} {tokens rest : List Token} {stmts : List Stmt}
    (spelled : SpellsRun tokens stmts) (ends : Token.EndsRun inBraces rest) :
    Token.headStrength (tokens ++ rest) = 0 ∧ Token.opensBranch (tokens ++ rest) = false := by
  obtain ⟨token, others, rfl, final⟩ := ends
  have weak : Token.headStrength (token :: others) = 0 := by
    rcases final with kind | ⟨-, kind⟩ <;>
      · rw [Token.headStrength_cons, kind]
        rfl
  have closed : Token.opensBranch (token :: others) = false := by
    rcases final with kind | ⟨-, kind⟩ <;>
      · rw [Token.opensBranch_cons (by simp [kind]), kind]
        rfl
  exact spelled.follow_closed weak closed

end SpellsRun

namespace SpellsFurther

/-- Nothing further is spelled by no token only. -/
theorem dangling_of_nil {last stop : Position} {dangling : Bool} {tokens : List Token}
    {branches : List Branch} {otherwise : Block}
    (spelled : SpellsFurther last dangling tokens branches otherwise stop) (empty : tokens = []) :
    dangling = true := by
  cases spelled with
  | none => rfl
  | elseif | elseIf | otherwise => simp at empty

/-- What is further to a conditional does not continue an expression. -/
theorem headStrength {last stop : Position} {dangling : Bool} {tokens : List Token}
    {branches : List Branch} {otherwise : Block}
    (spelled : SpellsFurther last dangling tokens branches otherwise stop) {rest : List Token}
    (weak : Token.headStrength rest = 0) : Token.headStrength (tokens ++ rest) = 0 := by
  cases spelled with
  | none => exact weak
  | elseif layout kind | elseIf layout kind | otherwise layout kind =>
    rw [List.append_assoc]
    refine Token.headStrength_append layout ?_
    rw [List.cons_append, Token.headStrength_cons, kind]
    rfl

end SpellsFurther

/-! ## Spellings are read -/

/-- A reader gives a value and stops at a place behind tokens, with the same findings, none of them
an error, wherever the tokens stand before something that does not continue them. -/
def ReadsAs {α : Type} (read : Cursor → Parsed α) (dangling : Bool) (tokens : List Token)
    (value : α) (stop : Position) : Prop :=
  ∃ findings, Finding.anyError findings = false ∧ ∀ (rest : List Token) (last : Position),
    Token.headStrength rest = 0 → (dangling = true → Token.opensBranch rest = false) →
    read ⟨tokens ++ rest, last⟩ = ⟨value, ⟨rest, stop⟩, findings⟩

/-- Statements are read behind separators, with the same findings, none of them an error, wherever
the tokens stand before the end of a run. -/
def ReadsRunAs (inBraces : Bool) (tokens : List Token) (stmts : List Stmt) : Prop :=
  ∃ findings, Finding.anyError findings = false ∧ ∀ (rest : List Token) (last : Position),
    Token.EndsRun inBraces rest →
    ∃ reached, (Cursor.mk (tokens ++ rest) last).skipSeparators.statements inBraces
      = ⟨stmts, ⟨rest, reached⟩, findings⟩

namespace Spells

/-- A spelling that is required is read as its tree. -/
theorem requiredExpression {tokens : List Token} {expr : Expr}
    (spelled : Spells .either tokens expr) {rest : List Token}
    (weak : Token.headStrength rest = 0) (last : Position) :
    (Cursor.mk (tokens ++ rest) last).requiredExpression
      = ⟨some expr, ⟨rest, expr.span.stop⟩, []⟩ :=
  Cursor.requiredExpression_of_expression (spelled.expression_eq weak last)

end Spells

namespace Cursor

/-- Skipping separators goes exactly behind them, if another token follows. -/
theorem skipSeparators_append {gap : List Token} (separators : Token.AllSeparators gap)
    {token : Token} (visible : isSeparator token.kind = false) (rest : List Token)
    (last : Position) :
    ∃ reached,
      (Cursor.mk (gap ++ token :: rest) last).skipSeparators = ⟨token :: rest, reached⟩ := by
  refine skipWhile_append separators ?_ last
  intro other others same
  obtain ⟨rfl, -⟩ := List.cons.inj same
  exact visible

/-- Before anything that opens no branch, no branch is read and no line break is skipped. -/
theorem branches_of_not_opensBranch {rest : List Token} (closed : Token.opensBranch rest = false)
    (last : Position) :
    (Cursor.mk rest last).branches = ⟨([], .absent), ⟨rest, last⟩, []⟩ := by
  obtain ⟨gap, layout, parts, visible⟩ := (Cursor.mk rest last).skipNewlines_spec
  rw [branches_eq]
  cases skipped : (Cursor.mk rest last).skipNewlines with
  | mk ahead reached =>
    cases ahead with
    | nil => rfl
    | cons word others =>
      rw [skipped] at parts visible
      have shown : word.kind ≠ .newline := visible
      rw [show rest = gap ++ word :: others from parts, Token.opensBranch_append layout,
        Token.opensBranch_cons shown] at closed
      cases kind : word.kind <;> simp [kind] at closed ⊢

/-- Behind `elseif` a branch is read, and then what is further to it. -/
theorem branches_of_elseif {cursor : Cursor} {word : Token} {rest : List Token} {reached : Position}
    (skips : cursor.skipNewlines = ⟨word :: rest, reached⟩) (kind : word.kind = .elseifWord) :
    cursor.branches =
      let first := (Cursor.mk rest word.span.stop).branch word
      let others := first.cursor.branches
      ⟨(first.value :: others.value.1, others.value.2), others.cursor,
        first.findings ++ others.findings⟩ := by
  rw [branches_eq, skips]
  simp only [kind]

/-- Behind `else if` a branch is read, and then what is further to it. -/
theorem branches_of_elseIf {cursor : Cursor} {other word : Token} {rest : List Token}
    {reached : Position} (skips : cursor.skipNewlines = ⟨other :: word :: rest, reached⟩)
    (else_kind : other.kind = .elseWord) (if_kind : word.kind = .ifWord) :
    cursor.branches =
      let first := (Cursor.mk rest word.span.stop).branch word
      let others := first.cursor.branches
      ⟨(first.value :: others.value.1, others.value.2), others.cursor,
        first.findings ++ others.findings⟩ := by
  have next : (Cursor.mk (word :: rest) other.span.stop).kind = .ifWord := if_kind
  rw [branches_eq, skips]
  simp only [else_kind, next, if_pos, advance_cons]
  rfl

/-- Behind any other `else` the last block is read. -/
theorem branches_of_else {cursor : Cursor} {word : Token} {rest : List Token} {reached : Position}
    (skips : cursor.skipNewlines = ⟨word :: rest, reached⟩) (kind : word.kind = .elseWord)
    (final : Token.headKind rest ≠ .ifWord) :
    cursor.branches =
      let body := (Cursor.mk rest word.span.stop).body
      ⟨([], body.value), body.cursor, body.findings⟩ := by
  have next : (Cursor.mk rest word.span.stop).kind ≠ .ifWord := final
  rw [branches_eq, skips]
  simp only [kind, if_neg next]

/-- Reads what is further to a conditional behind a branch that ends at `start`. -/
def furtherFrom (start : Position) (cursor : Cursor) : Parsed (List Branch × Block) :=
  (Cursor.mk cursor.rest start).branches

/-- The warning about an endless loop is no error. -/
theorem anyError_loopWarnings (word : Token) (condition : Option Expr) :
    Finding.anyError (loopWarnings word condition) = false := by
  unfold loopWarnings
  split <;> rfl

end Cursor

namespace ReadsAs

/-- An assignment is read. -/
theorem assign {target sign : Token} {tokens : List Token} {value : Expr}
    (named : target.kind = .name) (assigns : sign.kind = .assign)
    (right : Spells .either tokens value) :
    ReadsAs Cursor.statement false (target :: sign :: tokens)
      (some (.assign ⟨target.span.start, value.span.stop⟩ target.lexeme value))
      value.span.stop := by
  refine ⟨[], rfl, fun rest last weak _ => ?_⟩
  have left : Spells .either [target] (.name target.span target.lexeme) :=
    .weaken (by decide) (.name named)
  have stops : Token.headStrength (sign :: (tokens ++ rest)) = 0 := by
    rw [Token.headStrength_cons, assigns]
    rfl
  have reads := left.expression_eq stops last
  have sign_kind (last : Position) :
      (Cursor.mk (sign :: (tokens ++ rest)) last).kind = .assign := assigns
  rw [List.cons_append, List.nil_append] at reads
  simp only [List.cons_append, Cursor.statement_cons, named, Cursor.assignment, reads, sign_kind,
    if_pos, Cursor.advance_cons, Cursor.assignedValue, right.requiredExpression weak,
    List.nil_append]
  rfl

/-- A console statement is read. -/
theorem console {word : Token} {tokens : List Token} {value : Expr}
    (kind : word.kind = .consoleWord) (shown : Spells .either tokens value) :
    ReadsAs Cursor.statement false (word :: tokens)
      (some (.console ⟨word.span.start, value.span.stop⟩ value)) value.span.stop := by
  refine ⟨[], rfl, fun rest last weak _ => ?_⟩
  simp only [List.cons_append, Cursor.statement_cons, kind, Cursor.consoleStatement,
    shown.requiredExpression weak]
  rfl

/-- A branch is read as soon as its body is. -/
theorem branch {word : Token} {test inside : List Token} {condition : Expr} {body : Block}
    {dangling : Bool} (holds : Spells .either test condition)
    (start : ∀ rest, Token.headStrength (inside ++ rest) = 0)
    (guarded : ReadsAs Cursor.body dangling inside body body.span.stop) :
    ReadsAs (Cursor.branch word) dangling (test ++ inside)
      (.mk ⟨word.span.start, body.span.stop⟩ condition body) body.span.stop := by
  obtain ⟨findings, clean, reads⟩ := guarded
  refine ⟨findings, clean, fun rest last weak nearest => ?_⟩
  simp only [List.append_assoc, Cursor.branch_eq, holds.requiredExpression (start rest),
    reads rest _ weak nearest, List.nil_append]
  rfl

/-- A loop is read as soon as its body is. -/
theorem loop {word : Token} {test inside : List Token} {condition : Expr} {body : Block}
    {dangling : Bool} (kind : word.kind = .whileWord) (holds : Spells .either test condition)
    (start : ∀ rest, Token.headStrength (inside ++ rest) = 0)
    (repeated : ReadsAs Cursor.body dangling inside body body.span.stop) :
    ReadsAs Cursor.statement dangling (word :: (test ++ inside))
      (some (.loop ⟨word.span.start, body.span.stop⟩ condition body)) body.span.stop := by
  obtain ⟨findings, clean, reads⟩ := repeated
  refine ⟨Cursor.loopWarnings word (some condition) ++ findings,
    Finding.anyError_append_eq_false (Cursor.anyError_loopWarnings word condition) clean,
    fun rest last weak nearest => ?_⟩
  simp only [List.cons_append, List.append_assoc, Cursor.statement_cons, kind,
    holds.requiredExpression (start rest), reads rest _ weak nearest, List.nil_append]
  rfl

/-- A branch is read with what is further to it: the further branches go to the nearest conditional,
so they go behind a body only if that is not dangling. -/
theorem chain {word : Token} {tokens more : List Token} {branch : Branch} {branches : List Branch}
    {otherwise : Block} {stop : Position} {inner dangling : Bool}
    (first : ReadsAs (Cursor.branch word) inner tokens branch branch.span.stop)
    (nearest : inner = true → more = [])
    (spelled : SpellsFurther branch.span.stop dangling more branches otherwise stop)
    (others : ReadsAs (Cursor.furtherFrom branch.span.stop) dangling more (branches, otherwise)
      stop) :
    ∃ one two, Finding.anyError (one ++ two) = false ∧ ∀ (rest : List Token) (last : Position),
      Token.headStrength rest = 0 → (dangling = true → Token.opensBranch rest = false) →
      (Cursor.mk (tokens ++ (more ++ rest)) last).branch word
        = ⟨branch, ⟨more ++ rest, branch.span.stop⟩, one⟩ ∧
      (Cursor.mk (more ++ rest) branch.span.stop).branches
        = ⟨(branches, otherwise), ⟨rest, stop⟩, two⟩ := by
  obtain ⟨one, one_clean, first_reads⟩ := first
  obtain ⟨two, two_clean, others_read⟩ := others
  refine ⟨one, two, Finding.anyError_append_eq_false one_clean two_clean, ?_⟩
  intro rest last weak closed
  constructor
  · -- If the first branch dangles, nothing further follows it, and what stands behind decides.
    refine first_reads (more ++ rest) last (spelled.headStrength weak) fun ends => ?_
    have empty := nearest ends
    rw [empty]
    exact closed (spelled.dangling_of_nil empty)
  · exact others_read rest branch.span.stop weak closed

/-- A conditional is read as soon as its branches are. -/
theorem conditional {word : Token} {tokens more : List Token} {branch : Branch}
    {branches : List Branch} {otherwise : Block} {stop : Position} {inner dangling : Bool}
    (kind : word.kind = .ifWord)
    (first : ReadsAs (Cursor.branch word) inner tokens branch branch.span.stop)
    (nearest : inner = true → more = [])
    (spelled : SpellsFurther branch.span.stop dangling more branches otherwise stop)
    (others : ReadsAs (Cursor.furtherFrom branch.span.stop) dangling more (branches, otherwise)
      stop) :
    ReadsAs Cursor.statement dangling (word :: (tokens ++ more))
      (some (.conditional ⟨word.span.start, stop⟩ (branch :: branches) otherwise)) stop := by
  obtain ⟨one, two, clean, reads⟩ := chain first nearest spelled others
  refine ⟨one ++ two, clean, fun rest last weak closed => ?_⟩
  obtain ⟨first_reads, others_read⟩ := reads rest word.span.stop weak closed
  simp only [List.cons_append, List.append_assoc, Cursor.statement_cons, kind, first_reads,
    others_read]
  rfl

/-- Nothing further is read before anything that opens no branch. -/
theorem none (start : Position) :
    ReadsAs (Cursor.furtherFrom start) true [] ([], Block.absent) start := by
  refine ⟨[], rfl, fun rest last _ closed => ?_⟩
  rw [List.nil_append, Cursor.furtherFrom]
  exact Cursor.branches_of_not_opensBranch (closed rfl) start

/-- A branch behind `elseif` is read. -/
theorem elseif {start stop : Position} {word : Token} {gap tokens more : List Token}
    {branch : Branch} {branches : List Branch} {otherwise : Block} {inner dangling : Bool}
    (layout : Token.AllNewlines gap) (kind : word.kind = .elseifWord)
    (first : ReadsAs (Cursor.branch word) inner tokens branch branch.span.stop)
    (nearest : inner = true → more = [])
    (spelled : SpellsFurther branch.span.stop dangling more branches otherwise stop)
    (others : ReadsAs (Cursor.furtherFrom branch.span.stop) dangling more (branches, otherwise)
      stop) :
    ReadsAs (Cursor.furtherFrom start) dangling (gap ++ word :: (tokens ++ more))
      (branch :: branches, otherwise) stop := by
  obtain ⟨one, two, clean, reads⟩ := chain first nearest spelled others
  refine ⟨one ++ two, clean, fun rest last weak closed => ?_⟩
  obtain ⟨first_reads, others_read⟩ := reads rest word.span.stop weak closed
  have visible : word.kind ≠ .newline := by simp [kind]
  obtain ⟨reached, skips⟩ :=
    Cursor.skipNewlines_append layout visible (tokens ++ (more ++ rest)) start
  simp only [Cursor.furtherFrom, List.append_assoc, List.cons_append,
    Cursor.branches_of_elseif skips kind, first_reads, others_read]

/-- A branch behind `else if` is read. -/
theorem elseIf {start stop : Position} {other word : Token} {gap tokens more : List Token}
    {branch : Branch} {branches : List Branch} {otherwise : Block} {inner dangling : Bool}
    (layout : Token.AllNewlines gap) (else_kind : other.kind = .elseWord)
    (if_kind : word.kind = .ifWord)
    (first : ReadsAs (Cursor.branch word) inner tokens branch branch.span.stop)
    (nearest : inner = true → more = [])
    (spelled : SpellsFurther branch.span.stop dangling more branches otherwise stop)
    (others : ReadsAs (Cursor.furtherFrom branch.span.stop) dangling more (branches, otherwise)
      stop) :
    ReadsAs (Cursor.furtherFrom start) dangling (gap ++ other :: word :: (tokens ++ more))
      (branch :: branches, otherwise) stop := by
  obtain ⟨one, two, clean, reads⟩ := chain first nearest spelled others
  refine ⟨one ++ two, clean, fun rest last weak closed => ?_⟩
  obtain ⟨first_reads, others_read⟩ := reads rest word.span.stop weak closed
  have visible : other.kind ≠ .newline := by simp [else_kind]
  obtain ⟨reached, skips⟩ := Cursor.skipNewlines_append layout visible
    (word :: (tokens ++ (more ++ rest))) start
  simp only [Cursor.furtherFrom, List.append_assoc, List.cons_append,
    Cursor.branches_of_elseIf skips else_kind if_kind, first_reads, others_read]

/-- A last block behind `else` is read, unless the word that follows makes it another branch. -/
theorem otherwise {start : Position} {word : Token} {gap inside : List Token} {body : Block}
    {dangling : Bool} (layout : Token.AllNewlines gap) (kind : word.kind = .elseWord)
    (final : ∀ rest, Token.headKind (inside ++ rest) ≠ .ifWord)
    (run : ReadsAs Cursor.body dangling inside body body.span.stop) :
    ReadsAs (Cursor.furtherFrom start) dangling (gap ++ word :: inside) ([], body)
      body.span.stop := by
  obtain ⟨findings, clean, reads⟩ := run
  refine ⟨findings, clean, fun rest last weak closed => ?_⟩
  have visible : word.kind ≠ .newline := by simp [kind]
  obtain ⟨reached, skips⟩ := Cursor.skipNewlines_append layout visible (inside ++ rest) start
  simp only [Cursor.furtherFrom, List.append_assoc, List.cons_append,
    Cursor.branches_of_else skips kind (final rest), reads rest word.span.stop weak closed]

end ReadsAs

/-- A statement behind separators is read, and then what follows it. -/
theorem SpellsStmt.statements_append {gap tokens behind : List Token} {stmt : Stmt}
    {dangling : Bool} (spelled : SpellsStmt dangling tokens stmt)
    (separators : Token.AllSeparators gap) {findings : List Finding}
    (reads : ∀ last, Cursor.statement ⟨tokens ++ behind, last⟩
      = ⟨some stmt, ⟨behind, stmt.span.stop⟩, findings⟩) (inBraces : Bool) (last : Position) :
    (Cursor.mk (gap ++ (tokens ++ behind)) last).skipSeparators.statements inBraces =
      let others := (Cursor.mk behind stmt.span.stop).skipSeparators.statements inBraces
      ⟨stmt :: others.value, others.cursor, findings ++ others.findings⟩ := by
  obtain ⟨token, rest, rfl, -, starts⟩ := spelled.head
  obtain ⟨start, skips⟩ := Cursor.skipSeparators_append separators
    (TokenKind.isSeparator_of_startsStmt starts) (rest ++ behind) last
  have goes : ¬(token.kind = .endOfInput ∨ (inBraces = true ∧ token.kind = .rightBrace)) := by
    rintro (eof | ⟨-, brace⟩)
    · simp [eof, TokenKind.startsStmt] at starts
    · simp [brace, TokenKind.startsStmt] at starts
  have first := reads start
  rw [List.cons_append] at first
  simp only [List.cons_append, skips, Cursor.statements_cons, if_neg goes, first]
  rfl

namespace ReadsRunAs

/-- A run in braces is read up to its closing brace. -/
theorem braced (opening : Token) {closing : Token} {inside : List Token} {stmts : List Stmt}
    (closes : closing.kind = .rightBrace) (run : ReadsRunAs true inside stmts) :
    ∃ findings, Finding.anyError findings = false ∧ ∀ (rest : List Token) (last : Position),
      (Cursor.mk (inside ++ closing :: rest) last).braced opening
        = ⟨(⟨opening.span.start, closing.span.stop⟩, stmts), ⟨rest, closing.span.stop⟩,
          findings⟩ := by
  obtain ⟨findings, clean, reads⟩ := run
  refine ⟨findings, clean, fun rest last => ?_⟩
  obtain ⟨reached, statements⟩ := reads (closing :: rest) last
    ⟨closing, rest, rfl, .inr ⟨rfl, closes⟩⟩
  rw [Cursor.braced_eq]
  simp only [statements, Cursor.expect_cons closes, List.append_nil]
  rfl

/-- Separators alone are read as no statement. -/
theorem done {inBraces : Bool} {gap : List Token} (separators : Token.AllSeparators gap) :
    ReadsRunAs inBraces gap [] := by
  refine ⟨[], rfl, fun rest last ends => ?_⟩
  obtain ⟨token, others, rfl, final⟩ := ends
  obtain ⟨reached, skips⟩ := Cursor.skipSeparators_append separators
    (Token.isSeparator_of_endsRun final) others last
  refine ⟨reached, ?_⟩
  rw [skips, Cursor.statements_cons, if_pos final]

/-- A run is read statement by statement. -/
theorem cons {inBraces : Bool} {gap tokens more : List Token} {stmt : Stmt} {stmts : List Stmt}
    {dangling : Bool} (separators : Token.AllSeparators gap)
    (spelled : SpellsStmt dangling tokens stmt)
    (first : ReadsAs Cursor.statement dangling tokens (some stmt) stmt.span.stop)
    (run : SpellsRun more stmts) (others : ReadsRunAs inBraces more stmts) :
    ReadsRunAs inBraces (gap ++ (tokens ++ more)) (stmt :: stmts) := by
  obtain ⟨one, one_clean, first_reads⟩ := first
  obtain ⟨two, two_clean, others_read⟩ := others
  refine ⟨one ++ two, Finding.anyError_append_eq_false one_clean two_clean, ?_⟩
  intro rest last ends
  obtain ⟨weak, closed⟩ := run.follow ends
  obtain ⟨reached, statements⟩ := others_read rest stmt.span.stop ends
  refine ⟨reached, ?_⟩
  rw [List.append_assoc, List.append_assoc, spelled.statements_append separators
    (fun start => first_reads (more ++ rest) start weak fun _ => closed), statements]

/-- A block is read as soon as the run in its braces is. -/
theorem block {opening closing : Token} {inside : List Token} {stmts : List Stmt}
    (opens : opening.kind = .leftBrace) (closes : closing.kind = .rightBrace)
    (run : ReadsRunAs true inside stmts) :
    ReadsAs Cursor.statement false (opening :: (inside ++ [closing]))
      (some (.block ⟨opening.span.start, closing.span.stop⟩ stmts)) closing.span.stop := by
  obtain ⟨findings, clean, reads⟩ := braced opening closes run
  refine ⟨findings, clean, fun rest last _ _ => ?_⟩
  simp only [List.cons_append, List.append_assoc, List.nil_append, Cursor.statement_cons, opens,
    reads rest opening.span.stop]

/-- A body in braces is read as soon as the run in its braces is. -/
theorem body {opening closing : Token} {inside : List Token} {stmts : List Stmt}
    (opens : opening.kind = .leftBrace) (closes : closing.kind = .rightBrace)
    (run : ReadsRunAs true inside stmts) :
    ReadsAs Cursor.body false (opening :: (inside ++ [closing]))
      (.present ⟨opening.span.start, closing.span.stop⟩ stmts) closing.span.stop := by
  obtain ⟨findings, clean, reads⟩ := braced opening closes run
  refine ⟨findings, clean, fun rest last _ _ => ?_⟩
  simp only [List.cons_append, List.append_assoc, List.nil_append, Cursor.body_cons, if_pos opens,
    reads rest opening.span.stop]

end ReadsRunAs

namespace ReadsAs

/-- A body without braces is read as its statement is. -/
theorem single {tokens : List Token} {stmt : Stmt} {dangling : Bool}
    (unbraced : Token.headKind tokens ≠ .leftBrace) (spelled : SpellsStmt dangling tokens stmt)
    (only : ReadsAs Cursor.statement dangling tokens (some stmt) stmt.span.stop) :
    ReadsAs Cursor.body dangling tokens (.present stmt.span [stmt]) stmt.span.stop := by
  obtain ⟨findings, clean, reads⟩ := only
  refine ⟨findings, clean, fun rest last weak closed => ?_⟩
  have whole := reads rest last weak closed
  obtain ⟨token, others, rfl, start, starts⟩ := spelled.head
  rw [Token.headKind_cons] at unbraced
  rw [List.cons_append] at whole ⊢
  rw [Cursor.body_cons, if_neg unbraced,
    if_neg (by rw [TokenKind.endsBody_of_startsStmt starts]; exact Bool.false_ne_true)]
  simp only [whole, Cursor.spanFrom, start]
  rfl

end ReadsAs

mutual

/-- A statement is read from its spelling. -/
theorem SpellsStmt.reads {dangling : Bool} {tokens : List Token} {stmt : Stmt} :
    SpellsStmt dangling tokens stmt →
      ReadsAs Cursor.statement dangling tokens (some stmt) stmt.span.stop
  | .assign named assigns right => .assign named assigns right
  | .console kind shown => .console kind shown
  | .conditional kind first nearest others =>
    .conditional kind first.reads nearest others others.reads
  | .loop kind holds repeated => .loop kind holds repeated.headStrength repeated.reads
  | .block opens closes run => (run.reads true).block opens closes

/-- A branch is read from its spelling. -/
theorem SpellsBranch.reads {word : Token} {dangling : Bool} {tokens : List Token}
    {branch : Branch} :
    SpellsBranch word dangling tokens branch →
      ReadsAs (Cursor.branch word) dangling tokens branch branch.span.stop
  | .mk holds guarded => .branch holds guarded.headStrength guarded.reads

/-- The further branches and the last block of a conditional are read from their spelling. -/
theorem SpellsFurther.reads {start stop : Position} {dangling : Bool} {tokens : List Token}
    {branches : List Branch} {otherwise : Block} :
    SpellsFurther start dangling tokens branches otherwise stop →
      ReadsAs (Cursor.furtherFrom start) dangling tokens (branches, otherwise) stop
  | .none => .none start
  | .elseif layout kind first nearest others =>
    .elseif layout kind first.reads nearest others others.reads
  | .elseIf layout else_kind if_kind first nearest others =>
    .elseIf layout else_kind if_kind first.reads nearest others others.reads
  | .otherwise layout kind final run => .otherwise layout kind (run.headKind_ne final) run.reads

/-- A body is read from its spelling. -/
theorem SpellsBody.reads {dangling : Bool} {tokens : List Token} {body : Block} :
    SpellsBody dangling tokens body → ReadsAs Cursor.body dangling tokens body body.span.stop
  | .braced opens closes run => (run.reads true).body opens closes
  | .single unbraced only => .single unbraced only only.reads

/-- A run of statements is read from its spelling. -/
theorem SpellsRun.reads {tokens : List Token} {stmts : List Stmt} :
    SpellsRun tokens stmts → ∀ inBraces, ReadsRunAs inBraces tokens stmts
  | .done separators, _ => .done separators
  | .cons separators first others, inBraces =>
    .cons separators first first.reads others (others.reads inBraces)

end

/-! ## What is read is a spelling -/

/-- The tokens between two cursors: the second stands behind them, where they end, and before
nothing that adds a branch to a dangling conditional. -/
structure Passed (start behind : Cursor) (dangling : Bool) (tokens : List Token) (stop : Position) :
    Prop where
  /-- The tokens were at the front. -/
  parts : start.rest = tokens ++ behind.rest
  /-- The last consumed token ends where they end. -/
  stop : behind.last = stop
  /-- A further branch would have been read. -/
  nearest : dangling = true → Token.opensBranch behind.rest = false

namespace Spells

/-- Only a name is spelled as a name. -/
theorem of_name {stratum : Stratum} {tokens : List Token} {span : Span} {word : Bytes}
    (spelled : Spells stratum tokens (.name span word)) :
    ∃ token, tokens = [token] ∧ token.kind = .name ∧ token.span = span ∧ token.lexeme = word := by
  generalize same : Expr.name span word = expr at spelled
  induction spelled with
  | @name token kind =>
    obtain ⟨rfl, rfl⟩ := Expr.name.inj same
    exact ⟨token, rfl, kind, rfl, rfl⟩
  | weaken _ _ inner => exact inner same
  | number | text | trueWord | falseWord | nil | paren | power | unary | chain => cases same

end Spells

namespace Cursor

/-- A required expression that is read without an error is spelled by what was consumed. -/
theorem spells_of_requiredExpression {cursor : Cursor}
    (clean : Finding.anyError cursor.requiredExpression.findings = false) :
    ∃ expr tokens, cursor.requiredExpression.value = some expr ∧ Spells .either tokens expr ∧
      cursor.rest = tokens ++ cursor.requiredExpression.cursor.rest ∧
      cursor.requiredExpression.cursor.last = expr.span.stop := by
  cases found : cursor.requiredExpression.value with
  | none =>
    -- A missing expression has been reported.
    rw [requiredExpression, Parsed.value_required] at found
    rw [requiredExpression, Parsed.required, found, Finding.anyError_append] at clean
    simp [Finding.anyError, Finding.isError, Complaint.severity] at clean
  | some expr =>
    have plain := requiredExpression_eq found
    rw [plain] at found clean ⊢
    obtain ⟨tokens, parts, spelled, stop, -⟩ := cursor.readsSpelling 0 expr found clean
    exact ⟨expr, tokens, rfl, spelled, parts, stop⟩

/-- A statement that is read at a cursor without an error is spelled by what was consumed. -/
def ReadsStmt (cursor : Cursor) : Prop :=
  Finding.anyError cursor.statement.findings = false →
    ∃ stmt tokens dangling, cursor.statement.value = some stmt ∧ SpellsStmt dangling tokens stmt ∧
      Passed cursor cursor.statement.cursor dangling tokens stmt.span.stop

/-- An assignment that is read without an error is spelled by what was consumed. -/
theorem spells_of_assignment {cursor : Cursor}
    (clean : Finding.anyError cursor.assignment.findings = false) :
    ∃ stmt tokens, cursor.assignment.value = some stmt ∧ SpellsStmt false tokens stmt ∧
      Passed cursor cursor.assignment.cursor false tokens stmt.span.stop := by
  unfold assignment at clean ⊢
  cases found : (cursor.expression 0).value with
  | none => simp [found, Finding.anyError, Finding.isError, Complaint.severity] at clean
  | some target =>
    by_cases assigns : (cursor.expression 0).cursor.kind = .assign
    · cases target with
      | name span word =>
        simp only [found, assigns, if_pos, Finding.anyError_append, Bool.or_eq_false_iff] at clean ⊢
        obtain ⟨front, parts, left, -, -⟩ := cursor.readsSpelling 0 _ found clean.1
        obtain ⟨token, rfl, named, rfl, rfl⟩ := left.of_name
        obtain ⟨sign, others, ahead, sign_kind, advanced⟩ := cons_of_kind assigns (by decide)
        have start : cursor.peek = token := by rw [peek, parts]; rfl
        rw [assignedValue] at clean ⊢
        have value_clean : Finding.anyError
            (cursor.expression 0).cursor.advance.requiredExpression.findings = false := by
          have whole := clean.2
          split at whole <;> exact whole
        obtain ⟨value, back, value_found, right, value_parts, stop⟩ :=
          spells_of_requiredExpression value_clean
        simp only [value_found]
        refine ⟨_, token :: sign :: back, rfl, ?_, ?_, rfl, by simp⟩
        · rw [spanFrom, start, stop]
          exact .assign named sign_kind right
        · rw [parts, ahead]
          rw [advanced] at value_parts ⊢
          exact congrArg (fun tail => token :: sign :: tail) value_parts
      | _ =>
        -- Any other target is reported.
        simp [found, assigns, Finding.anyError, Finding.isError, Complaint.severity] at clean
    · simp [found, assigns, Finding.anyError, Finding.isError, Complaint.severity] at clean

/-- A console statement that is read without an error is spelled by its word and what was
consumed. -/
theorem spells_of_consoleStatement {word : Token} (kind : word.kind = .consoleWord)
    {rest : List Token} {start : Position}
    (clean : Finding.anyError ((Cursor.mk rest start).consoleStatement word).findings = false)
    (last : Position) :
    ∃ stmt tokens, ((Cursor.mk rest start).consoleStatement word).value = some stmt ∧
      SpellsStmt false tokens stmt ∧ Passed ⟨word :: rest, last⟩
        ((Cursor.mk rest start).consoleStatement word).cursor false tokens stmt.span.stop := by
  rw [consoleStatement] at clean ⊢
  have value_clean :
      Finding.anyError (Cursor.mk rest start).requiredExpression.findings = false := by
    have whole := clean
    split at whole <;> exact whole
  obtain ⟨value, tokens, found, shown, parts, stop⟩ := spells_of_requiredExpression value_clean
  simp only [found]
  refine ⟨_, word :: tokens, rfl, ?_, congrArg (word :: ·) parts, rfl, by simp⟩
  rw [spanFrom, stop]
  exact .console kind shown

/-- If a branch follows, skipping line breaks leads to the word that opens it. -/
theorem skipNewlines_of_opensBranch {cursor : Cursor}
    (opens : Token.opensBranch cursor.rest = true) :
    ∃ gap word rest reached, Token.AllNewlines gap ∧ cursor.rest = gap ++ word :: rest ∧
      cursor.skipNewlines = ⟨word :: rest, reached⟩ ∧
      (word.kind = .elseifWord ∨ word.kind = .elseWord) := by
  obtain ⟨gap, layout, parts, visible⟩ := cursor.skipNewlines_spec
  cases skipped : cursor.skipNewlines with
  | mk ahead reached =>
    rw [skipped] at parts visible
    rw [parts, Token.opensBranch_append layout] at opens
    cases ahead with
    | nil => simp [Token.opensBranch] at opens
    | cons word rest =>
      have shown : word.kind ≠ .newline := visible
      change Token.opensBranch (word :: rest) = true at opens
      rw [Token.opensBranch_cons shown] at opens
      exact ⟨gap, word, rest, reached, layout, parts, rfl, by simpa using opens⟩

/-- What is read as further to a conditional is spelled by what was consumed. -/
def ReadsFurther (cursor : Cursor) : Prop :=
  ∃ tokens dangling, SpellsFurther cursor.last dangling tokens cursor.branches.value.1
      cursor.branches.value.2 cursor.branches.cursor.last ∧
    Passed cursor cursor.branches.cursor dangling tokens cursor.branches.cursor.last

section Smaller

-- What is nested in a statement is read at cursors with fewer tokens left.
variable {bound : Nat} (smaller : ∀ other : Cursor, other.size < bound → other.ReadsStmt)

include smaller

/-- Statements that are read behind separators without an error are spelled by what was consumed;
reading them ends before the end of input or, inside braces, before a closing brace. -/
theorem spells_of_statements {inBraces : Bool}
    {cursor : Cursor} (within : cursor.size < bound)
    (clean : Finding.anyError (cursor.skipSeparators.statements inBraces).findings = false) :
    ∃ tokens, cursor.rest = tokens ++ (cursor.skipSeparators.statements inBraces).cursor.rest ∧
      SpellsRun tokens (cursor.skipSeparators.statements inBraces).value ∧
      ((cursor.skipSeparators.statements inBraces).cursor.rest = [] ∨
        Token.EndsRun inBraces (cursor.skipSeparators.statements inBraces).cursor.rest) := by
  induction length : cursor.size using Nat.strongRecOn generalizing cursor with
  | ind size ih =>
    obtain ⟨gap, separators, parts, -⟩ := cursor.skipWhile_spec isSeparator
    have shorter := size_skipSeparators_le cursor
    change cursor.rest = gap ++ cursor.skipSeparators.rest at parts
    generalize cursor.skipSeparators = ahead at *
    obtain ⟨tokens, last⟩ := ahead
    cases tokens with
    | nil =>
      rw [statements_nil]
      exact ⟨gap, parts, .done separators, .inl rfl⟩
    | cons token rest =>
      by_cases final : token.kind = .endOfInput ∨ (inBraces = true ∧ token.kind = .rightBrace)
      · -- The separators stand before the end of the run.
        rw [statements_cons, if_pos final]
        exact ⟨gap, parts, .done separators, .inr ⟨token, rest, rfl, final⟩⟩
      · rw [statements_cons, if_neg final] at clean ⊢
        simp only [Finding.anyError_append, Bool.or_eq_false_iff] at clean ⊢
        obtain ⟨stmt, front, dangling, found, first, passed⟩ :=
          smaller ⟨token :: rest, last⟩ (Nat.lt_of_le_of_lt shorter within) clean.1
        have less : (statement ⟨token :: rest, last⟩).cursor.size < cursor.size :=
          Nat.lt_of_lt_of_le ((consumes_statement ⟨token :: rest, last⟩).2 (Nat.succ_pos _)) shorter
        obtain ⟨more, others, run, ends⟩ :=
          ih _ (length ▸ less) (Nat.lt_trans less within) clean.2 rfl
        refine ⟨gap ++ (front ++ more), ?_, ?_, ends⟩
        · rw [parts, passed.parts, others]
          simp
        · rw [found]
          exact .cons separators first run

/-- A braced block that is read without an error is spelled by a run and a closing brace. -/
theorem spells_of_braced {brace : Token}
    {cursor : Cursor} (within : cursor.size < bound)
    (clean : Finding.anyError (cursor.braced brace).findings = false) :
    ∃ inside closing stmts, closing.kind = .rightBrace ∧ SpellsRun inside stmts ∧
      (cursor.braced brace).value = (⟨brace.span.start, closing.span.stop⟩, stmts) ∧
      cursor.rest = inside ++ [closing] ++ (cursor.braced brace).cursor.rest ∧
      (cursor.braced brace).cursor.last = closing.span.stop := by
  rw [braced_eq] at clean ⊢
  simp only [Finding.anyError_append, Bool.or_eq_false_iff] at clean ⊢
  obtain ⟨inside, parts, run, -⟩ := spells_of_statements smaller within clean.1
  obtain ⟨closing, rest, remaining, closes, stepped⟩ := expect_spec (by decide) clean.2
  refine ⟨inside, closing, _, closes, run, ?_, ?_, ?_⟩
  · rw [stepped]
    rfl
  · rw [stepped, parts, remaining]
    simp
  · rw [stepped]

/-- A body that is read without an error is spelled by what was consumed. -/
theorem spells_of_body {cursor : Cursor}
    (within : cursor.size < bound) (clean : Finding.anyError cursor.body.findings = false) :
    ∃ tokens dangling, SpellsBody dangling tokens cursor.body.value ∧
      Passed cursor cursor.body.cursor dangling tokens cursor.body.value.span.stop := by
  obtain ⟨tokens, last⟩ := cursor
  cases tokens with
  | nil => simp [Finding.anyError, Finding.isError, Complaint.severity] at clean
  | cons token rest =>
    rw [body_cons] at clean ⊢
    by_cases opens : token.kind = .leftBrace
    · simp only [if_pos opens] at clean ⊢
      have less : (Cursor.mk rest token.span.stop).size < bound := Nat.lt_of_succ_lt within
      obtain ⟨inside, closing, stmts, closes, run, value, parts, stop⟩ :=
        spells_of_braced smaller less clean
      refine ⟨token :: (inside ++ [closing]), false, ?_, congrArg (token :: ·) parts, ?_, by simp⟩
      · rw [value]
        exact .braced opens closes run
      · rw [value]
        exact stop
    · by_cases ends : endsBody token.kind = true
      · rw [if_neg opens, if_pos ends] at clean
        simp [Finding.anyError, Finding.isError, Complaint.severity] at clean
      · simp only [if_neg opens, if_neg ends] at clean ⊢
        -- A single statement is read at the same cursor, so `bound` is above its size as well.
        obtain ⟨stmt, front, dangling, found, only, passed⟩ := smaller _ within clean
        obtain ⟨head, others, rfl, start, -⟩ := only.head
        have same : token = head := (List.cons.inj passed.parts).1
        subst same
        have span :
            (statement ⟨token :: rest, last⟩).cursor.spanFrom token.span.start = stmt.span := by
          rw [spanFrom, passed.stop, start]
        rw [found, span]
        exact ⟨token :: others, dangling, .single opens only, passed⟩

/-- A branch that is read without an error is spelled by what was consumed. -/
theorem spells_of_branch {word : Token}
    {cursor : Cursor} (within : cursor.size < bound)
    (clean : Finding.anyError (cursor.branch word).findings = false) :
    ∃ tokens dangling, SpellsBranch word dangling tokens (cursor.branch word).value ∧
      Passed cursor (cursor.branch word).cursor dangling tokens
        (cursor.branch word).value.span.stop := by
  rw [branch_eq] at clean ⊢
  simp only [Finding.anyError_append, Bool.or_eq_false_iff] at clean ⊢
  obtain ⟨condition, test, found, holds, parts, -⟩ := spells_of_requiredExpression clean.1
  have less := Nat.lt_of_le_of_lt (size_requiredExpression_le cursor) within
  obtain ⟨inside, dangling, guarded, passed⟩ := spells_of_body smaller less clean.2
  refine ⟨test ++ inside, dangling, ?_, ?_, rfl, passed.nearest⟩
  · rw [found, spanFrom, passed.stop]
    exact .mk holds guarded
  · rw [parts, passed.parts, List.append_assoc]

/-- A branch and what is further to it are spelled one behind the other. -/
theorem spells_of_chain {word : Token}
    {cursor : Cursor} (within : cursor.size < bound)
    (clean : Finding.anyError (cursor.branch word).findings = false)
    (others : (cursor.branch word).cursor.ReadsFurther) :
    ∃ tokens more inner dangling, SpellsBranch word inner tokens (cursor.branch word).value ∧
      (inner = true → more = []) ∧
      SpellsFurther (cursor.branch word).value.span.stop dangling more
        (cursor.branch word).cursor.branches.value.1 (cursor.branch word).cursor.branches.value.2
        (cursor.branch word).cursor.branches.cursor.last ∧
      Passed cursor (cursor.branch word).cursor.branches.cursor dangling (tokens ++ more)
        (cursor.branch word).cursor.branches.cursor.last := by
  obtain ⟨tokens, inner, first, passed⟩ := spells_of_branch smaller within clean
  obtain ⟨more, dangling, further, others_passed⟩ := others
  rw [passed.stop] at further
  refine ⟨tokens, more, inner, dangling, first, fun ends => ?_, further, ?_, rfl,
    others_passed.nearest⟩
  · -- Behind a dangling body no branch follows, so none is read.
    have parts := others_passed.parts
    have stays := branches_of_not_opensBranch (passed.nearest ends) (cursor.branch word).cursor.last
    rw [stays] at parts
    exact List.self_eq_append_left.1 parts
  · rw [passed.parts, others_passed.parts, List.append_assoc]

/-- A further branch is read at a cursor together with what is further to it, if one rule of the
grammar puts the tokens in `front` before them. -/
theorem readsFurther_of_branch {cursor : Cursor}
    {word : Token} {front rest : List Token} (parts : cursor.rest = front ++ rest)
    (within : cursor.size < bound) (nonempty : front ≠ [])
    (whole : cursor.branches =
      let first := (Cursor.mk rest word.span.stop).branch word
      let others := first.cursor.branches
      ⟨(first.value :: others.value.1, others.value.2), others.cursor,
        first.findings ++ others.findings⟩)
    (clean : Finding.anyError cursor.branches.findings = false)
    (later : ∀ other : Cursor, other.size < cursor.size →
      Finding.anyError other.branches.findings = false → other.ReadsFurther)
    (rule : ∀ {tokens more : List Token} {inner dangling : Bool} {branch : Branch}
      {branches : List Branch} {otherwise : Block} {stop : Position},
      SpellsBranch word inner tokens branch → (inner = true → more = []) →
      SpellsFurther branch.span.stop dangling more branches otherwise stop →
      SpellsFurther cursor.last dangling (front ++ (tokens ++ more)) (branch :: branches) otherwise
        stop) :
    cursor.ReadsFurther := by
  have shorter : (Cursor.mk rest word.span.stop).size < cursor.size := by
    have positive := List.length_pos_iff.2 nonempty
    show rest.length < cursor.rest.length
    rw [parts, List.length_append]
    omega
  rw [whole] at clean
  rw [ReadsFurther, whole]
  simp only [Finding.anyError_append, Bool.or_eq_false_iff] at clean ⊢
  have less := Nat.lt_of_le_of_lt (size_branch_le word ⟨rest, word.span.stop⟩) shorter
  obtain ⟨tokens, more, inner, dangling, first, nearest, others, passed⟩ :=
    spells_of_chain smaller (Nat.lt_trans shorter within) clean.1 (later _ less clean.2)
  refine ⟨front ++ (tokens ++ more), dangling, rule first nearest others, ?_, rfl, passed.nearest⟩
  rw [parts, List.append_assoc, ← passed.parts]

/-- Further branches that are read without an error are spelled by what was consumed. -/
theorem spells_of_branches {cursor : Cursor}
    (within : cursor.size < bound) (clean : Finding.anyError cursor.branches.findings = false) :
    cursor.ReadsFurther := by
  induction length : cursor.size using Nat.strongRecOn generalizing cursor with
  | ind size ih =>
    by_cases opens : Token.opensBranch cursor.rest = true
    · obtain ⟨gap, word, rest, reached, layout, parts, skips, kind⟩ :=
        skipNewlines_of_opensBranch opens
      have later (other : Cursor) (less : other.size < cursor.size)
          (other_clean : Finding.anyError other.branches.findings = false) : other.ReadsFurther :=
        ih _ (length ▸ less) (Nat.lt_trans less within) other_clean rfl
      rcases kind with kind | kind
      · have front : cursor.rest = (gap ++ [word]) ++ rest := by simpa using parts
        refine readsFurther_of_branch smaller front within (by simp) (branches_of_elseif skips kind)
          clean later fun first nearest others => ?_
        simpa using SpellsFurther.elseif layout kind first nearest others
      · by_cases next : Token.headKind rest = .ifWord
        · obtain ⟨second, others, rfl, if_kind⟩ := Token.cons_of_headKind next (by decide)
          have front : cursor.rest = (gap ++ [word, second]) ++ others := by simpa using parts
          refine readsFurther_of_branch smaller front within (by simp)
            (branches_of_elseIf skips kind if_kind) clean later fun first nearest others => ?_
          simpa using SpellsFurther.elseIf layout kind if_kind first nearest others
        · -- The last block ends the conditional.
          have whole := branches_of_else skips kind next
          rw [whole] at clean
          rw [ReadsFurther, whole]
          have less : (Cursor.mk rest word.span.stop).size < bound := by
            refine Nat.lt_of_le_of_lt ?_ within
            show rest.length ≤ cursor.rest.length
            rw [parts, List.length_append, List.length_cons]
            omega
          obtain ⟨inside, dangling, run, passed⟩ := spells_of_body smaller less clean
          have final : Token.headKind inside ≠ .ifWord := by
            obtain ⟨token, others, rfl, -⟩ := run.head
            intro same
            rw [show rest = _ from passed.parts] at next
            exact next same
          refine ⟨gap ++ word :: inside, dangling, ?_, ?_, rfl, passed.nearest⟩
          · rw [passed.stop]
            exact .otherwise layout kind final run
          · rw [parts, List.append_assoc, List.cons_append, ← passed.parts]
    · -- No branch follows, and the line breaks stay for what does.
      rw [Bool.not_eq_true] at opens
      have stays := branches_of_not_opensBranch opens cursor.last
      refine ⟨[], true, ?_, ?_⟩
      · rw [show cursor.branches = _ from stays]
        exact .none
      · rw [show cursor.branches = _ from stays]
        exact ⟨rfl, rfl, fun _ => opens⟩

end Smaller

/-- A statement that is read without an error is spelled by what was consumed. -/
theorem readsStmt (cursor : Cursor) : cursor.ReadsStmt := by
  -- By the number of tokens left: every nested statement stands behind the token that opens it.
  induction length : cursor.size using Nat.strongRecOn generalizing cursor with
  | ind size ih =>
    have smaller (other : Cursor) (less : other.size < cursor.size) : other.ReadsStmt :=
      ih _ (length ▸ less) other rfl
    obtain ⟨tokens, last⟩ := cursor
    rw [ReadsStmt]
    intro clean
    cases tokens with
    | nil =>
      rw [statement_nil] at clean ⊢
      obtain ⟨stmt, tokens, found, spelled, passed⟩ := spells_of_assignment clean
      exact ⟨stmt, tokens, false, found, spelled, passed⟩
    | cons token rest =>
      have within : (Cursor.mk rest token.span.stop).size < (Cursor.mk (token :: rest) last).size :=
        Nat.lt_succ_self _
      rw [statement_cons] at clean ⊢
      cases kind : token.kind with
      | ifWord =>
        simp only [kind, Finding.anyError_append, Bool.or_eq_false_iff] at clean ⊢
        have less := Nat.lt_of_le_of_lt (size_branch_le token ⟨rest, token.span.stop⟩) within
        obtain ⟨front, more, inner, dangling, first, nearest, others, passed⟩ :=
          spells_of_chain smaller within clean.1 (spells_of_branches smaller less clean.2)
        exact ⟨_, token :: (front ++ more), dangling, rfl, .conditional kind first nearest others,
          congrArg (token :: ·) passed.parts, rfl, passed.nearest⟩
      | whileWord =>
        simp only [kind, Finding.anyError_append, Bool.or_eq_false_iff] at clean ⊢
        obtain ⟨condition, test, found, holds, parts, -⟩ := spells_of_requiredExpression clean.1.1
        have less := Nat.lt_of_le_of_lt (size_requiredExpression_le ⟨rest, token.span.stop⟩) within
        obtain ⟨inside, dangling, repeated, passed⟩ := spells_of_body smaller less clean.2
        refine ⟨_, token :: (test ++ inside), dangling, rfl, ?_, ?_, rfl, passed.nearest⟩
        · rw [found, spanFrom, passed.stop]
          exact .loop kind holds repeated
        · rw [passed.parts, ← List.append_assoc] at parts
          exact congrArg (token :: ·) parts
      | consoleWord =>
        simp only [kind] at clean ⊢
        obtain ⟨stmt, tokens, found, spelled, passed⟩ := spells_of_consoleStatement kind clean last
        exact ⟨stmt, tokens, false, found, spelled, passed⟩
      | leftBrace =>
        simp only [kind] at clean ⊢
        obtain ⟨inside, closing, stmts, closes, run, value, parts, stop⟩ :=
          spells_of_braced smaller within clean
        refine ⟨_, token :: (inside ++ [closing]), false, rfl, ?_, ?_, ?_, by simp⟩
        · rw [value]
          exact .block kind closes run
        · exact congrArg (token :: ·) parts
        · rw [value]
          exact stop
      | _ =>
        simp only [kind] at clean ⊢
        obtain ⟨stmt, tokens, found, spelled, passed⟩ := spells_of_assignment clean
        exact ⟨stmt, tokens, false, found, spelled, passed⟩

end Cursor

end ConsoleScript
