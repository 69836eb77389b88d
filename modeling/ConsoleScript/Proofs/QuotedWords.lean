import ConsoleScript.Proofs.EndlessLoops
import ConsoleScript.Proofs.ReadingEnds
import ConsoleScript.Proofs.RunNames

/-! # What readers quote

Readers make no words of their own: what a complaint quotes, and every name in a tree, is a lexeme
or a description of a token that was read.

* **`Complaint.quotations`** — the words that a complaint quotes;
* **`Token.SpelledIn`** — a token has its words in a given list;
* **`ExpressionCall.quotes_read`**, **`StatementCall.quotes_read`** — every reader quotes words of
  the list only, and only these are names in what it gives, since every step of a reader keeps this.

`Parsing.quotes_read` is what follows for whole programs. -/

namespace ConsoleScript

/-! ## Words -/

/-- The words that a complaint quotes from the source. -/
def Complaint.quotations : Complaint → List Bytes
  | unexpectedCharacter word | malformedNumber word | invalidNumber word | expectedToken _ word
  | expectedExpression word | expectedOperand word | expectedBody word | unexpectedToken word =>
    [word]
  | expectedExpressionAfter operator found => [operator, found]
  | unterminatedText | expressionStatement | invalidTarget | endlessLoop => []

/-- Findings quote given words only. -/
def Finding.Quote (words : List Bytes) (findings : List Finding) : Prop :=
  ∀ finding ∈ findings, finding.complaint.quotations ⊆ words

namespace Finding.Quote

variable {words : List Bytes} {findings more : List Finding}

theorem nothing : Quote words [] :=
  List.forall_mem_nil _

theorem single {complaint : Complaint} {span : Span} (quoted : complaint.quotations ⊆ words) :
    Quote words [⟨complaint, span⟩] :=
  List.forall_mem_singleton.2 quoted

/-- A complaint that quotes a single word. -/
theorem word {complaint : Complaint} {span : Span} {word : Bytes}
    (only : complaint.quotations = [word]) (given : word ∈ words) :
    Quote words [⟨complaint, span⟩] :=
  single (only ▸ List.cons_subset.2 ⟨given, List.nil_subset _⟩)

theorem append (first : Quote words findings) (second : Quote words more) :
    Quote words (findings ++ more) :=
  List.forall_mem_append.2 ⟨first, second⟩

end Finding.Quote

/-- A token has its lexeme and its description among given words. -/
structure Token.SpelledIn (words : List Bytes) (token : Token) : Prop where
  /-- The lexeme. -/
  lexeme : token.lexeme ∈ words
  /-- How a message names the token. -/
  description : token.description ∈ words

namespace Cursor.Ahead

variable {words : List Bytes} {cursor : Cursor} (ending : Token.pastEnd.description ∈ words)
  (ahead : cursor.Ahead (Token.SpelledIn words))
include ending ahead

/-- The token at a cursor is described by a given word, at the end as well. -/
theorem peek : cursor.peek.description ∈ words := by
  obtain ⟨rest, last⟩ := cursor
  cases rest with
  | nil => exact ending
  | cons token rest => exact ahead.here.description

theorem expect (wanted : TokenKind) : Finding.Quote words (cursor.expect wanted).findings := by
  rw [Cursor.expect]
  split
  · exact .nothing
  · exact .word rfl (ahead.peek ending)

theorem required {parsed : Parsed (Option Expr)} (quoted : Finding.Quote words parsed.findings) :
    Finding.Quote words (parsed.required cursor).findings := by
  rw [Parsed.required]
  split
  · exact quoted
  · exact quoted.append (.word rfl (ahead.peek ending))

end Cursor.Ahead

/-! ## Names -/

/-- Statements, those in them apart, hold given names only. -/
def Stmt.Named (words : List Bytes) (stmts : List Stmt) : Prop :=
  ∀ stmt ∈ stmts, stmt.names ⊆ words

/-- Branches hold given names only, in their conditions as in their bodies. -/
def Branch.Named (words : List Bytes) (branches : List Branch) : Prop :=
  ∀ branch ∈ branches, branch.condition.names ⊆ words ∧ Stmt.Named words branch.body.parts

namespace Stmt.Named

variable {words : List Bytes} {stmts more : List Stmt}

theorem nil : Named words [] :=
  List.forall_mem_nil _

/-- A statement comes in with the name that it assigns and those in its expressions. -/
theorem cons {stmt : Stmt} (target : stmt.target?.toList ⊆ words)
    (exprs : ∀ expr ∈ stmt.exprs, expr.names ⊆ words) (nested : Named words stmts) :
    Named words (stmt :: stmts) := by
  refine List.forall_mem_cons.2 ⟨List.append_subset.2 ⟨target, ?_⟩, nested⟩
  intro name member
  obtain ⟨expr, stands, inside⟩ := List.mem_flatMap.1 member
  exact exprs expr stands inside

theorem append (first : Named words stmts) (second : Named words more) :
    Named words (stmts ++ more) :=
  List.forall_mem_append.2 ⟨first, second⟩

/-- A single statement is a run of statements. -/
theorem run {stmt : Stmt} (named : Named words stmt.parts) :
    Named words (stmtParts (some stmt).toList) :=
  named.append nil

/-- The statements of a run have their names if each part of the run does. -/
theorem runs (first : Named words (stmtParts stmts)) (second : Named words (stmtParts more)) :
    Named words (stmtParts (stmts ++ more)) := by
  rw [stmtParts_append]
  exact first.append second

theorem branches {branches : List Branch} (named : Branch.Named words branches) :
    Named words (branchParts branches) := by
  induction branches with
  | nil => exact nil
  | cons branch rest ih =>
    obtain ⟨span, condition, body⟩ := branch
    obtain ⟨⟨-, here⟩, others⟩ := List.forall_mem_cons.1 named
    exact here.append (ih others)

theorem conditional {span : Span} {branches : List Branch} {otherwise : Block}
    (first : Branch.Named words branches) (last : Named words otherwise.parts) :
    Named words (Stmt.conditional span branches otherwise).parts := by
  refine cons (List.nil_subset _) ?_ ((Named.branches first).append last)
  intro condition tested
  obtain ⟨branch, among, rfl⟩ := List.mem_map.1 tested
  exact (first branch among).1

theorem loop {span : Span} {condition : Expr} {body : Block} (tested : condition.names ⊆ words)
    (repeated : Named words body.parts) : Named words (Stmt.loop span condition body).parts :=
  cons (List.nil_subset _) (List.forall_mem_singleton.2 tested) repeated

theorem console {span : Span} {value : Expr} (shown : value.names ⊆ words) :
    Named words (Stmt.console span value).parts :=
  cons (List.nil_subset _) (List.forall_mem_singleton.2 shown) nil

theorem assign {span : Span} {name : Bytes} {value : Expr} (target : name ∈ words)
    (assigned : value.names ⊆ words) : Named words (Stmt.assign span name value).parts :=
  cons (List.cons_subset.2 ⟨target, List.nil_subset _⟩) (List.forall_mem_singleton.2 assigned) nil

theorem block {span : Span} (inside : Named words (stmtParts stmts)) :
    Named words (Stmt.block span stmts).parts :=
  cons (List.nil_subset _) (List.forall_mem_nil _) inside

end Stmt.Named

/-! ## Readers of expressions -/

/-- An expression that is read quotes given words, and all tokens that are left have theirs among
them. -/
def Parsed.QuotesIn (words : List Bytes) (parsed : Parsed (Option Expr)) : Prop :=
  parsed.cursor.Ahead (Token.SpelledIn words) ∧ Finding.Quote words parsed.findings ∧
    (parsed.value.getD .missing).names ⊆ words

/-- A reader of expressions quotes given words, if the tokens ahead have their words among them and
a left operand its names. -/
def ExpressionCall.Quotes (words : List Bytes) : ExpressionCall → Parsed (Option Expr) → Prop
  | expression _ cursor, parsed | operand cursor, parsed =>
    cursor.Ahead (Token.SpelledIn words) → parsed.QuotesIn words
  | continuation _ left cursor, parsed =>
    cursor.Ahead (Token.SpelledIn words) → left.names ⊆ words → parsed.QuotesIn words

section Readers

variable {words : List Bytes}

namespace ExpressionCall

theorem quotes_expression {floor : Nat} {cursor : Cursor} {parsed : Parsed (Option Expr)}
    (step : ExpressionStep (Quotes words) floor cursor parsed) :
    (expression floor cursor).Quotes words parsed := by
  intro ahead
  cases step with
  | missing first => exact first ahead
  | continued first further =>
    obtain ⟨between, quoted, left⟩ := first ahead
    obtain ⟨behind, more, whole⟩ := further between left
    exact ⟨behind, quoted.append more, whole⟩

variable (ending : Token.pastEnd.description ∈ words)
include ending

theorem quotes_continuation {floor : Nat} {left : Expr} {cursor : Cursor}
    {parsed : Parsed (Option Expr)}
    (step : ContinuationStep (Quotes words) floor left cursor parsed) :
    (continuation floor left cursor).Quotes words parsed := by
  intro ahead left_names
  cases step with
  | done => exact ⟨ahead, .nothing, left_names⟩
  | missing _ right =>
    obtain ⟨behind, quoted, -⟩ := right (ahead.behind.skipWhile _)
    have both := List.cons_subset.2 ⟨ahead.here.lexeme,
      List.cons_subset.2 ⟨behind.peek ending, List.nil_subset words⟩⟩
    exact ⟨behind, quoted.append (.single both), List.nil_subset _⟩
  | joined _ right further =>
    obtain ⟨between, quoted, right_names⟩ := right (ahead.behind.skipWhile _)
    obtain ⟨behind, more, whole⟩ :=
      further between (List.append_subset.2 ⟨left_names, right_names⟩)
    exact ⟨behind, quoted.append more, whole⟩

theorem quotes_operand {cursor : Cursor} {parsed : Parsed (Option Expr)}
    (step : OperandStep (Quotes words) cursor parsed) : (operand cursor).Quotes words parsed := by
  intro ahead
  cases step with
  | absent => exact ⟨ahead, .nothing, List.nil_subset _⟩
  | number =>
    -- Only a number that is not accepted is complained about, and by its lexeme.
    refine ⟨ahead.behind, ?_, List.nil_subset _⟩
    dsimp only
    split
    · exact .nothing
    · exact .word rfl ahead.here.lexeme
  | text | boolean | nil => exact ⟨ahead.behind, .nothing, List.nil_subset _⟩
  | name =>
    exact ⟨ahead.behind, .nothing, List.cons_subset.2 ⟨ahead.here.lexeme, List.nil_subset _⟩⟩
  | unsigned _ inner =>
    obtain ⟨behind, quoted, -⟩ := inner ahead.behind
    exact ⟨behind, quoted.append (.word rfl ahead.here.lexeme), List.nil_subset _⟩
  | signed _ inner => exact inner ahead.behind
  | unenclosed _ skipped inner =>
    subst skipped
    have start := ahead.behind.skipWhile (· == .newline)
    obtain ⟨behind, quoted, -⟩ := inner start
    exact ⟨behind, quoted.append (.word rfl (start.peek ending)), List.nil_subset _⟩
  | enclosed _ inner closes =>
    subst closes
    obtain ⟨behind, quoted, content⟩ := inner (ahead.behind.skipWhile _)
    have newlines := behind.skipWhile (· == .newline)
    exact ⟨newlines.later (Cursor.suffix_expect _ _), quoted.append (newlines.expect ending _),
      content⟩

/-- Every reader of expressions quotes given words. -/
theorem quotes_read (call : ExpressionCall) : call.Quotes words call.read := by
  refine read_induction (motive := Quotes words) (fun call => ⟨none, call.cursor, []⟩) ?_
    (fun call parsed step => ?_) call
  · intro other
    cases other with
    | expression | operand => exact fun ahead => ⟨ahead, .nothing, List.nil_subset _⟩
    | continuation => exact fun ahead _ => ⟨ahead, .nothing, List.nil_subset _⟩
  cases call with
  | expression floor cursor => exact quotes_expression step
  | continuation floor left cursor => exact quotes_continuation ending step
  | operand cursor => exact quotes_operand ending step

end ExpressionCall

variable (ending : Token.pastEnd.description ∈ words)
include ending

namespace Cursor

variable {cursor : Cursor} (ahead : cursor.Ahead (Token.SpelledIn words))
include ahead

theorem quotes_expression (floor : Nat) :
    (cursor.expression floor).cursor.Ahead (Token.SpelledIn words) ∧
      Finding.Quote words (cursor.expression floor).findings ∧
      ((cursor.expression floor).value.getD .missing).names ⊆ words :=
  (ExpressionCall.expression floor cursor).quotes_read ending ahead

theorem quotes_requiredExpression :
    cursor.requiredExpression.cursor.Ahead (Token.SpelledIn words) ∧
      Finding.Quote words cursor.requiredExpression.findings ∧
      (cursor.requiredExpression.value.getD .missing).names ⊆ words := by
  obtain ⟨behind, quoted, named⟩ := quotes_expression ending ahead 0
  rw [requiredExpression, Parsed.value_required, Parsed.cursor_required]
  exact ⟨behind, ahead.required ending quoted, named⟩

/-! ## Readers of statements -/

theorem quotes_consoleStatement (word : Token) :
    Finding.Quote words (cursor.consoleStatement word).findings ∧
      Stmt.Named words (stmtParts (cursor.consoleStatement word).value.toList) := by
  obtain ⟨-, quoted, named⟩ := quotes_requiredExpression ending ahead
  rw [consoleStatement]
  split
  · exact ⟨quoted, .nil⟩
  · rename_i expr found
    rw [found] at named
    exact ⟨quoted, .run (.console named)⟩

theorem quotes_assignedValue (start : Position) {name : Bytes} (target : name ∈ words) :
    Finding.Quote words (cursor.assignedValue start name).findings ∧
      Stmt.Named words (stmtParts (cursor.assignedValue start name).value.toList) := by
  obtain ⟨-, quoted, named⟩ := quotes_requiredExpression ending ahead
  rw [assignedValue]
  split
  · exact ⟨quoted, .nil⟩
  · rename_i expr found
    rw [found] at named
    exact ⟨quoted, .run (.assign target named)⟩

theorem quotes_assignment :
    Finding.Quote words cursor.assignment.findings ∧
      Stmt.Named words (stmtParts cursor.assignment.value.toList) := by
  obtain ⟨behind, quoted, named⟩ := quotes_expression ending ahead 0
  rw [assignment]
  dsimp only
  split
  · exact ⟨quoted.append (.word rfl (ahead.peek ending)), .nil⟩
  · rename_i expr found
    rw [found] at named
    have wrong {complaint : Complaint} {span : Span} (none : complaint.quotations = []) :
        Finding.Quote words ((cursor.expression 0).findings ++ [⟨complaint, span⟩]) :=
      quoted.append (.single (none ▸ List.nil_subset _))
    split
    · split
      · rename_i name
        have target : name ∈ words := named List.mem_cons_self
        have next := behind.later (suffix_advance _)
        obtain ⟨more, assigned⟩ := quotes_assignedValue ending next cursor.peek.span.start target
        exact ⟨quoted.append more, assigned⟩
      · exact ⟨wrong rfl, .nil⟩
    · exact ⟨wrong rfl, .nil⟩

end Cursor

namespace StatementCall

/-- What a reader of statements gives has given names only. -/
def Named (words : List Bytes) : (call : StatementCall) → call.Result → Prop
  | statement _, found => Stmt.Named words (stmtParts found.toList)
  | branch _ _, found => Branch.Named words [found]
  | branches _, found => Branch.Named words found.1 ∧ Stmt.Named words found.2.parts
  | body _, found => Stmt.Named words found.parts
  | braced _ _, found => Stmt.Named words (stmtParts found.2)
  | statements _ _, found => Stmt.Named words (stmtParts found)

/-- A reader of statements quotes given words, if the tokens ahead have their words among them; only
these are names in what it gives. -/
def Quotes (words : List Bytes) (call : StatementCall) (parsed : Parsed call.Result) : Prop :=
  call.cursor.Ahead (Token.SpelledIn words) →
    parsed.cursor.Ahead (Token.SpelledIn words) ∧ Finding.Quote words parsed.findings ∧
      call.Named words parsed.value

omit ending in
/-- A chain of branches is one branch with what is further to it. -/
theorem quotes_chain {word : Token} {start : Cursor} {chain : Parsed (List Branch × Block)}
    (step : ChainStep (Quotes words) word start chain)
    (ready : start.Ahead (Token.SpelledIn words)) :
    chain.cursor.Ahead (Token.SpelledIn words) ∧ Finding.Quote words chain.findings ∧
      Branch.Named words chain.value.1 ∧ Stmt.Named words chain.value.2.parts := by
  cases step with
  | linked opening further =>
    obtain ⟨between, quoted, first⟩ := opening ready
    obtain ⟨behind, more, others, last⟩ := further between
    exact ⟨behind, quoted.append more,
      List.forall_mem_cons.2 ⟨first _ List.mem_cons_self, others⟩, last⟩

theorem quotes_statement {cursor : Cursor} {parsed : Parsed (Option Stmt)}
    (step : StatementStep (Quotes words) cursor parsed) :
    (statement cursor).Quotes words parsed := by
  intro ahead
  cases step with
  | assignment =>
    exact ⟨ahead.later cursor.suffix_assignment,
      Cursor.quotes_assignment ending ahead⟩
  | conditional _ linked =>
    obtain ⟨next, quoted, first, others⟩ := quotes_chain linked ahead.behind
    exact ⟨next, quoted, .run (.conditional first others)⟩
  | @loop word _ _ condition _ _ tested content =>
    obtain ⟨between, quoted, guarded⟩ := Cursor.quotes_requiredExpression ending ahead.behind
    rw [tested] at between quoted guarded
    obtain ⟨next, more, inside⟩ := content between
    have warned : Finding.Quote words (Cursor.loopWarnings word condition.value) := by
      unfold Cursor.loopWarnings
      split
      · exact .single (List.nil_subset _)
      · exact .nothing
    exact ⟨next, (quoted.append warned).append more, .run (.loop guarded inside)⟩
  | console =>
    exact ⟨ahead.behind.later (Cursor.suffix_consoleStatement _ _),
      Cursor.quotes_consoleStatement ending ahead.behind _⟩
  | block _ content =>
    obtain ⟨next, quoted, inside⟩ := content ahead.behind
    exact ⟨next, quoted, .run (.block inside)⟩

theorem quotes_branch {word : Token} {cursor : Cursor} {parsed : Parsed Branch}
    (step : BranchStep (Quotes words) word cursor parsed) :
    (branch word cursor).Quotes words parsed := by
  intro ahead
  cases step with
  | guarded content =>
    obtain ⟨between, quoted, tested⟩ := Cursor.quotes_requiredExpression ending ahead
    obtain ⟨next, more, inside⟩ := content between
    exact ⟨next, quoted.append more, List.forall_mem_singleton.2 ⟨tested, inside⟩⟩

omit ending in
theorem quotes_branches {cursor : Cursor} {parsed : Parsed (List Branch × Block)}
    (step : BranchesStep (Quotes words) cursor parsed) :
    (branches cursor).Quotes words parsed := by
  intro ahead
  cases step with
  | absent => exact ⟨ahead, .nothing, List.forall_mem_nil _, .nil⟩
  | further opens linked => exact quotes_chain linked (ahead.later opens.suffix)
  | otherwise skipped _ _ content =>
    obtain ⟨next, quoted, last⟩ :=
      content (ahead.later (Cursor.suffix_of_skipNewlines skipped))
    exact ⟨next, quoted, List.forall_mem_nil _, last⟩

theorem quotes_body {cursor : Cursor} {parsed : Parsed Block}
    (step : BodyStep (Quotes words) cursor parsed) : (body cursor).Quotes words parsed := by
  intro ahead
  cases step with
  | missing => exact ⟨ahead, .word rfl (ahead.peek ending), .nil⟩
  | block _ content => exact content ahead.behind
  | single _ content => exact content ahead

theorem quotes_braced {brace : Token} {cursor : Cursor} {parsed : Parsed (Span × List Stmt)}
    (step : BracedStep (Quotes words) brace cursor parsed) :
    (braced brace cursor).Quotes words parsed := by
  intro ahead
  cases step with
  | closed content closes =>
    subst closes
    obtain ⟨between, quoted, inside⟩ := content (ahead.skipWhile _)
    exact ⟨between.later (Cursor.suffix_expect _ _), quoted.append (between.expect ending _),
      inside⟩

omit ending in
theorem quotes_statements {inBraces : Bool} {cursor : Cursor} {parsed : Parsed (List Stmt)}
    (step : StatementsStep (Quotes words) inBraces cursor parsed) :
    (statements inBraces cursor).Quotes words parsed := by
  intro ahead
  cases step with
  | ended => exact ⟨ahead, .nothing, .nil⟩
  | more _ first further =>
    obtain ⟨between, quoted, stmt⟩ := first ahead
    obtain ⟨behind, more, others⟩ := further (between.skipWhile _)
    exact ⟨behind, quoted.append more, .runs stmt others⟩

/-- Every reader of statements quotes given words. -/
theorem quotes_read (call : StatementCall) : call.Quotes words call.read := by
  refine read_induction (motive := Quotes words) idle ?_ (fun call parsed step => ?_) call
  · intro other ahead
    refine ⟨other.cursor_idle.symm ▸ ahead, ?_⟩
    cases other with
    | branch => exact ⟨.nothing, List.forall_mem_singleton.2 ⟨List.nil_subset _, .nil⟩⟩
    | branches => exact ⟨.nothing, List.forall_mem_nil _, .nil⟩
    | statement | body | braced | statements => exact ⟨.nothing, .nil⟩
  cases call with
  | statement cursor => exact quotes_statement ending step
  | branch word cursor => exact quotes_branch ending step
  | branches cursor => exact quotes_branches step
  | body cursor => exact quotes_body ending step
  | braced brace cursor => exact quotes_braced ending step
  | statements inBraces cursor => exact quotes_statements step

end StatementCall

end Readers

/-! ## Programs -/

namespace Token

/-- The words of tokens: how a message names the end of input behind them, their lexemes and how a
message names them. -/
def words (tokens : List Token) : List Bytes :=
  pastEnd.description :: tokens.flatMap fun token => [token.lexeme, token.description]

end Token

/-- What is read from a list of tokens quotes words of these tokens only, and only these are names
in the program. -/
theorem Parsing.quotes_read (tokens : List Token) :
    Finding.Quote (Token.words tokens) (read tokens).findings ∧
      (Node.program (read tokens).program).names ⊆ Token.words tokens := by
  have ending : Token.pastEnd.description ∈ Token.words tokens := List.mem_cons_self
  have ahead : (Cursor.ofTokens tokens).Ahead (Token.SpelledIn (Token.words tokens)) := by
    intro token member
    have own {word : Bytes} (inside : word ∈ [token.lexeme, token.description]) :
        word ∈ Token.words tokens :=
      List.mem_cons_of_mem _ (List.mem_flatMap.2 ⟨token, member, inside⟩)
    exact ⟨own (by simp), own (by simp)⟩
  obtain ⟨-, quoted, named⟩ := (StatementCall.statements false _).quotes_read ending
    (ahead.skipWhile Cursor.isSeparator)
  refine ⟨quoted, ?_⟩
  intro name member
  obtain ⟨stmt, inside, among⟩ := List.mem_flatMap.1 member
  exact named stmt inside among

end ConsoleScript
