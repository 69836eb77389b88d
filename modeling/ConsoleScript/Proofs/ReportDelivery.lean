import ConsoleScript.CommandLine.Execution
import ConsoleScript.Proofs.LiteralValues
import ConsoleScript.Proofs.ReadingEnds
import ConsoleScript.Proofs.SourceTiling

/-! # Delivering the report on a tree

The report on a source text is a single JSON document, and JSON has no infinity. A literal beyond
the largest finite number is reported when it is read, yet it stays in the tree: it is the one thing
that keeps a report from being delivered.

* **`Data.refusal_json`** — writing fails at the first number in the data that JSON does not have,
  and at nothing else;
* **`Program.literals`** — the number literals of a tree in the order of the report. The numbers in
  the report are their values (`Analysis.numbers_data`);
* **`Accounted`** — every literal has the value of a numeral, and one that is infinite is reported
  at its place;
* **`StatementCall.accounts_read`** — every reader accounts for the literals in what it gives, since
  every step of a reader keeps this and the tokens of a source are spelled as they should be.

`report_delivery` puts these together. -/

namespace ConsoleScript

/-! ## Data that can be written -/

namespace Data

/-- Whether JSON does not have a number. -/
def isUnsupported (number : Float) : Bool :=
  number.isNaN || number.isInf

mutual

/-- The floating-point numbers in data, in the order in which they are written. -/
def numbers : Data → List Float
  | number value => [value]
  | list items => itemNumbers items
  | record fields => fieldNumbers fields
  | _ => []

/-- The numbers in the items of a list. -/
def itemNumbers : List Data → List Float
  | [] => []
  | item :: rest => item.numbers ++ itemNumbers rest

/-- The numbers in the fields of a record. -/
def fieldNumbers : List (String × Data) → List Float
  | [] => []
  | (_, value) :: rest => value.numbers ++ fieldNumbers rest

end

/-- The number at which writing failed. -/
def refusal {α : Type} : Except Float α → Option Float
  | .ok _ => none
  | .error reason => some reason

@[simp] theorem refusal_map {α β : Type} (change : α → β) (written : Except Float α) :
    refusal (written.map change) = refusal written := by
  cases written <;> rfl

/-- What is written behind something else fails only if that did not. -/
theorem refusal_bind {α β : Type} {written : Except Float α} {next : α → Except Float β}
    {front back : List Float} (first : refusal written = front.find? isUnsupported)
    (second : ∀ value, refusal (next value) = back.find? isUnsupported) :
    refusal (written >>= next) = (front ++ back).find? isUnsupported := by
  rw [List.find?_append, ← first]
  cases written with
  | ok value => exact second value
  | error number => rfl

mutual

/-- Writing fails at the first number that JSON does not have, and at nothing else. -/
theorem refusal_json (depth : Nat) : (data : Data) →
    refusal (data.json depth) = data.numbers.find? isUnsupported
  | absent | flag _ | integer _ | text _ => rfl
  | number value => by
    rw [json, numbers, List.find?_singleton, isUnsupported]
    split <;> rfl
  | list items => by
    rw [json, refusal_map, refusal_jsonItems (depth + 1) items, numbers]
  | record fields => by
    rw [json, refusal_map, refusal_jsonFields (depth + 1) fields, numbers]

/-- So does writing the items of a list. -/
theorem refusal_jsonItems (depth : Nat) : (items : List Data) →
    refusal (jsonItems depth items) = (itemNumbers items).find? isUnsupported
  | [] => rfl
  | item :: rest => by
    refine refusal_bind (refusal_json depth item) fun first => ?_
    exact (refusal_map (first :: ·) _).trans (refusal_jsonItems depth rest)

/-- So does writing the fields of a record. -/
theorem refusal_jsonFields (depth : Nat) : (fields : List (String × Data)) →
    refusal (jsonFields depth fields) = (fieldNumbers fields).find? isUnsupported
  | [] => rfl
  | (name, value) :: rest => by
    refine refusal_bind (refusal_json depth value) fun first => ?_
    exact (refusal_map _ _).trans (refusal_jsonFields depth rest)

end

theorem refusal_document (data : Data) :
    refusal data.document = data.numbers.find? isUnsupported := by
  rw [document, refusal_map, refusal_json]

/-- There is no number in data of which no item holds one. -/
theorem itemNumbers_eq_nil {items : List Data} (none : ∀ item ∈ items, item.numbers = []) :
    itemNumbers items = [] := by
  induction items with
  | nil => rfl
  | cons item rest ih =>
    rw [List.forall_mem_cons] at none
    rw [itemNumbers, none.1, ih none.2, List.append_nil]

end Data

/-! ## The number literals of a tree -/

/-- A number literal of a tree. -/
structure NumberLiteral where
  /-- The place of the literal. -/
  span : Span
  /-- Its value. -/
  value : Float

/-- The number literals of an expression. -/
def Expr.literals : Expr → List NumberLiteral
  | number span value => [⟨span, value⟩]
  | unary _ _ operand => operand.literals
  | binary _ _ left right => left.literals ++ right.literals
  | paren _ inner => inner.literals
  | _ => []

mutual

/-- The number literals of a statement, those of a body before those of its condition, as in the
report. -/
def Stmt.literals : Stmt → List NumberLiteral
  | .assign _ _ value => value.literals
  | .console _ value => value.literals
  | .conditional _ branches otherwise => branchLiterals branches ++ otherwise.literals
  | .loop _ condition body => body.literals ++ condition.literals
  | .block _ stmts => stmtLiterals stmts

/-- The number literals of statements. -/
def stmtLiterals : List Stmt → List NumberLiteral
  | [] => []
  | stmt :: rest => stmt.literals ++ stmtLiterals rest

/-- The number literals of branches. -/
def branchLiterals : List Branch → List NumberLiteral
  | [] => []
  | .mk _ condition body :: rest => (body.literals ++ condition.literals) ++ branchLiterals rest

/-- The number literals of a block. -/
def Block.literals : Block → List NumberLiteral
  | .absent => []
  | .present _ stmts => stmtLiterals stmts

end

/-- The number literals of a program. -/
def Program.literals (program : Program) : List NumberLiteral :=
  stmtLiterals program.stmts

theorem stmtLiterals_append (stmts more : List Stmt) :
    stmtLiterals (stmts ++ more) = stmtLiterals stmts ++ stmtLiterals more := by
  induction stmts with
  | nil => rfl
  | cons stmt rest ih =>
    rw [List.cons_append, stmtLiterals, stmtLiterals, ih, List.append_assoc]

theorem stmtLiterals_singleton (stmt : Stmt) : stmtLiterals [stmt] = stmt.literals := by
  rw [stmtLiterals, stmtLiterals, List.append_nil]

theorem branchLiterals_cons (branch : Branch) (branches : List Branch) :
    branchLiterals (branch :: branches) = branchLiterals [branch] ++ branchLiterals branches := by
  obtain ⟨span, condition, body⟩ := branch
  rw [branchLiterals, branchLiterals, branchLiterals, List.append_nil]

/-! ## The numbers of a report -/

@[simp] theorem Span.numbers_data (span : Span) : span.data.numbers = [] := rfl

theorem Expr.numbers_data (expr : Expr) :
    expr.data.numbers = expr.literals.map NumberLiteral.value := by
  induction expr with
  | unary span operator operand ih | paren span inner ih =>
    simp [data, literals, Data.numbers, Data.fieldNumbers, ih]
  | binary span operator left right left_ih right_ih =>
    simp [data, literals, Data.numbers, Data.fieldNumbers, left_ih, right_ih]
  | number | text | boolean | nil | name | missing => rfl

mutual

theorem Stmt.numbers_data : (stmt : Stmt) →
    stmt.data.numbers = stmt.literals.map NumberLiteral.value
  | .assign _ _ value | .console _ value => by
    simp [Stmt.data, Stmt.literals, Data.numbers, Data.fieldNumbers, value.numbers_data]
  | .conditional _ branches .absent => by
    simp [Stmt.data, Stmt.literals, Block.literals, Data.numbers, Data.fieldNumbers,
      itemNumbers_branchesData branches]
  | .conditional _ branches (.present _ stmts) => by
    simp [Stmt.data, Stmt.literals, Block.literals, Data.numbers, Data.fieldNumbers,
      itemNumbers_branchesData branches, itemNumbers_stmtsData stmts]
  | .loop _ condition body => by
    simp [Stmt.data, Stmt.literals, Data.numbers, Data.fieldNumbers, condition.numbers_data,
      body.numbers_data]
  | .block _ stmts => by
    simp [Stmt.data, Stmt.literals, Data.numbers, Data.fieldNumbers, itemNumbers_stmtsData stmts]

theorem itemNumbers_stmtsData : (stmts : List Stmt) →
    Data.itemNumbers (stmtsData stmts) = (stmtLiterals stmts).map NumberLiteral.value
  | [] => rfl
  | stmt :: rest => by
    rw [stmtsData, Data.itemNumbers, stmt.numbers_data, itemNumbers_stmtsData rest, stmtLiterals,
      List.map_append]

theorem itemNumbers_branchesData : (branches : List Branch) →
    Data.itemNumbers (branchesData branches) = (branchLiterals branches).map NumberLiteral.value
  | [] => rfl
  | .mk _ condition body :: rest => by
    simp [branchesData, Branch.data, Data.itemNumbers, Data.numbers, Data.fieldNumbers,
      branchLiterals, condition.numbers_data, body.numbers_data, itemNumbers_branchesData rest]

theorem Block.numbers_data : (block : Block) →
    block.data.numbers = block.literals.map NumberLiteral.value
  | .absent => rfl
  | .present _ stmts => by
    simp [Block.data, Block.literals, Data.numbers, Data.fieldNumbers, itemNumbers_stmtsData stmts]

end

/-- A finding has no numbers but integers. -/
theorem Finding.numbers_data (finding : Finding) : finding.data.numbers = [] := by
  rw [data]
  split <;> rfl

/-- The numbers in the report are the values of the number literals in the tree. -/
theorem Analysis.numbers_data (analysis : Analysis) :
    analysis.data.numbers = analysis.program.literals.map NumberLiteral.value := by
  have findings : Data.itemNumbers (analysis.findings.map Finding.data) = [] := by
    refine Data.itemNumbers_eq_nil fun item among => ?_
    obtain ⟨finding, -, rfl⟩ := List.mem_map.1 among
    exact finding.numbers_data
  simp [data, Program.data, Program.literals, Data.numbers, Data.fieldNumbers, findings,
    itemNumbers_stmtsData]

/-! ## Literals that are accounted for -/

/-- A number literal is spelled as in a source text. -/
def Token.Numeric (token : Token) : Prop :=
  token.kind = .number → Bytes.IsNumeral token.lexeme

/-- The number literals among the tokens of a source are spelled as numerals. -/
theorem Lexing.numeric {source file : Bytes} {token : Token}
    (member : token ∈ (read source file).tokens) : token.Numeric := by
  intro kind
  obtain ⟨before, own, behind, stands⟩ := stands member
  have spelled := stands.spelled
  rw [kind] at spelled
  rw [(stands.lexeme (by simp [kind])).1]
  exact spelled.1

/-- Every literal has the value of a numeral, and one that is infinite is reported at its place. -/
def Accounted (findings : List Finding) (literals : List NumberLiteral) : Prop :=
  ∀ literal ∈ literals, ∃ lexeme, Bytes.IsNumeral lexeme ∧ literal.value = literalValue lexeme ∧
    (literal.value.isInf = true → ⟨.invalidNumber lexeme, literal.span⟩ ∈ findings)

namespace Accounted

variable {findings more : List Finding} {literals others : List NumberLiteral}

theorem nothing : Accounted findings [] :=
  fun _ none => absurd none List.not_mem_nil

/-- Further findings do no harm. -/
theorem mono (accounted : Accounted findings literals) (within : findings ⊆ more) :
    Accounted more literals := by
  intro literal among
  obtain ⟨lexeme, numeral, value, reported⟩ := accounted literal among
  exact ⟨lexeme, numeral, value, fun infinite => within (reported infinite)⟩

theorem left (accounted : Accounted findings literals) : Accounted (findings ++ more) literals :=
  accounted.mono (List.subset_append_left ..)

theorem right (accounted : Accounted more literals) : Accounted (findings ++ more) literals :=
  accounted.mono (List.subset_append_right ..)

theorem append (first : Accounted findings literals) (second : Accounted findings others) :
    Accounted findings (literals ++ others) :=
  List.forall_mem_append.2 ⟨first, second⟩

/-- Two readers account for what they give together. -/
theorem both (first : Accounted findings literals) (second : Accounted more others) :
    Accounted (findings ++ more) (literals ++ others) :=
  first.left.append second.right

end Accounted

namespace ExpressionCall

/-- A reader of expressions accounts for the literals in what it gives, those of the left operand
apart, if the tokens ahead are spelled as in a source text. -/
def Accounts : ExpressionCall → Parsed (Option Expr) → Prop
  | continuation _ left cursor, parsed =>
    cursor.Ahead Token.Numeric → parsed.cursor.Ahead Token.Numeric ∧
      ∀ before, Accounted before left.literals →
        Accounted (before ++ parsed.findings) (parsed.value.getD .missing).literals
  | expression _ cursor, parsed | operand cursor, parsed =>
    cursor.Ahead Token.Numeric → parsed.cursor.Ahead Token.Numeric ∧
      Accounted parsed.findings (parsed.value.getD .missing).literals

theorem accounts_expression {floor : Nat} {cursor : Cursor} {parsed : Parsed (Option Expr)}
    (step : ExpressionStep Accounts floor cursor parsed) :
    (expression floor cursor).Accounts parsed := by
  intro ahead
  cases step with
  | missing first => exact first ahead
  | continued first further =>
    obtain ⟨between, left⟩ := first ahead
    obtain ⟨behind, whole⟩ := further between
    exact ⟨behind, whole _ left⟩

theorem accounts_continuation {floor : Nat} {left : Expr} {cursor : Cursor}
    {parsed : Parsed (Option Expr)} (step : ContinuationStep Accounts floor left cursor parsed) :
    (continuation floor left cursor).Accounts parsed := by
  intro ahead
  cases step with
  | done => exact ⟨ahead, fun before accounted => accounted.left⟩
  | missing _ right =>
    obtain ⟨behind, -⟩ := right (ahead.behind.skipWhile _)
    exact ⟨behind, fun before _ => .nothing⟩
  | joined _ right further =>
    obtain ⟨between, second⟩ := right (ahead.behind.skipWhile _)
    obtain ⟨behind, whole⟩ := further between
    refine ⟨behind, fun before accounted => ?_⟩
    rw [← List.append_assoc]
    exact whole _ (accounted.both second)

/-- The only literal that comes in is that of a number, with its report. -/
theorem accounts_operand {cursor : Cursor} {parsed : Parsed (Option Expr)}
    (step : OperandStep Accounts cursor parsed) : (operand cursor).Accounts parsed := by
  intro ahead
  cases step with
  | absent => exact ⟨ahead, .nothing⟩
  | @number token rest last kind =>
    have numeral : Bytes.IsNumeral token.lexeme := ahead.here kind
    refine ⟨ahead.behind, List.forall_mem_singleton.2 ⟨token.lexeme, numeral, rfl, ?_⟩⟩
    intro infinite
    have rejected : acceptsLiteral token.lexeme = false := by
      rw [acceptsLiteral_eq numeral, infinite]
      rfl
    rw [rejected]
    exact List.mem_singleton_self _
  | text | boolean | nil | name => exact ⟨ahead.behind, .nothing⟩
  | unsigned _ inner => exact ⟨(inner ahead.behind).1, .nothing⟩
  | signed _ inner => exact inner ahead.behind
  | unenclosed _ skipped inner =>
    subst skipped
    exact ⟨(inner (ahead.behind.skipWhile _)).1, .nothing⟩
  | enclosed _ inner closes =>
    subst closes
    obtain ⟨behind, content⟩ := inner (ahead.behind.skipWhile _)
    exact ⟨(behind.skipWhile _).later (Cursor.suffix_expect _ _), content.left⟩

/-- Every reader of expressions accounts for the literals in what it gives. -/
theorem accounts_read (call : ExpressionCall) : call.Accounts call.read := by
  refine read_induction (motive := Accounts) (fun call => ⟨none, call.cursor, []⟩) ?_
    (fun call parsed step => ?_) call
  · intro other
    cases other with
    | expression | operand => exact fun ahead => ⟨ahead, .nothing⟩
    | continuation => exact fun ahead => ⟨ahead, fun _ _ => .nothing⟩
  cases call with
  | expression floor cursor => exact accounts_expression step
  | continuation floor left cursor => exact accounts_continuation step
  | operand cursor => exact accounts_operand step

end ExpressionCall

/-- Reporting a missing expression does not touch its literals. -/
theorem Parsed.accounted_required {parsed : Parsed (Option Expr)} (start : Cursor)
    (accounted : Accounted parsed.findings (parsed.value.getD .missing).literals) :
    Accounted (parsed.required start).findings (parsed.value.getD .missing).literals := by
  rw [required]
  split
  · exact accounted
  · exact accounted.left

namespace Cursor

variable {cursor : Cursor} (ahead : cursor.Ahead Token.Numeric)
include ahead

/-- What is read for an expression is accounted for. -/
theorem accounted_requiredExpression :
    Accounted cursor.requiredExpression.findings
      (cursor.requiredExpression.value.getD .missing).literals := by
  rw [requiredExpression, Parsed.value_required]
  exact Parsed.accounted_required cursor
    ((ExpressionCall.expression 0 cursor).accounts_read ahead).2

theorem accounted_consoleStatement (word : Token) :
    Accounted (cursor.consoleStatement word).findings
      (stmtLiterals (cursor.consoleStatement word).value.toList) := by
  have value := accounted_requiredExpression ahead
  rw [consoleStatement]
  split
  · exact .nothing
  · rename_i expr found
    rw [found] at value
    exact value.append .nothing

theorem accounted_assignedValue (start : Position) (name : Bytes) :
    Accounted (cursor.assignedValue start name).findings
      (stmtLiterals (cursor.assignedValue start name).value.toList) := by
  have value := accounted_requiredExpression ahead
  rw [assignedValue]
  split
  · exact .nothing
  · rename_i expr found
    rw [found] at value
    exact value.append .nothing

/-- The target of an assignment is a name and has no literals; a statement without a value is left
out together with its literals. -/
theorem accounted_assignment :
    Accounted cursor.assignment.findings (stmtLiterals cursor.assignment.value.toList) := by
  have target := ahead.later (cursor.suffix_expression 0)
  rw [assignment]
  dsimp only
  split
  · exact .nothing
  · split
    · split
      · exact (accounted_assignedValue (target.later (suffix_advance _)) _ _).right
      · exact .nothing
    · exact .nothing

end Cursor

namespace StatementCall

/-- The number literals in what a reader of statements gives. -/
def literals : (call : StatementCall) → call.Result → List NumberLiteral
  | statement _, found => stmtLiterals found.toList
  | branch _ _, found => branchLiterals [found]
  | branches _, found => branchLiterals found.1 ++ found.2.literals
  | body _, found => found.literals
  | braced _ _, found => stmtLiterals found.2
  | statements _ _, found => stmtLiterals found

/-- A reader of statements accounts for the literals in what it gives, if the tokens ahead are
spelled as in a source text. -/
def Accounts (call : StatementCall) (parsed : Parsed call.Result) : Prop :=
  call.cursor.Ahead Token.Numeric →
    parsed.cursor.Ahead Token.Numeric ∧ Accounted parsed.findings (call.literals parsed.value)

/-- A chain of branches is one branch with what is further to it. -/
theorem accounts_chain {word : Token} {start : Cursor} {chain : Parsed (List Branch × Block)}
    (step : ChainStep Accounts word start chain) (ahead : start.Ahead Token.Numeric) :
    chain.cursor.Ahead Token.Numeric ∧
      Accounted chain.findings (branchLiterals chain.value.1 ++ chain.value.2.literals) := by
  cases step with
  | linked opening further =>
    obtain ⟨between, first⟩ := opening ahead
    obtain ⟨behind, others⟩ := further between
    rw [branchLiterals_cons, List.append_assoc]
    exact ⟨behind, first.both others⟩

theorem accounts_statement {cursor : Cursor} {parsed : Parsed (Option Stmt)}
    (step : StatementStep Accounts cursor parsed) : (statement cursor).Accounts parsed := by
  intro ahead
  cases step with
  | assignment =>
    exact ⟨ahead.later cursor.suffix_assignment, Cursor.accounted_assignment ahead⟩
  | conditional _ linked =>
    dsimp only [literals]
    rw [Option.toList, stmtLiterals_singleton]
    exact accounts_chain linked ahead.behind
  | loop _ tested content =>
    subst tested
    have condition := Cursor.accounted_requiredExpression ahead.behind
    obtain ⟨behind, repeated⟩ := content (ahead.behind.later (Cursor.suffix_requiredExpression _))
    dsimp only [literals]
    rw [Option.toList, stmtLiterals_singleton]
    exact ⟨behind, Accounted.append (Accounted.right repeated) condition.left.left⟩
  | console =>
    exact ⟨ahead.behind.later (Cursor.suffix_consoleStatement _ _),
      Cursor.accounted_consoleStatement ahead.behind _⟩
  | block _ content =>
    dsimp only [literals]
    rw [Option.toList, stmtLiterals_singleton]
    exact content ahead.behind

theorem accounts_branch {word : Token} {cursor : Cursor} {parsed : Parsed Branch}
    (step : BranchStep Accounts word cursor parsed) : (branch word cursor).Accounts parsed := by
  intro ahead
  cases step with
  | guarded content =>
    have condition := Cursor.accounted_requiredExpression ahead
    obtain ⟨behind, inside⟩ := content (ahead.later cursor.suffix_requiredExpression)
    exact ⟨behind, (Accounted.append (Accounted.right inside) condition.left).append .nothing⟩

theorem accounts_branches {cursor : Cursor} {parsed : Parsed (List Branch × Block)}
    (step : BranchesStep Accounts cursor parsed) : (branches cursor).Accounts parsed := by
  intro ahead
  cases step with
  | absent => exact ⟨ahead, .nothing⟩
  | further opens linked => exact accounts_chain linked (ahead.later opens.suffix)
  | otherwise skipped _ _ content =>
    exact content (ahead.later (Cursor.suffix_of_skipNewlines skipped))

theorem accounts_body {cursor : Cursor} {parsed : Parsed Block}
    (step : BodyStep Accounts cursor parsed) : (body cursor).Accounts parsed := by
  intro ahead
  cases step with
  | missing => exact ⟨ahead, .nothing⟩
  | block _ content => exact content ahead.behind
  | single _ content => exact content ahead

theorem accounts_braced {brace : Token} {cursor : Cursor} {parsed : Parsed (Span × List Stmt)}
    (step : BracedStep Accounts brace cursor parsed) : (braced brace cursor).Accounts parsed := by
  intro ahead
  cases step with
  | closed content closes =>
    subst closes
    obtain ⟨behind, inside⟩ := content (ahead.skipWhile _)
    exact ⟨behind.later (Cursor.suffix_expect _ _), Accounted.left inside⟩

theorem accounts_statements {inBraces : Bool} {cursor : Cursor} {parsed : Parsed (List Stmt)}
    (step : StatementsStep Accounts inBraces cursor parsed) :
    (statements inBraces cursor).Accounts parsed := by
  intro ahead
  cases step with
  | ended => exact ⟨ahead, .nothing⟩
  | more _ first further =>
    obtain ⟨between, stmt⟩ := first ahead
    obtain ⟨behind, others⟩ := further (between.skipWhile _)
    dsimp only [literals]
    rw [stmtLiterals_append]
    exact ⟨behind, Accounted.both stmt others⟩

/-- Every reader of statements accounts for the literals in what it gives. -/
theorem accounts_read (call : StatementCall) : call.Accounts call.read := by
  refine read_induction (motive := Accounts) idle ?_ (fun call parsed step => ?_) call
  · intro other ahead
    refine ⟨other.cursor_idle.symm ▸ ahead, ?_⟩
    cases other <;> exact .nothing
  cases call with
  | statement cursor => exact accounts_statement step
  | branch word cursor => exact accounts_branch step
  | branches cursor => exact accounts_branches step
  | body cursor => exact accounts_body step
  | braced brace cursor => exact accounts_braced step
  | statements inBraces cursor => exact accounts_statements step

end StatementCall

/-- Every number literal of a tree is accounted for. -/
theorem Analysis.accounted (source file : Bytes) :
    Accounted (analyze source file).findings (analyze source file).program.literals := by
  have ahead : (Cursor.ofTokens (Lexing.read source file).tokens).Ahead Token.Numeric :=
    fun _ member => Lexing.numeric member
  exact Accounted.right ((StatementCall.statements false _).accounts_read (ahead.skipWhile _)).2

/-! ## The report on a source text -/

/-- The number literals of a program beyond the largest finite number. -/
def Program.overflows (program : Program) : List NumberLiteral :=
  program.literals.filter fun literal => literal.value.isInf

theorem Program.mem_overflows {program : Program} {literal : NumberLiteral} :
    literal ∈ program.overflows ↔ literal ∈ program.literals ∧ literal.value.isInf = true :=
  List.mem_filter

/-- JSON has every numeral that is not infinite: a numeral always stands for a number. -/
theorem isUnsupported_literalValue {lexeme : Bytes} (numeral : Bytes.IsNumeral lexeme) :
    Data.isUnsupported (literalValue lexeme) = (literalValue lexeme).isInf := by
  rw [Data.isUnsupported, (unsigned_literalValue numeral).1, Bool.false_or]

/-- A numeral has no sign, so the infinity is a positive one. -/
theorem unsupportedMessage_literalValue {lexeme : Bytes} (numeral : Bytes.IsNumeral lexeme) :
    Bytes.utf8 "JSON encoding failed: " ++ Data.unsupportedMessage (literalValue lexeme)
      = Bytes.utf8 "JSON encoding failed: json: unsupported value: +Inf" := by
  rw [Data.unsupportedMessage, (unsigned_literalValue numeral).1, (unsigned_literalValue numeral).2]
  rfl

/-- Writing the report fails at the first literal that overflows. -/
theorem Analysis.refusal_document (source file : Bytes) :
    Data.refusal (analyze source file).data.document
      = (analyze source file).program.overflows.head?.map NumberLiteral.value := by
  have same : ∀ literal ∈ (analyze source file).program.literals,
      (Data.isUnsupported ∘ NumberLiteral.value) literal = literal.value.isInf := by
    intro literal among
    obtain ⟨lexeme, numeral, value, -⟩ := accounted source file literal among
    rw [Function.comp, value, isUnsupported_literalValue numeral]
  rw [Data.refusal_document, numbers_data, List.find?_map, ← List.head?_filter,
    List.filter_congr same, Program.overflows]

/-- Without an overflow the report is written. -/
theorem Execution.showTree_of_overflows_eq_nil {source file : Bytes}
    (finite : (Analysis.analyze source file).program.overflows = []) :
    ∃ text, (Analysis.analyze source file).data.document = .ok text ∧
      showTree source file = ⟨[.out text], codeFor (Analysis.analyze source file).findings⟩ := by
  have refusal := Analysis.refusal_document source file
  rw [finite] at refusal
  rw [showTree, ofData]
  cases written : (Analysis.analyze source file).data.document with
  | ok text => exact ⟨text, rfl, rfl⟩
  | error number =>
    rw [written] at refusal
    cases refusal

/-- With an overflow an error takes the place of the report. -/
theorem Execution.showTree_of_overflows_ne_nil {source file : Bytes}
    (overflow : (Analysis.analyze source file).program.overflows ≠ []) :
    showTree source file
      = .refused (Bytes.utf8 "JSON encoding failed: json: unsupported value: +Inf") := by
  have refusal := Analysis.refusal_document source file
  obtain ⟨literal, rest, split⟩ := List.exists_cons_of_ne_nil overflow
  have among : literal ∈ (Analysis.analyze source file).program.overflows :=
    split ▸ List.mem_cons_self
  obtain ⟨lexeme, numeral, value, -⟩ :=
    Analysis.accounted source file literal (Program.mem_overflows.1 among).1
  rw [split] at refusal
  rw [showTree, ofData]
  cases written : (Analysis.analyze source file).data.document with
  | ok text =>
    rw [written] at refusal
    cases refusal
  | error number =>
    rw [written] at refusal
    have same : number = literal.value := Option.some.inj refusal
    rw [same, value]
    exact congrArg refused (unsupportedMessage_literalValue numeral)

/-- The report on the tree of a source text is delivered as a JSON document just if no number
literal in the tree overflows. One that does is among the findings as an invalid number, but it is
kept in the tree, and an error about the encoding is all that is written. -/
theorem report_delivery (source file : Bytes) :
    let analysis := Analysis.analyze source file
    let overflows := analysis.program.overflows
    (overflows = [] ∧ ∃ text, analysis.data.document = .ok text ∧
        Execution.showTree source file = ⟨[.out text], Execution.codeFor analysis.findings⟩) ∨
      (overflows ≠ [] ∧
        (∀ literal ∈ overflows, ∃ lexeme, literal.value = literalValue lexeme ∧
          ⟨.invalidNumber lexeme, literal.span⟩ ∈ analysis.findings) ∧
        Execution.showTree source file
          = .refused (Bytes.utf8 "JSON encoding failed: json: unsupported value: +Inf")) := by
  intro analysis overflows
  by_cases finite : overflows = []
  · exact .inl ⟨finite, Execution.showTree_of_overflows_eq_nil finite⟩
  · refine .inr ⟨finite, ?_, Execution.showTree_of_overflows_ne_nil finite⟩
    intro literal among
    obtain ⟨member, infinite⟩ := Program.mem_overflows.1 among
    obtain ⟨lexeme, -, value, reported⟩ := Analysis.accounted source file literal member
    exact ⟨lexeme, value, reported infinite⟩

/-- There is no report on the assignment of a one with three hundred and nine zeros. -/
theorem report_withheld :
    let source := Bytes.utf8 "x = 1" ++ List.replicate 309 0x30
    (¬∃ text, (Analysis.analyze source []).data.document = .ok text) ∧
      Execution.showTree source []
        = .refused (Bytes.utf8 "JSON encoding failed: json: unsupported value: +Inf") := by
  intro source
  let digits : Bytes := 0x31 :: List.replicate 309 0x30
  have infinite : (literalValue digits).isInf = true := by decide +kernel
  have rejected : acceptsLiteral digits = false := by decide +kernel
  have lexing : Lexing.read source [] = ⟨[
      ⟨.name, [0x78], ⟨⟨[], 0, 1, 1⟩, ⟨[], 1, 1, 2⟩⟩⟩,
      ⟨.assign, [0x3d], ⟨⟨[], 2, 1, 3⟩, ⟨[], 3, 1, 4⟩⟩⟩,
      ⟨.number, digits, ⟨⟨[], 4, 1, 5⟩, ⟨[], 314, 1, 315⟩⟩⟩,
      ⟨.endOfInput, [], ⟨⟨[], 314, 1, 315⟩, ⟨[], 314, 1, 315⟩⟩⟩], []⟩ := by
    decide +kernel
  have overflows : (Analysis.analyze source []).program.overflows
      = [⟨⟨⟨[], 4, 1, 5⟩, ⟨[], 314, 1, 315⟩⟩, literalValue digits⟩] := by
    rw [Analysis.analyze, lexing]
    simp [Parsing.read, Cursor.ofTokens, Cursor.skipSeparators, Cursor.skipWhile,
      Cursor.skipWhile.go, Cursor.isSeparator, Cursor.statements_cons, Cursor.statement_cons,
      Cursor.assignment, Cursor.assignedValue, Cursor.requiredExpression, Parsed.required,
      Cursor.expression_eq, Cursor.operand_cons, Cursor.continuation_cons, TokenKind.strength,
      Cursor.peek, Cursor.kind, infinite, rejected, Program.overflows, Program.literals,
      stmtLiterals, Stmt.literals, Expr.literals]
  refine ⟨?_, Execution.showTree_of_overflows_ne_nil (by simp [overflows])⟩
  rintro ⟨text, written⟩
  have refusal := Analysis.refusal_document source []
  rw [written, overflows] at refusal
  cases refusal

end ConsoleScript
