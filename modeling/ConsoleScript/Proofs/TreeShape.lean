import ConsoleScript.Proofs.ReadingEnds
import ConsoleScript.Proofs.RunFailures
import ConsoleScript.Report.TreeData

/-! # The shape of every tree that is read

Any list of tokens is read into a tree, with or without an end of input and whatever is wrong with
it. An erroneous statement is left out, and only a condition may be missing where it should be.

* **`Stmt.Shaped`** — conditionals have branches, branches and loops have bodies, operators are
  those of the language, and nothing is missing but conditions;
* **`StatementCall.Shapes`** — every reader gives something of this shape, since every step of a
  reader keeps it;
* **`Parsing.spells_of_clean`** — without an error, every token before the end of input stands in
  the tree, line breaks and semicolons apart;
* **`Data.Sound`** — so the tree as data has no gap but missing conditions.

`malformed_input_shaped` puts these together. -/

namespace ConsoleScript

/-! ## Shaped trees -/

mutual

/-- A statement whose conditionals have branches, whose branches and loops have bodies, and in which
no expression is missing but conditions, and no operator unknown. -/
def Stmt.Shaped : Stmt → Prop
  | .assign _ _ value => value.Proper
  | .console _ value => value.Proper
  | .conditional _ branches otherwise =>
    branches ≠ [] ∧ ShapedBranches branches ∧ otherwise.Shaped
  | .loop _ condition body =>
    (condition = .missing ∨ condition.Proper) ∧ body ≠ .absent ∧ body.Shaped
  | .block _ stmts => ShapedStmts stmts

/-- Statements of this shape. -/
def ShapedStmts : List Stmt → Prop
  | [] => True
  | stmt :: rest => stmt.Shaped ∧ ShapedStmts rest

/-- Branches of this shape. -/
def ShapedBranches : List Branch → Prop
  | [] => True
  | .mk _ condition body :: rest =>
    ((condition = .missing ∨ condition.Proper) ∧ body ≠ .absent ∧ body.Shaped)
      ∧ ShapedBranches rest

/-- A block whose statements have this shape; an absent one has none. -/
def Block.Shaped : Block → Prop
  | .absent => True
  | .present _ stmts => ShapedStmts stmts

end

theorem shapedStmts_nil : ShapedStmts [] :=
  trivial

theorem shapedStmts_append {stmts more : List Stmt} (first : ShapedStmts stmts)
    (second : ShapedStmts more) : ShapedStmts (stmts ++ more) := by
  induction stmts with
  | nil => exact second
  | cons stmt rest ih => exact ⟨first.1, ih first.2⟩

/-- Statements of this shape are a body. -/
theorem ShapedStmts.body (span : Span) {stmts : List Stmt} (shaped : ShapedStmts stmts) :
    Block.present span stmts ≠ .absent ∧ (Block.present span stmts).Shaped :=
  ⟨by simp, shaped⟩

/-- A statement that may have been left out. -/
theorem shapedStmts_toList {found : Option Stmt}
    (shaped : ∀ stmt, found = some stmt → stmt.Shaped) : ShapedStmts found.toList := by
  cases found with
  | none => trivial
  | some stmt => exact ⟨shaped stmt rfl, trivial⟩

/-! ## Readers give shaped trees -/

/-- A binary operator above a floor is one of the language. -/
theorem BinaryOperator.ofKind_ne_unknown {kind : TokenKind} {floor : Nat}
    (above : floor < kind.strength) : ofKind kind ≠ unknown := by
  intro same
  refine Nat.not_le_of_lt above ?_
  cases kind <;> simp [ofKind] at same <;> exact Nat.zero_le _

namespace ExpressionCall

/-- No expression that is read has a gap, even one that is reported. -/
def Shapes : ExpressionCall → Parsed (Option Expr) → Prop
  | continuation _ left _, parsed => left.Proper → ∀ expr, parsed.value = some expr → expr.Proper
  | expression _ _, parsed | operand _, parsed => ∀ expr, parsed.value = some expr → expr.Proper

theorem shapes_expression {floor : Nat} {cursor : Cursor} {parsed : Parsed (Option Expr)}
    (step : ExpressionStep Shapes floor cursor parsed) :
    (expression floor cursor).Shapes parsed := by
  intro expr found
  cases step with
  | missing => cases found
  | continued first further => exact further (first _ rfl) expr found

theorem shapes_continuation {floor : Nat} {left : Expr} {cursor : Cursor}
    {parsed : Parsed (Option Expr)} (step : ContinuationStep Shapes floor left cursor parsed) :
    (continuation floor left cursor).Shapes parsed := by
  intro proper expr found
  cases step with
  | done => exact Option.some.inj found ▸ proper
  | missing => cases found
  | joined above right further =>
    exact further ⟨BinaryOperator.ofKind_ne_unknown above, proper, right _ rfl⟩ expr found

theorem shapes_operand {cursor : Cursor} {parsed : Parsed (Option Expr)}
    (step : OperandStep Shapes cursor parsed) : (operand cursor).Shapes parsed := by
  intro expr found
  cases step with
  | absent | unsigned | unenclosed => cases found
  | number | text | boolean | nil | name => exact Option.some.inj found ▸ trivial
  | signed kind inner =>
    exact Option.some.inj found ▸ ⟨UnaryOperator.ofKind_ne_unknown kind, inner _ rfl⟩
  | enclosed _ inner =>
    have proper := inner _ rfl
    exact Option.some.inj found ▸ proper

/-- Every reader of expressions gives expressions without gaps. -/
theorem shapes_read (call : ExpressionCall) : call.Shapes call.read := by
  refine read_induction (motive := Shapes) (fun call => ⟨none, call.cursor, []⟩) ?_
    (fun call parsed step => ?_) call
  · intro other
    cases other with
    | expression | operand => exact fun expr found => nomatch found
    | continuation => exact fun _ expr found => nomatch found
  cases call with
  | expression floor cursor => exact shapes_expression step
  | continuation floor left cursor => exact shapes_continuation step
  | operand cursor => exact shapes_operand step

end ExpressionCall

/-- An expression that is read has no gap. -/
theorem Cursor.proper_of_expression {cursor : Cursor} {floor : Nat} {expr : Expr}
    (found : (cursor.expression floor).value = some expr) : expr.Proper :=
  (ExpressionCall.expression floor cursor).shapes_read expr found

/-- A required expression has no gap if there is one. -/
theorem Cursor.proper_of_requiredExpression {cursor : Cursor} {expr : Expr}
    (found : cursor.requiredExpression.value = some expr) : expr.Proper := by
  rw [requiredExpression, Parsed.value_required] at found
  exact proper_of_expression found

/-- A required expression stands in the tree without a gap, or is missing as a whole. -/
theorem Cursor.missing_or_proper (cursor : Cursor) :
    cursor.requiredExpression.value.getD .missing = .missing ∨
      (cursor.requiredExpression.value.getD .missing).Proper := by
  cases found : cursor.requiredExpression.value with
  | none => exact .inl rfl
  | some expr => exact .inr (proper_of_requiredExpression found)

/-- A statement that shows an expression is shaped. -/
theorem Cursor.shaped_of_consoleStatement {cursor : Cursor} {word : Token} {stmt : Stmt}
    (found : (cursor.consoleStatement word).value = some stmt) : stmt.Shaped := by
  rw [consoleStatement] at found
  split at found
  · cases found
  · rename_i expr shown
    exact Option.some.inj found ▸ proper_of_requiredExpression shown

/-- An assignment that is read is shaped. -/
theorem Cursor.shaped_of_assignment {cursor : Cursor} {stmt : Stmt}
    (found : cursor.assignment.value = some stmt) : stmt.Shaped := by
  rw [assignment] at found
  dsimp only at found
  split at found
  · cases found
  · split at found
    · split at found
      · rw [assignedValue] at found
        dsimp only at found
        split at found
        · cases found
        · rename_i value assigned
          exact Option.some.inj found ▸ proper_of_requiredExpression assigned
      · cases found
    · cases found

/-- A branch before others that are shaped. -/
theorem shapedBranches_cons {branch : Branch} {branches : List Branch}
    (first : ShapedBranches [branch]) (others : ShapedBranches branches) :
    ShapedBranches (branch :: branches) := by
  obtain ⟨span, condition, body⟩ := branch
  exact ⟨first.1, others⟩

namespace StatementCall

/-- What a reader of statements gives has the shape of a tree. -/
def Shapes : (call : StatementCall) → Parsed call.Result → Prop
  | statement _, parsed => ∀ stmt, parsed.value = some stmt → stmt.Shaped
  | branch _ _, parsed => ShapedBranches [parsed.value]
  | branches _, parsed => ShapedBranches parsed.value.1 ∧ parsed.value.2.Shaped
  | body _, parsed => parsed.value ≠ .absent ∧ parsed.value.Shaped
  | braced _ _, parsed => ShapedStmts parsed.value.2
  | statements _ _, parsed => ShapedStmts parsed.value

/-- A chain of branches is not empty, and behind a branch what is further to it is shaped too. -/
theorem shapes_chain {word : Token} {start : Cursor} {chain : Parsed (List Branch × Block)}
    (step : ChainStep Shapes word start chain) :
    chain.value.1 ≠ [] ∧ ShapedBranches chain.value.1 ∧ chain.value.2.Shaped := by
  cases step with
  | linked opening further =>
    exact ⟨List.cons_ne_nil _ _, shapedBranches_cons opening further.1, further.2⟩

theorem shapes_statement {cursor : Cursor} {parsed : Parsed (Option Stmt)}
    (step : StatementStep Shapes cursor parsed) : (statement cursor).Shapes parsed := by
  intro stmt found
  cases step with
  | assignment => exact Cursor.shaped_of_assignment found
  | conditional _ linked => exact Option.some.inj found ▸ shapes_chain linked
  | loop _ tested content =>
    subst tested
    exact Option.some.inj found ▸ ⟨Cursor.missing_or_proper _, content⟩
  | console => exact Cursor.shaped_of_consoleStatement found
  | block _ content => exact Option.some.inj found ▸ content

theorem shapes_branches {cursor : Cursor} {parsed : Parsed (List Branch × Block)}
    (step : BranchesStep Shapes cursor parsed) : (branches cursor).Shapes parsed := by
  cases step with
  | absent => exact ⟨trivial, trivial⟩
  | further _ linked => exact (shapes_chain linked).2
  | otherwise _ _ _ content => exact ⟨trivial, content.2⟩

theorem shapes_body {cursor : Cursor} {parsed : Parsed Block}
    (step : BodyStep Shapes cursor parsed) : (body cursor).Shapes parsed := by
  cases step with
  | missing => exact shapedStmts_nil.body _
  | block _ content => exact ShapedStmts.body _ content
  | single _ content => exact (shapedStmts_toList content).body _

theorem shapes_statements {inBraces : Bool} {cursor : Cursor} {parsed : Parsed (List Stmt)}
    (step : StatementsStep Shapes inBraces cursor parsed) :
    (statements inBraces cursor).Shapes parsed := by
  cases step with
  | ended => trivial
  | more _ first further => exact shapedStmts_append (shapedStmts_toList first) further

/-- Every reader of statements gives shaped trees. -/
theorem shapes_read (call : StatementCall) : call.Shapes call.read := by
  refine read_induction (motive := Shapes) idle ?_ (fun call parsed step => ?_) call
  · intro other
    cases other with
    | statement => exact fun stmt found => nomatch found
    | branch => exact ⟨⟨.inl rfl, shapedStmts_nil.body _⟩, trivial⟩
    | branches => exact ⟨trivial, trivial⟩
    | body => exact shapedStmts_nil.body _
    | braced | statements => trivial
  cases call with
  | statement cursor => exact shapes_statement step
  | branch word cursor =>
    cases step with
    | guarded content => exact ⟨⟨cursor.missing_or_proper, content⟩, trivial⟩
  | branches cursor => exact shapes_branches step
  | body cursor => exact shapes_body step
  | braced brace cursor =>
    cases step with
    | closed content => exact content
  | statements inBraces cursor => exact shapes_statements step

end StatementCall

/-! ## What is left out is reported -/

/-- The tokens before the first end of input. -/
def Token.front (tokens : List Token) : List Token :=
  tokens.takeWhile fun token => token.kind != .endOfInput

/-- What is read without an error is spelled by all tokens before the first end of input. -/
theorem Parsing.spells_of_clean {tokens : List Token}
    (clean : Finding.anyError (read tokens).findings = false) :
    SpellsRun (Token.front tokens) (read tokens).program.stmts := by
  obtain ⟨front, parts, run, ends⟩ :=
    Cursor.spells_of_statements (fun other _ => other.readsStmt) (Nat.lt_succ_self _) clean
  change SpellsRun front (read tokens).program.stmts at run
  change tokens = _ at parts
  have before : ∀ token ∈ front, (token.kind != .endOfInput) = true :=
    fun token member => bne_iff_ne.2 (run.ongoing token member)
  suffices whole : Token.front tokens = front by rwa [whole]
  rcases ends with nothing | ⟨final, back, remaining, kind⟩
  · rw [nothing] at parts
    rw [parts, Token.front, List.takeWhile_append_of_pos before]
    simp
  · -- Outside braces only the end of input ends the statements.
    have final_kind : final.kind = .endOfInput := by simpa using kind
    rw [remaining] at parts
    rw [parts, Token.front, List.takeWhile_append_of_pos before]
    simp [final_kind]

mutual

/-- No condition is missing in a grammatical statement. -/
theorem Stmt.Grammatical.tested : {stmt : Stmt} → stmt.Grammatical →
    ∀ part ∈ stmt.parts, .missing ∉ part.conditions
  | .assign .., _ | .console .., _ => by
    intro part among
    rw [List.mem_singleton.1 among]
    exact List.not_mem_nil
  | .conditional _ branches otherwise, grammatical => by
    obtain ⟨first, inside⟩ := testedBranches grammatical.2.1
    refine List.forall_mem_cons.2 ⟨first, List.forall_mem_append.2 ⟨inside, ?_⟩⟩
    exact grammatical.2.2.tested
  | .loop _ condition body, grammatical => by
    refine List.forall_mem_cons.2 ⟨?_, grammatical.2.2.tested⟩
    intro missing
    exact (List.mem_singleton.1 missing ▸ grammatical.1.proper : Expr.missing.Proper)
  | .block _ stmts, grammatical =>
    List.forall_mem_cons.2 ⟨List.not_mem_nil, testedStmts grammatical⟩

/-- No condition is missing in grammatical statements. -/
theorem testedStmts : {stmts : List Stmt} → GrammaticalStmts stmts →
    ∀ part ∈ stmtParts stmts, .missing ∉ part.conditions
  | [], _ => fun _ among => absurd among List.not_mem_nil
  | _ :: _, grammatical =>
    List.forall_mem_append.2 ⟨grammatical.1.tested, testedStmts grammatical.2⟩

/-- No condition is missing in grammatical branches. -/
theorem testedBranches : {branches : List Branch} → GrammaticalBranches branches →
    .missing ∉ branches.map Branch.condition ∧
      ∀ part ∈ branchParts branches, .missing ∉ part.conditions
  | [], _ => ⟨List.not_mem_nil, fun _ among => absurd among List.not_mem_nil⟩
  | .mk _ condition body :: rest, grammatical => by
    obtain ⟨others, inside⟩ := testedBranches grammatical.2
    refine ⟨?_, List.forall_mem_append.2 ⟨grammatical.1.2.2.tested, inside⟩⟩
    intro missing
    rcases List.mem_cons.1 missing with same | other
    · have proper := grammatical.1.1.proper
      rw [show condition = .missing from same.symm] at proper
      exact proper
    · exact others other

/-- No condition is missing in a grammatical block. -/
theorem Block.Grammatical.tested : {block : Block} → block.Grammatical →
    ∀ part ∈ block.parts, .missing ∉ part.conditions
  | .absent, _ => fun _ among => absurd among List.not_mem_nil
  | .present .., grammatical => testedStmts grammatical

end

/-! ## Trees as data -/

namespace Data

/-- The kinds of nodes that the language has. -/
def nodeKinds : List String :=
  ["Program", "Block", "AssignStmt", "ConsoleStmt", "IfStmt", "CondBlock", "WhileStmt", "NumberLit",
    "TextLit", "BoolLit", "NilLit", "Ident", "UnaryExpr", "BinaryExpr", "ParenExpr"]

/-- How the operators of the language are displayed. -/
def operatorSymbols : List Bytes :=
  [UnaryOperator.negate, .invert].map UnaryOperator.symbol
    ++ BinaryOperator.all.map BinaryOperator.symbol

mutual

/-- Data of a tree without gaps: nothing is absent but conditions, and every kind and operator is
one that the language has. -/
def Sound : Data → Prop
  | absent => False
  | list items => SoundItems items
  | record fields => SoundFields fields
  | _ => True

/-- Items without gaps. -/
def SoundItems : List Data → Prop
  | [] => True
  | item :: rest => item.Sound ∧ SoundItems rest

/-- Fields without gaps. -/
def SoundFields : List (String × Data) → Prop
  | [] => True
  | (field, value) :: rest =>
    ((field = "condition" ∧ value = absent) ∨ value.Sound) ∧
      (field = "kind" → ∃ kind ∈ nodeKinds, value = text (Bytes.utf8 kind)) ∧
      (field = "op" → ∃ symbol ∈ operatorSymbols, value = text symbol) ∧ SoundFields rest

end

variable {rest : List (String × Data)}

/-- A field that says of which kind a node is. -/
theorem SoundFields.kind {kind : String} (known : kind ∈ nodeKinds) (others : SoundFields rest) :
    SoundFields (("kind", text (Bytes.utf8 kind)) :: rest) :=
  ⟨.inr trivial, fun _ => ⟨kind, known, rfl⟩, fun other => absurd other (by decide), others⟩

/-- A field that says which operator a node has. -/
theorem SoundFields.operator {symbol : Bytes} (known : symbol ∈ operatorSymbols)
    (others : SoundFields rest) : SoundFields (("op", text symbol) :: rest) :=
  ⟨.inr trivial, fun other => absurd other (by decide), fun _ => ⟨symbol, known, rfl⟩, others⟩

/-- A field with the condition of a node, the only one that may be absent. -/
theorem SoundFields.condition {value : Data} (tested : value = absent ∨ value.Sound)
    (others : SoundFields rest) : SoundFields (("condition", value) :: rest) :=
  ⟨tested.imp (⟨rfl, ·⟩) id, fun other => absurd other (by decide),
    fun other => absurd other (by decide), others⟩

/-- Any other field of a node. -/
theorem SoundFields.part {field : String} {value : Data} (plain : field ≠ "kind" ∧ field ≠ "op")
    (sound : value.Sound) (others : SoundFields rest) : SoundFields ((field, value) :: rest) :=
  ⟨.inr sound, fun other => absurd other plain.1, fun other => absurd other plain.2, others⟩

end Data

/-- The place of a node is data without gaps. -/
theorem Span.sound_data (span : Span) : span.data.Sound := by
  have ends (position : Position) : position.data.Sound :=
    .part (by decide) trivial (.part (by decide) trivial
      (.part (by decide) trivial trivial))
  exact .part (by decide) (ends _) (.part (by decide) (ends _) trivial)

/-- The place of a node stands in its last field. -/
theorem Data.SoundFields.place (span : Span) : SoundFields [("span", span.data)] :=
  .part (by decide) span.sound_data trivial

theorem UnaryOperator.symbol_mem {operator : UnaryOperator} (known : operator ≠ unknown) :
    operator.symbol ∈ Data.operatorSymbols := by
  refine List.mem_append_left _ (List.mem_map_of_mem ?_)
  cases operator <;> simp at known ⊢

theorem BinaryOperator.symbol_mem {operator : BinaryOperator} (known : operator ≠ unknown) :
    operator.symbol ∈ Data.operatorSymbols := by
  refine List.mem_append_right _ (List.mem_map_of_mem ?_)
  cases operator <;> simp [all] at known ⊢

/-- An expression without gaps is data without gaps. -/
theorem Expr.Proper.sound_data {expr : Expr} (proper : expr.Proper) : expr.data.Sound := by
  induction expr with
  | number span value | boolean span value =>
    exact .kind (by decide) (.part (by decide) span.sound_data
      (.part (by decide) trivial trivial))
  | text span raw | name span word =>
    exact .kind (by decide) (.part (by decide) trivial (.place span))
  | nil span => exact .kind (by decide) (.place span)
  | unary span operator operand inner =>
    exact .kind (by decide) (.operator (operator.symbol_mem proper.1)
      (.part (by decide) (inner proper.2) (.place span)))
  | binary span operator left right first second =>
    exact .kind (by decide) (.part (by decide) (first proper.2.1)
      (.operator (operator.symbol_mem proper.1)
        (.part (by decide) (second proper.2.2) (.place span))))
  | paren span content inner =>
    exact .part (by decide) (inner proper) (.kind (by decide) (.place span))
  | missing => exact proper.elim

/-- The condition of a shaped branch or loop is absent or data without gaps. -/
theorem Expr.absent_or_sound {condition : Expr} (tested : condition = .missing ∨ condition.Proper) :
    condition.data = .absent ∨ condition.data.Sound :=
  tested.imp (congrArg data) Proper.sound_data

mutual

/-- A shaped statement is data without gaps. -/
theorem Stmt.Shaped.sound_data : {stmt : Stmt} → stmt.Shaped → stmt.data.Sound
  | .assign span _ _, proper =>
    .kind (by decide) (.part (by decide) trivial (.part (by decide) span.sound_data
      (.part (by decide) (Expr.Proper.sound_data proper) trivial)))
  | .console span _, proper =>
    .kind (by decide) (.part (by decide) span.sound_data
      (.part (by decide) (Expr.Proper.sound_data proper) trivial))
  | .conditional span _ .absent, shaped =>
    .part (by decide) (sound_branchesData shaped.2.1) (.kind (by decide) (.place span))
  | .conditional span _ (.present ..), shaped =>
    .part (by decide) (sound_branchesData shaped.2.1)
      (.part (by decide) (shaped.2.2.sound_data (by simp)) (.kind (by decide) (.place span)))
  | .loop span _ _, shaped =>
    .part (by decide) (shaped.2.2.sound_data shaped.2.1)
      (.condition (Expr.absent_or_sound shaped.1) (.kind (by decide) (.place span)))
  | .block span _, shaped =>
    .kind (by decide) (.part (by decide) span.sound_data
      (.part (by decide) (sound_stmtsData shaped) trivial))

/-- Shaped statements are data without gaps. -/
theorem sound_stmtsData : {stmts : List Stmt} → ShapedStmts stmts →
    Data.SoundItems (stmtsData stmts)
  | [], _ => trivial
  | _ :: _, shaped => ⟨shaped.1.sound_data, sound_stmtsData shaped.2⟩

/-- Shaped branches are data without gaps. -/
theorem sound_branchesData : {branches : List Branch} → ShapedBranches branches →
    Data.SoundItems (branchesData branches)
  | [], _ => trivial
  | .mk span _ _ :: _, shaped =>
    ⟨.part (by decide) (shaped.1.2.2.sound_data shaped.1.2.1)
      (.condition (Expr.absent_or_sound shaped.1.1) (.kind (by decide) (.place span))),
      sound_branchesData shaped.2⟩

/-- A shaped block that is there is data without gaps. -/
theorem Block.Shaped.sound_data : {block : Block} → block.Shaped → block ≠ .absent →
    block.data.Sound
  | .absent, _, there => absurd rfl there
  | .present span _, shaped, _ =>
    .kind (by decide) (.part (by decide) span.sound_data
      (.part (by decide) (sound_stmtsData shaped) trivial))

end

/-! ## Malformed input -/

/-- **Malformed input is read into a well-shaped tree.** Whatever the tokens are, with or without an
end of input and however erroneous: conditionals have branches, branches and loops have bodies,
every operator is one of the language, and an expression is missing only where it is the condition
of a branch or loop. If no finding is an error, then all tokens before the first end of input spell
the statements, so that only line breaks and semicolons are not represented in the tree, and no
condition is missing. As data, the tree has no gap but missing conditions and no unknown node. -/
theorem malformed_input_shaped (tokens : List Token) :
    ShapedStmts (Parsing.read tokens).program.stmts ∧
      (Finding.anyError (Parsing.read tokens).findings = false →
        SpellsRun (Token.front tokens) (Parsing.read tokens).program.stmts ∧
          ∀ stmt ∈ stmtParts (Parsing.read tokens).program.stmts, .missing ∉ stmt.conditions) ∧
      (Parsing.read tokens).program.data.Sound := by
  have shaped : ShapedStmts (Parsing.read tokens).program.stmts :=
    (StatementCall.statements false (Cursor.ofTokens tokens).skipSeparators).shapes_read
  refine ⟨shaped, ?_, ?_⟩
  · intro clean
    have spelled := Parsing.spells_of_clean clean
    exact ⟨spelled, testedStmts spelled.grammatical⟩
  · exact .kind (by decide) (.part (by decide) (Span.sound_data _)
      (.part (by decide) (sound_stmtsData shaped) trivial))

/-- `while {}` without an end of input is read as a loop without its condition, so there is an
error. `x = nil` before an end of input with an illegal token behind it is read without one, so the
three tokens in front spell the statements. -/
theorem malformed_input_shaped_loop :
    let unguarded : List Token :=
      [.unplaced .whileWord [], .unplaced .leftBrace [], .unplaced .rightBrace []]
    let front : List Token := [.unplaced .name [0x78], .unplaced .assign [], .unplaced .nilWord []]
    let tokens := front ++ [.unplaced .endOfInput [], .unplaced .illegal []]
    (∃ span body, (Parsing.read unguarded).program.stmts = [.loop span .missing body] ∧
        Finding.anyError (Parsing.read unguarded).findings = true) ∧
      Finding.anyError (Parsing.read tokens).findings = false ∧
      SpellsRun front (Parsing.read tokens).program.stmts := by
  intro unguarded front tokens
  constructor
  · have loop : ∃ span body,
        (Parsing.read unguarded).program.stmts = [.loop span .missing body] := by
      simp [unguarded, Token.unplaced, Parsing.read, Cursor.ofTokens, Cursor.kind, Cursor.peek,
        Cursor.skipSeparators, Cursor.skipWhile, Cursor.skipWhile.go, Cursor.isSeparator,
        Cursor.statements_cons, Cursor.statement_cons, Cursor.requiredExpression,
        Cursor.expression_eq, Cursor.operand_cons, Parsed.required, Cursor.body_cons,
        Cursor.braced_eq, Cursor.expect, Cursor.advance]
    obtain ⟨span, body, stmts⟩ := loop
    refine ⟨span, body, stmts, Bool.eq_true_of_not_eq_false fun clean => ?_⟩
    have tested := ((malformed_input_shaped unguarded).2.1 clean).2
    rw [stmts] at tested
    exact tested _ List.mem_cons_self List.mem_cons_self
  · have clean : Finding.anyError (Parsing.read tokens).findings = false := by
      simp [tokens, front, Token.unplaced, Parsing.read, Cursor.ofTokens, Cursor.kind,
        Cursor.peek, Cursor.skipSeparators, Cursor.skipWhile, Cursor.skipWhile.go,
        Cursor.isSeparator, Cursor.statements_cons, Cursor.statement_cons, Cursor.assignment,
        Cursor.assignedValue, Cursor.requiredExpression, Cursor.expression_eq, Cursor.operand_cons,
        Cursor.continuation_cons, TokenKind.strength, Parsed.required, Finding.anyError]
    exact ⟨clean, ((malformed_input_shaped tokens).2.1 clean).1⟩

end ConsoleScript
