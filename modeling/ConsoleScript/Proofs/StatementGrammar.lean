import ConsoleScript.Parsing.Program
import ConsoleScript.Proofs.ExpressionReading

/-! # The grammar of statements

Which tokens spell a statement, a branch, a body and a run of statements:

* **`SpellsStmt`** — `name "=" expression`, `"console" expression`, a conditional, a loop, or a run
  of statements in braces;
* **`SpellsBranch`**, **`SpellsFurther`** — the branches of a conditional and its last block;
* **`SpellsBody`** — a run of statements in braces, or a single statement;
* **`SpellsRun`** — statements with any line breaks and semicolons before, between and behind them.

A conditional without a last block is *dangling*: a further branch behind it would belong to it. A
body followed by a further branch of an outer conditional is therefore not dangling. Every token
that is no line break and no semicolon is named by exactly one rule, so it stands for one place of
the tree.

`Stmt.rendering` is the canonical spelling of a tree: every body in braces, every statement followed
by a line break, and each further branch directly behind the closing brace. -/

namespace ConsoleScript

namespace Token

/-- Tokens that are line breaks or semicolons throughout. -/
def AllSeparators (tokens : List Token) : Prop :=
  ∀ token ∈ tokens, Cursor.isSeparator token.kind = true

/-- Whether behind line breaks a word follows that opens a further branch. -/
def opensBranch (tokens : List Token) : Bool :=
  (tokens.dropWhile fun token => token.kind == .newline).head?.any fun token =>
    token.kind == .elseifWord || token.kind == .elseWord

end Token

/-! ## Spelling -/

mutual

/-- Which tokens spell a statement, and whether it is dangling. -/
inductive SpellsStmt : Bool → List Token → Stmt → Prop where
  /-- A name, the sign and a value. -/
  | assign {target sign : Token} {tokens : List Token} {value : Expr}
      (named : target.kind = .name) (assigns : sign.kind = .assign)
      (right : Spells .either tokens value) :
      SpellsStmt false (target :: sign :: tokens)
        (.assign ⟨target.span.start, value.span.stop⟩ target.lexeme value)
  /-- The word and a value. -/
  | console {word : Token} {tokens : List Token} {value : Expr} (kind : word.kind = .consoleWord)
      (shown : Spells .either tokens value) :
      SpellsStmt false (word :: tokens) (.console ⟨word.span.start, value.span.stop⟩ value)
  /-- A first branch and what follows it. -/
  | conditional {word : Token} {tokens more : List Token} {branch : Branch}
      {branches : List Branch} {otherwise : Block} {stop : Position} {inner dangling : Bool}
      (kind : word.kind = .ifWord) (first : SpellsBranch word inner tokens branch)
      (nearest : inner = true → more = [])
      (others : SpellsFurther branch.span.stop dangling more branches otherwise stop) :
      SpellsStmt dangling (word :: (tokens ++ more))
        (.conditional ⟨word.span.start, stop⟩ (branch :: branches) otherwise)
  /-- A condition and a body. -/
  | loop {word : Token} {test inside : List Token} {condition : Expr} {body : Block}
      {dangling : Bool} (kind : word.kind = .whileWord) (holds : Spells .either test condition)
      (repeated : SpellsBody dangling inside body) :
      SpellsStmt dangling (word :: (test ++ inside))
        (.loop ⟨word.span.start, body.span.stop⟩ condition body)
  /-- A run of statements in braces. -/
  | block {opening closing : Token} {inside : List Token} {stmts : List Stmt}
      (opens : opening.kind = .leftBrace) (closes : closing.kind = .rightBrace)
      (run : SpellsRun inside stmts) :
      SpellsStmt false (opening :: (inside ++ [closing]))
        (.block ⟨opening.span.start, closing.span.stop⟩ stmts)

/-- Which tokens spell the condition and the body of a branch behind the word that opens it. -/
inductive SpellsBranch : Token → Bool → List Token → Branch → Prop where
  /-- A condition and a body. -/
  | mk {word : Token} {test inside : List Token} {condition : Expr} {body : Block} {dangling : Bool}
      (holds : Spells .either test condition) (guarded : SpellsBody dangling inside body) :
      SpellsBranch word dangling (test ++ inside)
        (.mk ⟨word.span.start, body.span.stop⟩ condition body)

/-- Which tokens spell the further branches and the last block of a conditional: from the place
where what stands before ends to the place where they end. -/
inductive SpellsFurther :
    Position → Bool → List Token → List Branch → Block → Position → Prop where
  /-- Nothing further. -/
  | none {last : Position} : SpellsFurther last true [] [] .absent last
  /-- A branch behind `elseif`. -/
  | elseif {last stop : Position} {word : Token} {gap tokens more : List Token} {branch : Branch}
      {branches : List Branch} {otherwise : Block} {inner dangling : Bool}
      (layout : Token.AllNewlines gap) (kind : word.kind = .elseifWord)
      (first : SpellsBranch word inner tokens branch) (nearest : inner = true → more = [])
      (others : SpellsFurther branch.span.stop dangling more branches otherwise stop) :
      SpellsFurther last dangling (gap ++ word :: (tokens ++ more)) (branch :: branches) otherwise
        stop
  /-- A branch behind `else if`. -/
  | elseIf {last stop : Position} {other word : Token} {gap tokens more : List Token}
      {branch : Branch} {branches : List Branch} {otherwise : Block} {inner dangling : Bool}
      (layout : Token.AllNewlines gap) (else_kind : other.kind = .elseWord)
      (if_kind : word.kind = .ifWord) (first : SpellsBranch word inner tokens branch)
      (nearest : inner = true → more = [])
      (others : SpellsFurther branch.span.stop dangling more branches otherwise stop) :
      SpellsFurther last dangling (gap ++ other :: word :: (tokens ++ more)) (branch :: branches)
        otherwise stop
  /-- A last block behind `else`. -/
  | otherwise {last : Position} {word : Token} {gap inside : List Token} {body : Block}
      {dangling : Bool} (layout : Token.AllNewlines gap) (kind : word.kind = .elseWord)
      (final : Token.headKind inside ≠ .ifWord) (run : SpellsBody dangling inside body) :
      SpellsFurther last dangling (gap ++ word :: inside) [] body body.span.stop

/-- Which tokens spell the body of a branch or loop. -/
inductive SpellsBody : Bool → List Token → Block → Prop where
  /-- A run of statements in braces. -/
  | braced {opening closing : Token} {inside : List Token} {stmts : List Stmt}
      (opens : opening.kind = .leftBrace) (closes : closing.kind = .rightBrace)
      (run : SpellsRun inside stmts) :
      SpellsBody false (opening :: (inside ++ [closing]))
        (.present ⟨opening.span.start, closing.span.stop⟩ stmts)
  /-- A single statement that is no block. -/
  | single {tokens : List Token} {stmt : Stmt} {dangling : Bool}
      (unbraced : Token.headKind tokens ≠ .leftBrace) (only : SpellsStmt dangling tokens stmt) :
      SpellsBody dangling tokens (.present stmt.span [stmt])

/-- Which tokens spell statements, with separators before, between and behind them. -/
inductive SpellsRun : List Token → List Stmt → Prop where
  /-- No statement. -/
  | done {gap : List Token} (separators : Token.AllSeparators gap) : SpellsRun gap []
  /-- A statement and a run of statements. -/
  | cons {gap tokens more : List Token} {stmt : Stmt} {stmts : List Stmt} {dangling : Bool}
      (separators : Token.AllSeparators gap) (first : SpellsStmt dangling tokens stmt)
      (others : SpellsRun more stmts) : SpellsRun (gap ++ (tokens ++ more)) (stmt :: stmts)

end

/-! ## Trees without places -/

mutual

/-- A statement without the places of its nodes. -/
def Stmt.bare : Stmt → Stmt
  | .assign _ name value => .assign .unset name value.bare
  | .console _ value => .console .unset value.bare
  | .conditional _ branches otherwise => .conditional .unset (bareBranches branches) otherwise.bare
  | .loop _ condition body => .loop .unset condition.bare body.bare
  | .block _ stmts => .block .unset (bareStmts stmts)

/-- Statements without the places of their nodes. -/
def bareStmts : List Stmt → List Stmt
  | [] => []
  | stmt :: rest => stmt.bare :: bareStmts rest

/-- Branches without the places of their nodes. -/
def bareBranches : List Branch → List Branch
  | [] => []
  | .mk _ condition body :: rest => .mk .unset condition.bare body.bare :: bareBranches rest

/-- A block without the places of its nodes. -/
def Block.bare : Block → Block
  | .absent => .absent
  | .present _ stmts => .present .unset (bareStmts stmts)

end

/-! ## Canonical spelling -/

mutual

/-- The symbols of a statement in canonical form. -/
def Stmt.rendering : Stmt → List Symbol
  | .assign _ name value => .name name :: .sign .assign :: value.yield
  | .console _ value => .sign .consoleWord :: value.yield
  | .conditional _ branches otherwise =>
    renderBranches .ifWord branches ++ renderOtherwise otherwise
  | .loop _ condition body => .sign .whileWord :: (condition.yield ++ body.rendering)
  | .block _ stmts => .sign .leftBrace :: (renderStmts stmts ++ [.sign .rightBrace])

/-- The symbols of statements, each followed by a line break. -/
def renderStmts : List Stmt → List Symbol
  | [] => []
  | stmt :: rest => stmt.rendering ++ .sign .newline :: renderStmts rest

/-- The symbols of branches, the first behind `word` and each other one behind `elseif`. -/
def renderBranches (word : TokenKind) : List Branch → List Symbol
  | [] => []
  | .mk _ condition body :: rest =>
    .sign word :: ((condition.yield ++ body.rendering) ++ renderBranches .elseifWord rest)

/-- The symbols of the last block of a conditional, if it has one. -/
def renderOtherwise : Block → List Symbol
  | .absent => []
  | .present _ stmts =>
    .sign .elseWord :: .sign .leftBrace :: (renderStmts stmts ++ [.sign .rightBrace])

/-- The symbols of a body in braces. -/
def Block.rendering : Block → List Symbol
  | .absent => []
  | .present _ stmts => .sign .leftBrace :: (renderStmts stmts ++ [.sign .rightBrace])

end

mutual

/-- A statement whose expressions are grammatical, whose conditionals have branches and whose
branches and loops have bodies. -/
def Stmt.Grammatical : Stmt → Prop
  | .assign _ _ value => Derives .either value
  | .console _ value => Derives .either value
  | .conditional _ branches otherwise =>
    branches ≠ [] ∧ GrammaticalBranches branches ∧ otherwise.Grammatical
  | .loop _ condition body => Derives .either condition ∧ body ≠ .absent ∧ body.Grammatical
  | .block _ stmts => GrammaticalStmts stmts

/-- Statements that are grammatical throughout. -/
def GrammaticalStmts : List Stmt → Prop
  | [] => True
  | stmt :: rest => stmt.Grammatical ∧ GrammaticalStmts rest

/-- Branches that are grammatical throughout. -/
def GrammaticalBranches : List Branch → Prop
  | [] => True
  | .mk _ condition body :: rest =>
    (Derives .either condition ∧ body ≠ .absent ∧ body.Grammatical) ∧ GrammaticalBranches rest

/-- A block whose statements are grammatical; an absent one has none. -/
def Block.Grammatical : Block → Prop
  | .absent => True
  | .present _ stmts => GrammaticalStmts stmts

end

end ConsoleScript
