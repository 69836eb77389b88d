import ConsoleScript.Source.Position
import ConsoleScript.Tree.Operator

/-! # Program trees

Expressions, statements and programs, every node with its place in the source. The parser keeps
going after an error, and a tree can also be built by hand, so an expression and a block may be
missing: `Expr.missing` and `Block.absent`. -/

namespace ConsoleScript

/-- An expression. -/
inductive Expr where
  /-- A number literal. -/
  | number (span : Span) (value : Float)
  /-- A text literal as it is written, with its quotes. -/
  | text (span : Span) (raw : Bytes)
  /-- A truth value. -/
  | boolean (span : Span) (value : Bool)
  /-- The nil value. -/
  | nil (span : Span)
  /-- The value of a variable. -/
  | name (span : Span) (name : Bytes)
  /-- An operator before its operand. -/
  | unary (span : Span) (operator : UnaryOperator) (operand : Expr)
  /-- An operator between its operands. -/
  | binary (span : Span) (operator : BinaryOperator) (left right : Expr)
  /-- An expression in parentheses. -/
  | paren (span : Span) (inner : Expr)
  /-- No expression where there should be one. -/
  | missing
  deriving DecidableEq

namespace Expr

/-- The place of an expression; a missing one has none. -/
def span : Expr → Span
  | number span _ | text span _ | boolean span _ | nil span | name span _ | unary span _ _
  | binary span _ _ _ | paren span _ => span
  | missing => .unset

end Expr

mutual

/-- A statement. -/
inductive Stmt where
  /-- Binds a variable to the value of an expression. -/
  | assign (span : Span) (name : Bytes) (value : Expr)
  /-- Prints the value of an expression. -/
  | console (span : Span) (value : Expr)
  /-- Runs the first branch whose condition holds, or else the last block. -/
  | conditional (span : Span) (branches : List Branch) (otherwise : Block)
  /-- Runs a block as long as a condition holds. -/
  | loop (span : Span) (condition : Expr) (body : Block)
  /-- Statements in braces. -/
  | block (span : Span) (stmts : List Stmt)

/-- One branch of a conditional. -/
inductive Branch where
  /-- A condition with the block it guards. -/
  | mk (span : Span) (condition : Expr) (body : Block)

/-- The block of a branch or loop. -/
inductive Block where
  /-- No block. -/
  | absent
  /-- A block of statements. -/
  | present (span : Span) (stmts : List Stmt)

end

namespace Stmt

/-- The place of a statement. -/
def span : Stmt → Span
  | assign span _ _ | console span _ | conditional span _ _ | loop span _ _ | block span _ => span

end Stmt

namespace Branch

/-- The place of a branch. -/
def span : Branch → Span
  | mk span _ _ => span

/-- The condition of a branch. -/
def condition : Branch → Expr
  | mk _ condition _ => condition

/-- The block of a branch. -/
def body : Branch → Block
  | mk _ _ body => body

end Branch

namespace Block

/-- The place of a block; an absent one has none. -/
def span : Block → Span
  | absent => .unset
  | present span _ => span

/-- The statements of a block; an absent one has none. -/
def stmts : Block → List Stmt
  | absent => []
  | present _ stmts => stmts

end Block

/-- A whole program. -/
structure Program where
  /-- The place of the program. -/
  span : Span
  /-- Its statements in order. -/
  stmts : List Stmt

/-- Any part of a program that can be evaluated on its own. -/
inductive Node where
  /-- A whole program. -/
  | program (program : Program)
  /-- A statement. -/
  | stmt (stmt : Stmt)
  /-- An expression. -/
  | expr (expr : Expr)
  /-- No node at all. -/
  | missing

end ConsoleScript
