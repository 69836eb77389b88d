import ConsoleScript.Report.Data
import ConsoleScript.Tree.Basic

/-! # Program trees as data

Every node becomes a record with its kind, its place and its parts, the fields sorted by name. A
missing node is absent data; a conditional without a last block has no field for it. File names are
left out of places. -/

namespace ConsoleScript

namespace Position

/-- A position as data: offset, line and column. -/
def data (position : Position) : Data :=
  .record [("column", .integer position.column), ("line", .integer position.line),
    ("offset", .integer position.offset)]

end Position

namespace Span

/-- A span as data: its two ends. -/
def data (span : Span) : Data :=
  .record [("end", span.stop.data), ("start", span.start.data)]

end Span

namespace Expr

/-- An expression as data. -/
def data : Expr → Data
  | number span value =>
    .record [("kind", .text (Bytes.utf8 "NumberLit")), ("span", span.data),
      ("value", .number value)]
  | text span raw =>
    .record [("kind", .text (Bytes.utf8 "TextLit")), ("raw", .text raw), ("span", span.data)]
  | boolean span value =>
    .record [("kind", .text (Bytes.utf8 "BoolLit")), ("span", span.data), ("value", .flag value)]
  | nil span => .record [("kind", .text (Bytes.utf8 "NilLit")), ("span", span.data)]
  | name span word =>
    .record [("kind", .text (Bytes.utf8 "Ident")), ("name", .text word), ("span", span.data)]
  | unary span operator operand =>
    .record [("kind", .text (Bytes.utf8 "UnaryExpr")), ("op", .text operator.symbol),
      ("operand", operand.data), ("span", span.data)]
  | binary span operator left right =>
    .record [("kind", .text (Bytes.utf8 "BinaryExpr")), ("left", left.data),
      ("op", .text operator.symbol), ("right", right.data), ("span", span.data)]
  | paren span inner =>
    .record [("inner", inner.data), ("kind", .text (Bytes.utf8 "ParenExpr")), ("span", span.data)]
  | missing => .absent

end Expr

mutual

/-- A statement as data. -/
def Stmt.data : Stmt → Data
  | .assign span name value =>
    .record [("kind", .text (Bytes.utf8 "AssignStmt")), ("name", .text name), ("span", span.data),
      ("value", value.data)]
  | .console span value =>
    .record [("kind", .text (Bytes.utf8 "ConsoleStmt")), ("span", span.data),
      ("value", value.data)]
  | .conditional span branches .absent =>
    .record [("branches", .list (branchesData branches)),
      ("kind", .text (Bytes.utf8 "IfStmt")), ("span", span.data)]
  | .conditional span branches (.present place stmts) =>
    .record [("branches", .list (branchesData branches)),
      ("else", .record [("kind", .text (Bytes.utf8 "Block")), ("span", place.data),
        ("stmts", .list (stmtsData stmts))]),
      ("kind", .text (Bytes.utf8 "IfStmt")), ("span", span.data)]
  | .loop span condition body =>
    .record [("body", body.data), ("condition", condition.data),
      ("kind", .text (Bytes.utf8 "WhileStmt")), ("span", span.data)]
  | .block span stmts =>
    .record [("kind", .text (Bytes.utf8 "Block")), ("span", span.data),
      ("stmts", .list (stmtsData stmts))]

/-- Statements as data. -/
def stmtsData : List Stmt → List Data
  | [] => []
  | stmt :: rest => stmt.data :: stmtsData rest

/-- A branch as data. -/
def Branch.data : Branch → Data
  | .mk span condition body =>
    .record [("body", body.data), ("condition", condition.data),
      ("kind", .text (Bytes.utf8 "CondBlock")), ("span", span.data)]

/-- Branches as data. -/
def branchesData : List Branch → List Data
  | [] => []
  | branch :: rest => branch.data :: branchesData rest

/-- A block as data. -/
def Block.data : Block → Data
  | .absent => .absent
  | .present span stmts =>
    .record [("kind", .text (Bytes.utf8 "Block")), ("span", span.data),
      ("stmts", .list (stmtsData stmts))]

end

namespace Program

/-- A program as data. -/
def data (program : Program) : Data :=
  .record [("kind", .text (Bytes.utf8 "Program")), ("span", program.span.data),
    ("stmts", .list (stmtsData program.stmts))]

end Program

namespace Node

/-- Any part of a program as data. -/
def data : Node → Data
  | program whole => whole.data
  | stmt single => single.data
  | expr single => single.data
  | missing => .absent

end Node

end ConsoleScript
