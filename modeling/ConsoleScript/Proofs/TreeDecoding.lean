import ConsoleScript.Proofs.FrontEnds

/-! # Trees from data

Data says all that there is to say about a tree, but for the names of files.

* **`Reading`** — what data stands for. Nothing stands for a missing expression and for an absent
  block, and a record of statements for a block and for a statement, so what is meant is left to the
  place where the data stands;
* **`Data.reading`** — the reading of data from those of its items or fields, by recursion on the
  data;
* **`Expr.reading_data`**, **`Stmt.reading_data`** — the data of a tree is read as the tree, by
  recursion on the tree;
* **`Relocation.unnamed`** — what is lost: the names of files, which are the same throughout what is
  read from one source (**`Analysis.program_unnamed`**).

`tree_data_faithful` puts these together. -/

namespace ConsoleScript

/-! ## Readings -/

/-- What data stands for, by what is asked for in its place. -/
structure Reading where
  /-- A truth value. -/
  flag? : Option Bool := none
  /-- An integer. -/
  integer? : Option Int := none
  /-- A floating-point number. -/
  number? : Option Float := none
  /-- A text. -/
  text? : Option Bytes := none
  /-- A position. -/
  position? : Option Position := none
  /-- A span. -/
  span? : Option Span := none
  /-- An expression, which may be missing. -/
  expr? : Option Expr := none
  /-- A block, which may be absent. -/
  block? : Option Block := none
  /-- A statement. -/
  stmt? : Option Stmt := none
  /-- A branch of a conditional. -/
  branch? : Option Branch := none
  /-- Statements in order. -/
  stmts? : Option (List Stmt) := none
  /-- Branches in order. -/
  branches? : Option (List Branch) := none
  /-- A program. -/
  program? : Option Program := none

/-- The readings of the fields of a record, by their names. -/
abbrev FieldReadings := List (String × Reading)

/-- The operator that is displayed like this. -/
def UnaryOperator.ofSymbol? (symbol : Bytes) : Option UnaryOperator :=
  [negate, invert, unknown].find? (·.symbol = symbol)

/-- The operator that is displayed like this. -/
def BinaryOperator.ofSymbol? (symbol : Bytes) : Option BinaryOperator :=
  (all ++ [unknown]).find? (·.symbol = symbol)

namespace FieldReadings

variable (fields : FieldReadings)

/-- One of the fields, read as what is asked for. -/
def get? {α : Type} (name : String) (part? : Reading → Option α) : Option α :=
  (fields.lookup name).bind part?

/-- Whether the fields are those of a node of the given kind. -/
def isNode (kind : String) : Bool :=
  fields.get? "kind" Reading.text? = some (Bytes.utf8 kind)

/-- The place of a node. -/
def place? : Option Span :=
  fields.get? "span" Reading.span?

/-- The fields as a position, whose file is not told. -/
def position? : Option Position := do
  return ⟨[], ← fields.get? "offset" Reading.integer?, ← fields.get? "line" Reading.integer?,
    ← fields.get? "column" Reading.integer?⟩

/-- The fields as a span. -/
def span? : Option Span := do
  return ⟨← fields.get? "start" Reading.position?, ← fields.get? "end" Reading.position?⟩

/-- The fields as an expression, which is not missing. -/
def expr? : Option Expr := do
  let place ← fields.place?
  if fields.isNode "NumberLit" then
    return .number place (← fields.get? "value" Reading.number?)
  else if fields.isNode "TextLit" then
    return .text place (← fields.get? "raw" Reading.text?)
  else if fields.isNode "BoolLit" then
    return .boolean place (← fields.get? "value" Reading.flag?)
  else if fields.isNode "NilLit" then
    return .nil place
  else if fields.isNode "Ident" then
    return .name place (← fields.get? "name" Reading.text?)
  else if fields.isNode "UnaryExpr" then
    return .unary place (← UnaryOperator.ofSymbol? (← fields.get? "op" Reading.text?))
      (← fields.get? "operand" Reading.expr?)
  else if fields.isNode "BinaryExpr" then
    return .binary place (← BinaryOperator.ofSymbol? (← fields.get? "op" Reading.text?))
      (← fields.get? "left" Reading.expr?) (← fields.get? "right" Reading.expr?)
  else if fields.isNode "ParenExpr" then
    return .paren place (← fields.get? "inner" Reading.expr?)
  else
    none

/-- The fields as a block, which is not absent. -/
def block? : Option Block := do
  let place ← fields.place?
  if fields.isNode "Block" then
    return .present place (← fields.get? "stmts" Reading.stmts?)
  else
    none

/-- The fields as a statement. Only the last block of a conditional may be left out. -/
def stmt? : Option Stmt := do
  let place ← fields.place?
  if fields.isNode "AssignStmt" then
    return .assign place (← fields.get? "name" Reading.text?) (← fields.get? "value" Reading.expr?)
  else if fields.isNode "ConsoleStmt" then
    return .console place (← fields.get? "value" Reading.expr?)
  else if fields.isNode "IfStmt" then
    let branches ← fields.get? "branches" Reading.branches?
    match fields.lookup "else" with
    | none => return .conditional place branches .absent
    | some otherwise => return .conditional place branches (← otherwise.block?)
  else if fields.isNode "WhileStmt" then
    return .loop place (← fields.get? "condition" Reading.expr?)
      (← fields.get? "body" Reading.block?)
  else if fields.isNode "Block" then
    return .block place (← fields.get? "stmts" Reading.stmts?)
  else
    none

/-- The fields as a branch of a conditional. -/
def branch? : Option Branch := do
  let place ← fields.place?
  if fields.isNode "CondBlock" then
    return .mk place (← fields.get? "condition" Reading.expr?) (← fields.get? "body" Reading.block?)
  else
    none

/-- The fields as a program. -/
def program? : Option Program := do
  let place ← fields.place?
  if fields.isNode "Program" then
    return ⟨place, ← fields.get? "stmts" Reading.stmts?⟩
  else
    none

end FieldReadings

mutual

/-- What data stands for. -/
def Data.reading : Data → Reading
  | absent => { expr? := some .missing, block? := some .absent }
  | flag value => { flag? := some value }
  | integer value => { integer? := some value }
  | number value => { number? := some value }
  | text value => { text? := some value }
  | list items =>
    { stmts? := (readings items).mapM Reading.stmt?
      branches? := (readings items).mapM Reading.branch? }
  | record fields =>
    let parts : FieldReadings := fieldReadings fields
    { position? := parts.position?, span? := parts.span?, expr? := parts.expr?
      block? := parts.block?, stmt? := parts.stmt?, branch? := parts.branch?
      program? := parts.program? }

/-- What the items of a list stand for. -/
def Data.readings : List Data → List Reading
  | [] => []
  | item :: rest => item.reading :: readings rest

/-- What the fields of a record stand for. -/
def Data.fieldReadings : List (String × Data) → FieldReadings
  | [] => []
  | (name, value) :: rest => (name, value.reading) :: fieldReadings rest

end

/-- The program that data stands for. -/
def Program.ofData? (data : Data) : Option Program :=
  data.reading.program?

/-! ## What is lost -/

/-- Forgets the names of files. -/
def Relocation.unnamed : Relocation where
  move position := { position with file := [] }
  move_unset := rfl
  offset_lt _ _ := Iff.rfl

namespace Relocation

/-- Where the names of files are forgotten, it does not matter what they were. -/
theorem unnamed_inFile (file : Bytes) (position : Position) :
    unnamed.move ((inFile file).move position) = unnamed.move position := by
  unfold inFile
  dsimp only
  split <;> rfl

end Relocation

/-! ## Reading the data of a tree -/

/-- A text is told by its encoding. -/
@[simp] theorem Bytes.utf8_inj {text other : String} : utf8 text = utf8 other ↔ text = other := by
  constructor
  · intro same
    exact String.toByteArray_inj.1 (ByteArray.ext (Array.toList_inj.1 same))
  · rintro rfl
    rfl

/-- An operator is told by its symbol. -/
theorem UnaryOperator.ofSymbol?_symbol (operator : UnaryOperator) :
    ofSymbol? operator.symbol = some operator := by
  cases operator <;> decide

/-- An operator is told by its symbol. -/
theorem BinaryOperator.ofSymbol?_symbol (operator : BinaryOperator) :
    ofSymbol? operator.symbol = some operator := by
  cases operator <;> decide

attribute [simp] Data.reading Data.readings Data.fieldReadings

namespace FieldReadings

variable {name : String} {value : Reading} {rest : FieldReadings}

@[simp] theorem lookup_cons (wanted : String) :
    List.lookup wanted ((name, value) :: rest)
      = if wanted = name then some value else List.lookup wanted rest := by
  by_cases same : wanted = name
  · simp [List.lookup, same]
  · simp [List.lookup, same, beq_false_of_ne same]

@[simp] theorem get?_cons {α : Type} (wanted : String) (part? : Reading → Option α) :
    get? ((name, value) :: rest) wanted part?
      = if wanted = name then part? value else get? rest wanted part? := by
  rw [get?, lookup_cons]
  split <;> rfl

@[simp] theorem isNode_cons (kind : String) :
    isNode ((name, value) :: rest) kind
      = if "kind" = name then decide (value.text? = some (Bytes.utf8 kind))
        else isNode rest kind := by
  rw [isNode, get?_cons]
  split <;> rfl

@[simp] theorem place?_cons :
    place? ((name, value) :: rest) = if "span" = name then value.span? else place? rest :=
  get?_cons "span" Reading.span?

end FieldReadings

@[simp] theorem Span.reading_data (span : Span) :
    span.data.reading.span? = some (span.relocate .unnamed) := rfl

/-- The data of an expression is read as the expression. -/
@[simp] theorem Expr.reading_data (expr : Expr) :
    expr.data.reading.expr? = some (expr.relocate .unnamed) := by
  induction expr with
  | number | text | boolean | nil | name => simp [data, FieldReadings.expr?, relocate]
  | unary span operator operand ih =>
    simp [data, FieldReadings.expr?, relocate, UnaryOperator.ofSymbol?_symbol, ih]
  | binary span operator left right left_ih right_ih =>
    simp [data, FieldReadings.expr?, relocate, BinaryOperator.ofSymbol?_symbol, left_ih, right_ih]
  | paren span inner ih => simp [data, FieldReadings.expr?, relocate, ih]
  | missing => rfl

mutual

/-- The data of a statement is read as the statement. -/
theorem Stmt.reading_data : (stmt : Stmt) →
    stmt.data.reading.stmt? = some (stmt.relocate .unnamed)
  | .assign .. => by simp [Stmt.data, FieldReadings.stmt?, Stmt.relocate]
  | .console .. => by simp [Stmt.data, FieldReadings.stmt?, Stmt.relocate]
  | .conditional _ branches .absent => by
    have guarded := readings_branchesData branches
    simp [Stmt.data, FieldReadings.stmt?, Stmt.relocate, Block.relocate, guarded]
  | .conditional _ branches (.present _ stmts) => by
    have guarded := readings_branchesData branches
    have last := readings_stmtsData stmts
    simp [Stmt.data, FieldReadings.stmt?, FieldReadings.block?, Stmt.relocate, Block.relocate,
      guarded, last]
  | .loop _ _ body => by
    have repeated := body.reading_data
    simp [Stmt.data, FieldReadings.stmt?, Stmt.relocate, repeated]
  | .block _ stmts => by
    have inside := readings_stmtsData stmts
    simp [Stmt.data, FieldReadings.stmt?, Stmt.relocate, inside]

/-- The data of statements is read as the statements. -/
theorem readings_stmtsData : (stmts : List Stmt) →
    (Data.readings (stmtsData stmts)).mapM Reading.stmt? = some (relocateStmts .unnamed stmts)
  | [] => rfl
  | stmt :: rest => by
    have first := stmt.reading_data
    have others := readings_stmtsData rest
    simp [stmtsData, relocateStmts, first, others]

/-- The data of branches is read as the branches. -/
theorem readings_branchesData : (branches : List Branch) →
    (Data.readings (branchesData branches)).mapM Reading.branch?
      = some (relocateBranches .unnamed branches)
  | [] => rfl
  | .mk _ _ body :: rest => by
    have guarded := body.reading_data
    have others := readings_branchesData rest
    simp [branchesData, Branch.data, FieldReadings.branch?, relocateBranches, Branch.relocate,
      guarded, others]

/-- The data of a block is read as the block. -/
theorem Block.reading_data : (block : Block) →
    block.data.reading.block? = some (block.relocate .unnamed)
  | .absent => rfl
  | .present _ stmts => by
    have inside := readings_stmtsData stmts
    simp [Block.data, FieldReadings.block?, Block.relocate, inside]

end

/-- The data of a program is read as the program. -/
theorem Program.ofData?_data (program : Program) :
    ofData? program.data = some (program.relocate .unnamed) := by
  simp [ofData?, data, FieldReadings.program?, relocate, readings_stmtsData]

/-! ## What the data of a tree leaves out -/

/-- Data has no names of files. -/
theorem Expr.data_unnamed (expr : Expr) : (expr.relocate .unnamed).data = expr.data := by
  induction expr with
  | number | text | boolean | nil | name | missing => rfl
  | unary span operator operand ih => rw [relocate, data, data, ih]; rfl
  | binary span operator left right left_ih right_ih =>
    rw [relocate, data, data, left_ih, right_ih]
    rfl
  | paren span inner ih => rw [relocate, data, data, ih]; rfl

mutual

/-- Data of a statement has no names of files. -/
theorem Stmt.data_unnamed : (stmt : Stmt) → (stmt.relocate .unnamed).data = stmt.data
  | .assign .. => by
    rw [Stmt.relocate, Stmt.data, Stmt.data, Expr.data_unnamed]
    rfl
  | .console .. => by
    rw [Stmt.relocate, Stmt.data, Stmt.data, Expr.data_unnamed]
    rfl
  | .conditional _ branches .absent => by
    rw [Stmt.relocate, Block.relocate, Stmt.data, Stmt.data, branchesData_unnamed branches]
    rfl
  | .conditional _ branches (.present _ stmts) => by
    rw [Stmt.relocate, Block.relocate, Stmt.data, Stmt.data, branchesData_unnamed branches,
      stmtsData_unnamed stmts]
    rfl
  | .loop _ _ body => by
    rw [Stmt.relocate, Stmt.data, Stmt.data, Expr.data_unnamed, body.data_unnamed]
    rfl
  | .block _ stmts => by
    rw [Stmt.relocate, Stmt.data, Stmt.data, stmtsData_unnamed stmts]
    rfl

/-- Data of statements has no names of files. -/
theorem stmtsData_unnamed : (stmts : List Stmt) →
    stmtsData (relocateStmts .unnamed stmts) = stmtsData stmts
  | [] => rfl
  | stmt :: rest => by
    rw [relocateStmts, stmtsData, stmtsData, stmt.data_unnamed, stmtsData_unnamed rest]

/-- Data of branches has no names of files. -/
theorem branchesData_unnamed : (branches : List Branch) →
    branchesData (relocateBranches .unnamed branches) = branchesData branches
  | [] => rfl
  | .mk _ _ body :: rest => by
    rw [relocateBranches, Branch.relocate, branchesData, branchesData, Branch.data, Branch.data,
      Expr.data_unnamed, body.data_unnamed, branchesData_unnamed rest]
    rfl

/-- Data of a block has no names of files. -/
theorem Block.data_unnamed : (block : Block) → (block.relocate .unnamed).data = block.data
  | .absent => rfl
  | .present _ stmts => by
    rw [Block.relocate, Block.data, Block.data, stmtsData_unnamed stmts]
    rfl

end

/-- Two programs have the same data just if they are the same but for the names of files. -/
theorem Program.data_eq_iff (program other : Program) :
    program.data = other.data ↔ program.relocate .unnamed = other.relocate .unnamed := by
  constructor
  · intro same
    have read := program.ofData?_data
    rw [same, other.ofData?_data] at read
    exact (Option.some.inj read).symm
  · have unnamed (program : Program) : (program.relocate .unnamed).data = program.data := by
      rw [relocate, data, data, stmtsData_unnamed]
      rfl
    intro same
    rw [← unnamed program, same, unnamed]

/-! ## Trees that are read -/

/-- Tokens of a source that lies in no file carry no name of one. -/
theorem Lexing.relocate_unnamed (source file : Bytes) :
    (read source file).tokens.map (Token.relocate .unnamed) = (read source []).tokens := by
  have bare : ∀ token ∈ (read source []).tokens, token.relocate .unnamed = token := by
    rintro ⟨kind, lexeme, ⟨⟨_, _, _, _⟩, ⟨_, _, _, _⟩⟩⟩ member
    obtain ⟨⟨rfl, -⟩, ⟨rfl, -⟩, -⟩ := within_tokens member
    rfl
  have forgotten (token : Token) :
      (token.relocate (.inFile file)).relocate .unnamed = token.relocate .unnamed := by
    simp [Token.relocate, Span.relocate, Relocation.unnamed_inFile]
  rw [read_inFile source [] file, relocate, List.map_map]
  refine (List.map_congr_left fun token member => ?_).trans (List.map_id _)
  rw [Function.comp_apply, forgotten, bare token member, id]

/-- Without the names of files, what is read from a source is what is read from it in no file. -/
theorem Analysis.program_unnamed (source file : Bytes) :
    (analyze source file).program.relocate .unnamed = (analyze source []).program := by
  have moved : Parsing.read ((Lexing.read source file).tokens.map (Token.relocate .unnamed))
      = (Parsing.read (Lexing.read source file).tokens).relocate .unnamed :=
    Parsing.read_relocate _
  rw [Lexing.relocate_unnamed] at moved
  exact (congrArg Parsing.program moved).symm

/-- **A tree is told by its data, but for the names of files.** The data of every program is read
back as the program without the names of files, so two programs have the same data just if they are
the same up to these. In particular, from the data of what is read from a source, whatever errors it
has, the tree is found again that is read from the source in no file; and what is read from two
sources in the same file is the same tree if it has the same data. -/
theorem tree_data_faithful :
    (∀ program : Program, Program.ofData? program.data = some (program.relocate .unnamed)) ∧
      (∀ program other : Program,
        program.data = other.data ↔ program.relocate .unnamed = other.relocate .unnamed) ∧
      (∀ source file : Bytes, Program.ofData? (Analysis.analyze source file).program.data
        = some (Analysis.analyze source []).program) ∧
      ∀ source other file : Bytes,
        (Analysis.analyze source file).program.data = (Analysis.analyze other file).program.data ↔
          (Analysis.analyze source file).program = (Analysis.analyze other file).program := by
  refine ⟨Program.ofData?_data, Program.data_eq_iff, fun source file => ?_,
    fun source other file => ⟨fun same => ?_, fun same => by rw [same]⟩⟩
  · rw [Program.ofData?_data, Analysis.program_unnamed]
  · rw [Program.data_eq_iff, Analysis.program_unnamed, Analysis.program_unnamed] at same
    rw [Analysis.analyze_inFile source [] file, Analysis.analyze_inFile other [] file,
      Analysis.relocate, Analysis.relocate, same]

end ConsoleScript
