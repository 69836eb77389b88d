import ConsoleScript.Evaluation.Statement

/-! # The rules of evaluation

What a program means, as a relation: each rule says how one form of expression or statement
evaluates, from what its parts evaluate to. Loops have a rule for one more round, so the relation
speaks of finite derivations and needs no bound on their rounds.

* **`Unquotes`** — the text of a literal: its outer quotes are taken off, and doubled quotes joined;
* **`Evaluates`** — an expression has a value or fails, operands from left to right and all of them;
* **`Runs`** — a statement leads from what has been observed before it to what is observed after
  it, with a value or a failure;
* **`Observation`** — the variables, the lines on the console and the assignments, without the notes
  about the control flow. -/

namespace ConsoleScript

/-! ## Expressions -/

/-- What is left of bytes in which two quotes in a row are taken for one, from left to right. -/
inductive Joins : Bytes → Bytes → Prop where
  /-- Nothing is left of nothing. -/
  | nil : Joins [] []
  /-- Two quotes in a row are one. -/
  | doubled {rest text : Bytes} (others : Joins rest text) :
      Joins (0x22 :: 0x22 :: rest) (0x22 :: text)
  /-- A quote that no other quote follows is kept. -/
  | quote {rest text : Bytes} (single : rest.head? ≠ some 0x22) (others : Joins rest text) :
      Joins (0x22 :: rest) (0x22 :: text)
  /-- Any other byte is kept. -/
  | byte {byte : UInt8} {rest text : Bytes} (no_quote : byte ≠ 0x22) (others : Joins rest text) :
      Joins (byte :: rest) (byte :: text)

/-- The text that the bytes of a literal stand for. -/
inductive Unquotes : Bytes → Bytes → Prop where
  /-- A quote at either end is taken off, and those between them are joined. -/
  | enclosed {body text : Bytes} (inside : Joins body text) :
      Unquotes (0x22 :: body ++ [0x22]) text
  /-- If there is none at either end, all quotes are joined. -/
  | bare {raw text : Bytes} (bare : ∀ body, raw ≠ 0x22 :: body ++ [0x22])
      (joined : Joins raw text) : Unquotes raw text

namespace BinaryOperator

/-- The operators on two numbers. -/
def numeric : List BinaryOperator :=
  [power, multiply, divide, remainder, subtract, less, lessEqual, greater, greaterEqual]

/-- The operators on two truth values. -/
def logical : List BinaryOperator :=
  [both, either]

end BinaryOperator

/-- What the operators on two numbers give. Division by zero follows the arithmetic of the numbers
and is no failure. -/
inductive Calculates : BinaryOperator → Float → Float → Value → Prop where
  /-- A power. -/
  | power {left right : Float} : Calculates .power left right (.number (power left right))
  /-- A product. -/
  | multiply {left right : Float} : Calculates .multiply left right (.number (left * right))
  /-- A quotient. -/
  | divide {left right : Float} : Calculates .divide left right (.number (left / right))
  /-- A remainder. -/
  | remainder {left right : Float} :
      Calculates .remainder left right (.number (remainder left right))
  /-- A difference. -/
  | subtract {left right : Float} : Calculates .subtract left right (.number (left - right))
  /-- Whether the left number is less. -/
  | less {left right : Float} : Calculates .less left right (.boolean (decide (left < right)))
  /-- Whether the left number is less or equal. -/
  | lessEqual {left right : Float} :
      Calculates .lessEqual left right (.boolean (decide (left ≤ right)))
  /-- Whether the left number is greater. -/
  | greater {left right : Float} : Calculates .greater left right (.boolean (decide (left > right)))
  /-- Whether the left number is greater or equal. -/
  | greaterEqual {left right : Float} :
      Calculates .greaterEqual left right (.boolean (decide (left ≥ right)))

/-- What the operators on two truth values give. -/
inductive Decides : BinaryOperator → Bool → Bool → Bool → Prop where
  /-- A conjunction. -/
  | both {left right : Bool} : Decides .both left right (left && right)
  /-- A disjunction. -/
  | either {left right : Bool} : Decides .either left right (left || right)

/-- What a unary operator at `span` makes of the value of an operand. -/
inductive Transforms (span : Span) (operand : Expr) :
    UnaryOperator → Value → Except Failure Value → Prop where
  /-- The negative of a number. -/
  | negate {number : Float} :
      Transforms span operand .negate (.number number) (.ok (.number (-number)))
  /-- Only a number has a negative. -/
  | negateOther {value : Value} (other : value.kind ≠ .number) :
      Transforms span operand .negate value
        (.error ⟨.mismatch .number (some value.kind), operand.span⟩)
  /-- The opposite of a truth value. -/
  | invert {truth : Bool} :
      Transforms span operand .invert (.boolean truth) (.ok (.boolean (!truth)))
  /-- Only a truth value has an opposite. -/
  | invertOther {value : Value} (other : value.kind ≠ .boolean) :
      Transforms span operand .invert value
        (.error ⟨.mismatch .boolean (some value.kind), operand.span⟩)
  /-- An operator that the language does not have. -/
  | unknown {value : Value} :
      Transforms span operand .unknown value
        (.error ⟨.unsupportedOperator UnaryOperator.unknown.symbol, span⟩)

/-- What a binary operator at `span` makes of the values of its operands. -/
inductive Combines (span : Span) (left right : Expr) :
    BinaryOperator → Value → Value → Except Failure Value → Prop where
  /-- A sum of numbers. -/
  | addNumbers {one two : Float} :
      Combines span left right .add (.number one) (.number two) (.ok (.number (one + two)))
  /-- Unless both are numbers, the display texts are joined. -/
  | addTexts {first second : Value} (texts : ¬(first.kind = .number ∧ second.kind = .number)) :
      Combines span left right .add first second (.ok (.text (first.display ++ second.display)))
  /-- Numbers are equal if they differ by less than `1e-11`. -/
  | equalNumbers {one two : Float} :
      Combines span left right .equal (.number one) (.number two)
        (.ok (.boolean (decide ((one - two).abs < 1e-11))))
  /-- Unless both are numbers, equality is that of the values. -/
  | equalOthers {first second : Value} (others : ¬(first.kind = .number ∧ second.kind = .number)) :
      Combines span left right .equal first second (.ok (.boolean (first.same second)))
  /-- Numbers are not equal if they differ by `1e-11` or more. -/
  | notEqualNumbers {one two : Float} :
      Combines span left right .notEqual (.number one) (.number two)
        (.ok (.boolean (decide (1e-11 ≤ (one - two).abs))))
  /-- Unless both are numbers, inequality is that of the values. -/
  | notEqualOthers {first second : Value}
      (others : ¬(first.kind = .number ∧ second.kind = .number)) :
      Combines span left right .notEqual first second (.ok (.boolean (!first.same second)))
  /-- An operator on two numbers. -/
  | numbers {operator : BinaryOperator} {one two : Float} {value : Value}
      (result : Calculates operator one two value) :
      Combines span left right operator (.number one) (.number two) (.ok value)
  /-- The left operand has to be a number. -/
  | leftNoNumber {operator : BinaryOperator} {first second : Value}
      (member : operator ∈ BinaryOperator.numeric) (other : first.kind ≠ .number) :
      Combines span left right operator first second
        (.error ⟨.mismatch .number (some first.kind), left.span⟩)
  /-- The right operand has to be a number, too. -/
  | rightNoNumber {operator : BinaryOperator} {one : Float} {second : Value}
      (member : operator ∈ BinaryOperator.numeric) (other : second.kind ≠ .number) :
      Combines span left right operator (.number one) second
        (.error ⟨.mismatch .number (some second.kind), right.span⟩)
  /-- An operator on two truth values. -/
  | booleans {operator : BinaryOperator} {one two truth : Bool}
      (result : Decides operator one two truth) :
      Combines span left right operator (.boolean one) (.boolean two) (.ok (.boolean truth))
  /-- The left operand has to be a truth value. -/
  | leftNoBoolean {operator : BinaryOperator} {first second : Value}
      (member : operator ∈ BinaryOperator.logical) (other : first.kind ≠ .boolean) :
      Combines span left right operator first second
        (.error ⟨.mismatch .boolean (some first.kind), left.span⟩)
  /-- The right operand has to be a truth value, too, whatever the left one is. -/
  | rightNoBoolean {operator : BinaryOperator} {one : Bool} {second : Value}
      (member : operator ∈ BinaryOperator.logical) (other : second.kind ≠ .boolean) :
      Combines span left right operator (.boolean one) second
        (.error ⟨.mismatch .boolean (some second.kind), right.span⟩)
  /-- An operator that the language does not have. -/
  | unknown {first second : Value} :
      Combines span left right .unknown first second
        (.error ⟨.unsupportedOperator BinaryOperator.unknown.symbol, span⟩)

/-- What an expression evaluates to. -/
inductive Evaluates (environment : Environment) : Expr → Except Failure Value → Prop where
  /-- A number stands for itself. -/
  | number {span : Span} {value : Float} :
      Evaluates environment (.number span value) (.ok (.number value))
  /-- A literal stands for the text between its quotes. -/
  | text {span : Span} {raw text : Bytes} (unquoted : Unquotes raw text) :
      Evaluates environment (.text span raw) (.ok (.text text))
  /-- A truth value stands for itself. -/
  | boolean {span : Span} {value : Bool} :
      Evaluates environment (.boolean span value) (.ok (.boolean value))
  /-- The nil value stands for itself. -/
  | nil {span : Span} : Evaluates environment (.nil span) (.ok .nil)
  /-- A name stands for the value that it is bound to. -/
  | name {span : Span} {word : Bytes} {value : Value} (bound : environment.get? word = some value) :
      Evaluates environment (.name span word) (.ok value)
  /-- A name that is not bound stands for nothing. -/
  | undeclared {span : Span} {word : Bytes} (unbound : environment.get? word = none) :
      Evaluates environment (.name span word) (.error ⟨.undeclared word, span⟩)
  /-- An operator is applied to the value of its operand. -/
  | unary {span : Span} {operator : UnaryOperator} {operand : Expr} {value : Value}
      {result : Except Failure Value} (inner : Evaluates environment operand (.ok value))
      (applied : Transforms span operand operator value result) :
      Evaluates environment (.unary span operator operand) result
  /-- An operand that fails. -/
  | unaryFails {span : Span} {operator : UnaryOperator} {operand : Expr} {failure : Failure}
      (inner : Evaluates environment operand (.error failure)) :
      Evaluates environment (.unary span operator operand) (.error failure)
  /-- An operator is applied to the values of both operands. -/
  | binary {span : Span} {operator : BinaryOperator} {left right : Expr} {first second : Value}
      {result : Except Failure Value} (one : Evaluates environment left (.ok first))
      (two : Evaluates environment right (.ok second))
      (applied : Combines span left right operator first second result) :
      Evaluates environment (.binary span operator left right) result
  /-- A left operand that fails. -/
  | leftFails {span : Span} {operator : BinaryOperator} {left right : Expr} {failure : Failure}
      (one : Evaluates environment left (.error failure)) :
      Evaluates environment (.binary span operator left right) (.error failure)
  /-- A right operand that fails behind a left one that has a value. -/
  | rightFails {span : Span} {operator : BinaryOperator} {left right : Expr} {first : Value}
      {failure : Failure} (one : Evaluates environment left (.ok first))
      (two : Evaluates environment right (.error failure)) :
      Evaluates environment (.binary span operator left right) (.error failure)
  /-- Parentheses change nothing. -/
  | paren {span : Span} {inner : Expr} {result : Except Failure Value}
      (inside : Evaluates environment inner result) :
      Evaluates environment (.paren span inner) result
  /-- A missing expression fails. -/
  | missing : Evaluates environment .missing (.error ⟨.missingExpression, .unset⟩)

/-- What testing a condition gives. -/
inductive Tests (environment : Environment) (condition : Expr) : Except Failure Bool → Prop where
  /-- A truth value. -/
  | truth {truth : Bool} (evaluated : Evaluates environment condition (.ok (.boolean truth))) :
      Tests environment condition (.ok truth)
  /-- A condition that fails. -/
  | fails {failure : Failure} (evaluated : Evaluates environment condition (.error failure)) :
      Tests environment condition (.error failure)
  /-- Any other value is no condition. -/
  | other {value : Value} (evaluated : Evaluates environment condition (.ok value))
      (other : value.kind ≠ .boolean) :
      Tests environment condition (.error ⟨.mismatch .boolean (some value.kind), condition.span⟩)

/-! ## Statements -/

/-- What can be observed of a run. -/
structure Observation where
  /-- The variables. -/
  environment : Environment
  /-- The lines on the console, in order. -/
  lines : List Bytes
  /-- The assignments, in order: name, binding before and new value. -/
  assignments : List (Bytes × Option Value × Value)

namespace Observation

/-- What is observed after a name is bound. -/
def bind (before : Observation) (name : Bytes) (value : Value) : Observation where
  environment := before.environment.set name value
  lines := before.lines
  assignments := before.assignments ++ [(name, before.environment.get? name, value)]

/-- What is observed after a line is written. -/
def print (before : Observation) (line : Bytes) : Observation :=
  { before with lines := before.lines ++ [line] }

end Observation

/-- How a statement ends. -/
inductive Ending where
  /-- With a value. -/
  | value (value : Value)
  /-- With a failure. -/
  | failure (failure : Failure)

namespace Ending

/-- The ending of a statement that drops the value of its block. -/
def voided : Ending → Ending
  | value _ => value .void
  | failure reason => failure reason

end Ending

/-- Decides whether a line is taken behind the lines that were written before. -/
abbrev Writer := List Bytes → Bytes → Bool

mutual

/-- How a statement runs. -/
inductive Runs (writer : Writer) : Stmt → Observation → Ending → Observation → Prop where
  /-- A name is bound, and the value is that of the statement. -/
  | assign {span : Span} {name : Bytes} {expr : Expr} {result : Value} {before : Observation}
      (evaluated : Evaluates before.environment expr (.ok result)) (valued : result ≠ .void) :
      Runs writer (.assign span name expr) before (.value result) (before.bind name result)
  /-- The expression fails, and nothing is bound. -/
  | assignFails {span : Span} {name : Bytes} {expr : Expr} {failure : Failure}
      {before : Observation} (evaluated : Evaluates before.environment expr (.error failure)) :
      Runs writer (.assign span name expr) before (.failure failure) before
  /-- The result of a statement without a value is never bound. -/
  | assignVoid {span : Span} {name : Bytes} {expr : Expr} {before : Observation}
      (evaluated : Evaluates before.environment expr (.ok .void)) :
      Runs writer (.assign span name expr) before (.failure ⟨.voidAssigned name, expr.span⟩) before
  /-- The display text is written as a line, and the value is that of the statement. -/
  | console {span : Span} {expr : Expr} {result : Value} {before : Observation}
      (evaluated : Evaluates before.environment expr (.ok result))
      (taken : writer before.lines result.display = true) :
      Runs writer (.console span expr) before (.value result) (before.print result.display)
  /-- The expression fails, and nothing is written. -/
  | consoleFails {span : Span} {expr : Expr} {failure : Failure} {before : Observation}
      (evaluated : Evaluates before.environment expr (.error failure)) :
      Runs writer (.console span expr) before (.failure failure) before
  /-- The line is refused. -/
  | consoleRefused {span : Span} {expr : Expr} {result : Value} {before : Observation}
      (evaluated : Evaluates before.environment expr (.ok result))
      (refused : writer before.lines result.display = false) :
      Runs writer (.console span expr) before (.failure ⟨.outputRefused, span⟩) before
  /-- A conditional runs one of its blocks. -/
  | conditional {span : Span} {branches : List Branch} {otherwise : Block} {ending : Ending}
      {before after : Observation}
      (chosen : RunsBranches writer branches otherwise before ending after) :
      Runs writer (.conditional span branches otherwise) before ending after
  /-- A loop runs its rounds. -/
  | loop {span : Span} {condition : Expr} {body : Block} {ending : Ending}
      {before after : Observation} (rounds : RunsLoop writer condition body before ending after) :
      Runs writer (.loop span condition body) before ending after
  /-- A block runs its statements. -/
  | block {span : Span} {stmts : List Stmt} {ending : Ending} {before after : Observation}
      (inside : RunsAll writer stmts before ending after) :
      Runs writer (.block span stmts) before ending after

/-- How statements run one after the other. -/
inductive RunsAll (writer : Writer) : List Stmt → Observation → Ending → Observation → Prop where
  /-- No statement has no value. -/
  | nil {before : Observation} : RunsAll writer [] before (.value .void) before
  /-- The last statement gives the value. -/
  | last {stmt : Stmt} {value : Value} {before after : Observation}
      (only : Runs writer stmt before (.value value) after) :
      RunsAll writer [stmt] before (.value value) after
  /-- Behind a statement with a value the others run, and its value is dropped. -/
  | cons {stmt next : Stmt} {rest : List Stmt} {value : Value} {ending : Ending}
      {before between after : Observation} (first : Runs writer stmt before (.value value) between)
      (others : RunsAll writer (next :: rest) between ending after) :
      RunsAll writer (stmt :: next :: rest) before ending after
  /-- Behind a statement that fails nothing runs. -/
  | fails {stmt : Stmt} {rest : List Stmt} {failure : Failure} {before after : Observation}
      (first : Runs writer stmt before (.failure failure) after) :
      RunsAll writer (stmt :: rest) before (.failure failure) after

/-- How the branches and the last block of a conditional run. -/
inductive RunsBranches (writer : Writer) :
    List Branch → Block → Observation → Ending → Observation → Prop where
  /-- The first branch whose condition holds runs, and no other. -/
  | taken {span : Span} {condition : Expr} {body otherwise : Block} {rest : List Branch}
      {ending : Ending} {before after : Observation}
      (holds : Tests before.environment condition (.ok true))
      (inside : RunsBlock writer body before ending after) :
      RunsBranches writer (.mk span condition body :: rest) otherwise before ending.voided after
  /-- A branch whose condition does not hold is passed over. -/
  | passed {span : Span} {condition : Expr} {body otherwise : Block} {rest : List Branch}
      {ending : Ending} {before after : Observation}
      (fails : Tests before.environment condition (.ok false))
      (others : RunsBranches writer rest otherwise before ending after) :
      RunsBranches writer (.mk span condition body :: rest) otherwise before ending after
  /-- A condition that fails. -/
  | fails {span : Span} {condition : Expr} {body otherwise : Block} {rest : List Branch}
      {failure : Failure} {before : Observation}
      (failed : Tests before.environment condition (.error failure)) :
      RunsBranches writer (.mk span condition body :: rest) otherwise before (.failure failure)
        before
  /-- The last block runs if no condition held. -/
  | otherwise {body : Block} {ending : Ending} {before after : Observation}
      (inside : RunsBlock writer body before ending after) :
      RunsBranches writer [] body before ending.voided after

/-- How a loop runs. -/
inductive RunsLoop (writer : Writer) :
    Expr → Block → Observation → Ending → Observation → Prop where
  /-- The condition does not hold. -/
  | done {condition : Expr} {body : Block} {before : Observation}
      (fails : Tests before.environment condition (.ok false)) :
      RunsLoop writer condition body before (.value .void) before
  /-- The condition holds, the body runs, and the loop runs again. -/
  | round {condition : Expr} {body : Block} {value : Value} {ending : Ending}
      {before between after : Observation} (holds : Tests before.environment condition (.ok true))
      (inside : RunsBlock writer body before (.value value) between)
      (again : RunsLoop writer condition body between ending after) :
      RunsLoop writer condition body before ending after
  /-- The body fails. -/
  | bodyFails {condition : Expr} {body : Block} {failure : Failure} {before after : Observation}
      (holds : Tests before.environment condition (.ok true))
      (inside : RunsBlock writer body before (.failure failure) after) :
      RunsLoop writer condition body before (.failure failure) after
  /-- The condition fails. -/
  | fails {condition : Expr} {body : Block} {failure : Failure} {before : Observation}
      (failed : Tests before.environment condition (.error failure)) :
      RunsLoop writer condition body before (.failure failure) before

/-- How the block of a branch or loop runs. -/
inductive RunsBlock (writer : Writer) : Block → Observation → Ending → Observation → Prop where
  /-- An absent block does nothing. -/
  | absent {before : Observation} : RunsBlock writer .absent before (.value .void) before
  /-- The statements of a block run. -/
  | present {span : Span} {stmts : List Stmt} {ending : Ending} {before after : Observation}
      (inside : RunsAll writer stmts before ending after) :
      RunsBlock writer (.present span stmts) before ending after

end

/-- How any part of a program runs. -/
inductive RunsNode (writer : Writer) : Node → Observation → Ending → Observation → Prop where
  /-- A program runs its statements. -/
  | program {program : Program} {ending : Ending} {before after : Observation}
      (inside : RunsAll writer program.stmts before ending after) :
      RunsNode writer (.program program) before ending after
  /-- A statement. -/
  | stmt {stmt : Stmt} {ending : Ending} {before after : Observation}
      (single : Runs writer stmt before ending after) :
      RunsNode writer (.stmt stmt) before ending after
  /-- An expression changes nothing. -/
  | expr {expr : Expr} {value : Value} {before : Observation}
      (evaluated : Evaluates before.environment expr (.ok value)) :
      RunsNode writer (.expr expr) before (.value value) before
  /-- An expression that fails changes nothing, either. -/
  | exprFails {expr : Expr} {failure : Failure} {before : Observation}
      (evaluated : Evaluates before.environment expr (.error failure)) :
      RunsNode writer (.expr expr) before (.failure failure) before
  /-- A missing node fails. -/
  | missing {before : Observation} :
      RunsNode writer .missing before (.failure ⟨.missingNode, .unset⟩) before

end ConsoleScript
