import ConsoleScript.Evaluation.Expression
import ConsoleScript.Evaluation.Trace

/-! # Running statements

Statements run one after the other on one state; a failure ends everything. A sequence gives the
value of its last statement, conditionals and loops give `void`.

Programs need not end, so every run is given a number of rounds that each of its loops may take;
`Outcome.unfinished` says that this was not enough. -/

namespace ConsoleScript

/-- Runs `body` as long as `condition` holds, for at most `fuel` tests of the condition, and gives
the number of rounds, counted from `rounds`. -/
def repeatWhile (fuel : Nat) (condition : State → Except Failure Bool)
    (body : State → Outcome Value) (rounds : Nat) (state : State) : Outcome Nat :=
  match fuel with
  | 0 => .unfinished
  | fuel + 1 =>
    match condition state with
    | .error failure => .failed failure state
    | .ok false => .done rounds state
    | .ok true =>
      match body state with
      | .done _ next => repeatWhile fuel condition body (rounds + 1) next
      | .failed failure next => .failed failure next
      | .unfinished => .unfinished

namespace State

/-- Binds a name to the value of an expression. -/
def runAssignment (name : Bytes) (value : Expr) (state : State) : Outcome Value :=
  match value.evaluate state.environment with
  | .error failure => .failed failure state
  | .ok .void => .failed ⟨.voidAssigned name, value.span⟩ state
  | .ok result => .done result (state.assign name result)

/-- Writes the value of an expression to the console. -/
def runConsole (console : Console) (span : Span) (value : Expr) (state : State) : Outcome Value :=
  match value.evaluate state.environment with
  | .error failure => .failed failure state
  | .ok result =>
    if console state.trace result.display then
      .done result (state.record (.printed result.display))
    else .failed ⟨.outputRefused, span⟩ state

end State

mutual

/-- Runs a statement. -/
def Stmt.run (fuel : Nat) (console : Console) : Stmt → State → Outcome Value
  | .assign _ name value, state => state.runAssignment name value
  | .console span value, state => state.runConsole console span value
  | .conditional _ branches otherwise, state =>
    (runBranches fuel console branches 0 state).andThen fun taken after =>
      if taken then .done .void after else runOtherwise fuel console otherwise after
  | .loop span condition body, state =>
    (repeatWhile fuel (fun now => condition.holds now.environment) (body.run fuel console) 0
      state).andThen fun rounds after =>
        .done .void (after.record (.loopFinished rounds span.start))
  | .block _ stmts, state => runAll fuel console stmts .void state

/-- Runs statements in order; `result` is the value of the last statement before them. -/
def runAll (fuel : Nat) (console : Console) : List Stmt → Value → State → Outcome Value
  | [], result, state => .done result state
  | stmt :: rest, _, state =>
    (stmt.run fuel console state).andThen fun value after => runAll fuel console rest value after

/-- Runs the first branch whose condition holds, the branches being counted from `index`, and tells
whether there was one. -/
def runBranches (fuel : Nat) (console : Console) : List Branch → Nat → State → Outcome Bool
  | [], _, state => .done false state
  | .mk span condition body :: rest, index, state =>
    match condition.holds state.environment with
    | .error failure => .failed failure state
    | .ok true =>
      (body.run fuel console (state.record (.branchTaken index span.start))).andThen
        fun _ after => .done true after
    | .ok false => runBranches fuel console rest (index + 1) state

/-- Runs the last block of a conditional, if it has one. -/
def runOtherwise (fuel : Nat) (console : Console) : Block → State → Outcome Value
  | .absent, state => .done .void state
  | .present span stmts, state =>
    (runAll fuel console stmts .void (state.record (.otherwiseTaken span.start))).andThen
      fun _ after => .done .void after

/-- Runs a block; an absent one does nothing. -/
def Block.run (fuel : Nat) (console : Console) : Block → State → Outcome Value
  | .absent, state => .done .void state
  | .present _ stmts, state => runAll fuel console stmts .void state

end

namespace Program

/-- Runs a program. -/
def run (fuel : Nat) (console : Console) (program : Program) (state : State) : Outcome Value :=
  runAll fuel console program.stmts .void state

end Program

namespace Node

/-- Evaluates any part of a program. -/
def run (fuel : Nat) (console : Console) (node : Node) (state : State) : Outcome Value :=
  match node with
  | program whole => whole.run fuel console state
  | stmt single => single.run fuel console state
  | expr single => .ofExcept state (single.evaluate state.environment)
  | missing => .failed ⟨.missingNode, .unset⟩ state

end Node

end ConsoleScript
