import ConsoleScript.Evaluation.Statement
import ConsoleScript.Proofs.StatementGrammar

/-! # Evaluation ignores places and parentheses

A tree without its places and parentheses runs as the tree does, except for the places that are
reported, and whatever happened before a run stays in front of its trace.

* **`Expr.plain`**, **`Stmt.plain`** — a tree without places and parentheses;
* **`Outcome.plain`** — an outcome without the places in its trace and its failure, upon an earlier
  trace;
* **`Stmt.run_plain`**, **`runAll_plain`** — running a plain tree upon an earlier trace gives the
  plain outcome upon that trace, for every console that looks neither at places nor at earlier
  events. -/

namespace ConsoleScript

/-! ## Plain trees -/

/-- An expression without places and parentheses. -/
def Expr.plain : Expr → Expr
  | .number _ value => .number .unset value
  | .text _ raw => .text .unset raw
  | .boolean _ value => .boolean .unset value
  | .nil _ => .nil .unset
  | .name _ word => .name .unset word
  | .unary _ operator operand => .unary .unset operator operand.plain
  | .binary _ operator left right => .binary .unset operator left.plain right.plain
  | .paren _ inner => inner.plain
  | .missing => .missing

mutual

/-- A statement without places and parentheses. -/
def Stmt.plain : Stmt → Stmt
  | .assign _ name value => .assign .unset name value.plain
  | .console _ value => .console .unset value.plain
  | .conditional _ branches otherwise =>
    .conditional .unset (plainBranches branches) otherwise.plain
  | .loop _ condition body => .loop .unset condition.plain body.plain
  | .block _ stmts => .block .unset (plainStmts stmts)

/-- Statements without places and parentheses. -/
def plainStmts : List Stmt → List Stmt
  | [] => []
  | stmt :: rest => stmt.plain :: plainStmts rest

/-- Branches without places and parentheses. -/
def plainBranches : List Branch → List Branch
  | [] => []
  | .mk _ condition body :: rest => .mk .unset condition.plain body.plain :: plainBranches rest

/-- A block without places and parentheses. -/
def Block.plain : Block → Block
  | .absent => .absent
  | .present _ stmts => .present .unset (plainStmts stmts)

end

/-- Places do not matter to the plain form of an expression. -/
theorem Expr.plain_bare (expr : Expr) : expr.bare.plain = expr.plain := by
  induction expr with
  | number | text | boolean | nil | name | missing => rfl
  | unary _ _ _ operand => simp only [bare, plain, operand]
  | binary _ _ _ _ left right => simp only [bare, plain, left, right]
  | paren _ _ inner => simp only [bare, plain, inner]

mutual

/-- Places do not matter to the plain form of a statement. -/
theorem Stmt.plain_bare : (stmt : Stmt) → stmt.bare.plain = stmt.plain
  | .assign _ _ value => by simp only [Stmt.bare, Stmt.plain, value.plain_bare]
  | .console _ value => by simp only [Stmt.bare, Stmt.plain, value.plain_bare]
  | .conditional _ branches otherwise => by
    simp only [Stmt.bare, Stmt.plain, plainBranches_bare branches, otherwise.plain_bare]
  | .loop _ condition body => by
    simp only [Stmt.bare, Stmt.plain, condition.plain_bare, body.plain_bare]
  | .block _ stmts => by simp only [Stmt.bare, Stmt.plain, plainStmts_bare stmts]

/-- Places do not matter to the plain form of statements. -/
theorem plainStmts_bare : (stmts : List Stmt) → plainStmts (bareStmts stmts) = plainStmts stmts
  | [] => rfl
  | stmt :: rest => by simp only [bareStmts, plainStmts, stmt.plain_bare, plainStmts_bare rest]

/-- Places do not matter to the plain form of branches. -/
theorem plainBranches_bare :
    (branches : List Branch) → plainBranches (bareBranches branches) = plainBranches branches
  | [] => rfl
  | .mk _ condition body :: rest => by
    simp only [bareBranches, plainBranches, condition.plain_bare, body.plain_bare,
      plainBranches_bare rest]

/-- Places do not matter to the plain form of a block. -/
theorem Block.plain_bare : (body : Block) → body.bare.plain = body.plain
  | .absent => rfl
  | .present _ stmts => by simp only [Block.bare, Block.plain, plainStmts_bare stmts]

end

/-- Statements that differ in places only have the same plain form. -/
theorem plainStmts_congr {stmts others : List Stmt} (same : bareStmts stmts = bareStmts others) :
    plainStmts stmts = plainStmts others := by
  rw [← plainStmts_bare stmts, same, plainStmts_bare]

theorem plainStmts_append (stmts more : List Stmt) :
    plainStmts (stmts ++ more) = plainStmts stmts ++ plainStmts more := by
  induction stmts with
  | nil => rfl
  | cons stmt stmts ih => simp only [List.cons_append, plainStmts, ih]

/-! ## Plain outcomes -/

/-- A failure without its place. -/
def Failure.plain (failure : Failure) : Failure :=
  ⟨failure.fault, .unset⟩

/-- An event without its place. -/
def Event.plain : Event → Event
  | .branchTaken index _ => .branchTaken index .unset
  | .otherwiseTaken _ => .otherwiseTaken .unset
  | .loopFinished rounds _ => .loopFinished rounds .unset
  | event => event

/-- A state without the places in its trace, upon an earlier trace. -/
def State.plain (past : List Event) (state : State) : State :=
  ⟨state.environment, state.trace.map Event.plain ++ past⟩

/-- An outcome without the places in its trace and its failure, upon an earlier trace. -/
def Outcome.plain {α : Type} (past : List Event) : Outcome α → Outcome α
  | .done value state => .done value (state.plain past)
  | .failed failure state => .failed failure.plain (state.plain past)
  | .unfinished => .unfinished

@[simp] theorem Event.line?_plain (event : Event) : event.plain.line? = event.line? := by
  cases event <;> rfl

@[simp] theorem State.environment_plain (past : List Event) (state : State) :
    (state.plain past).environment = state.environment := rfl

/-- What a state wrote comes behind what was written earlier. -/
theorem State.output_plain (past : List Event) (state : State) :
    (state.plain past).output = (State.mk state.environment past).output ++ state.output := by
  have same : Event.line? ∘ Event.plain = Event.line? := by
    funext event
    exact event.line?_plain
  have written : (state.trace.map Event.plain).reverse.filterMap Event.line? = state.lines := by
    rw [← List.map_reverse, List.filterMap_map, same]
    rfl
  show Bytes.unlines ((state.trace.map Event.plain ++ past).reverse.filterMap Event.line?) = _
  rw [List.reverse_append, List.filterMap_append, written, Bytes.unlines_append]
  rfl

/-- An outcome whose plain form is a result is one. -/
theorem Outcome.eq_done_of_plain {α : Type} {past : List Event} {outcome : Outcome α} {value : α}
    {state : State} (same : outcome.plain past = .done value state) :
    ∃ full, outcome = .done value full ∧ full.plain past = state := by
  cases outcome with
  | done result full =>
    obtain ⟨rfl, rfl⟩ := Outcome.done.inj same
    exact ⟨full, rfl, rfl⟩
  | failed failure full => cases same
  | unfinished => cases same

/-- An outcome whose plain form is a failure is one. -/
theorem Outcome.eq_failed_of_plain {α : Type} {past : List Event} {outcome : Outcome α}
    {failure : Failure} {state : State} (same : outcome.plain past = .failed failure state) :
    ∃ reason full, outcome = .failed reason full ∧ reason.plain = failure ∧
      full.plain past = state := by
  cases outcome with
  | done value full => cases same
  | failed reason full =>
    obtain ⟨rfl, rfl⟩ := Outcome.failed.inj same
    exact ⟨reason, full, rfl, rfl, rfl⟩
  | unfinished => cases same

/-- Going on after a plain outcome gives the plain form of what comes, if it does so after every
result. -/
theorem Outcome.andThen_plain {α β : Type} {past : List Event} {outcome : Outcome α}
    {next bare : α → State → Outcome β}
    (same : ∀ value state, bare value (state.plain past) = (next value state).plain past) :
    (outcome.plain past).andThen bare = (outcome.andThen next).plain past := by
  cases outcome with
  | done value state => exact same value state
  | failed failure state => rfl
  | unfinished => rfl

/-! ## Expressions -/

namespace Expr

theorem span_plain (expr : Expr) : expr.plain.span = .unset := by
  induction expr with
  | number | text | boolean | nil | name | unary | binary | missing => rfl
  | paren _ _ inner => exact inner

theorem applyUnary_plain (span : Span) (operator : UnaryOperator) (operand : Expr) (value : Value) :
    applyUnary .unset operator operand.plain value
      = (applyUnary span operator operand value).mapError Failure.plain := by
  cases operator with
  | negate | invert =>
    simp only [applyUnary, span_plain]
    cases value <;> rfl
  | unknown => rfl

theorem applyBinary_plain (span : Span) (operator : BinaryOperator) (left right : Expr)
    (first second : Value) :
    applyBinary .unset operator left.plain right.plain first second
      = (applyBinary span operator left right first second).mapError Failure.plain := by
  unfold applyBinary
  cases operator.demand with
  | anything apply => rfl
  | booleans apply =>
    simp only [span_plain]
    cases first <;> cases second <;> rfl
  | numbers apply =>
    simp only [span_plain]
    cases first <;> cases second <;> rfl
  | nothing => rfl

/-- The plain form of an expression has the same value, and fails for the same reason. -/
theorem evaluate_plain (environment : Environment) (expr : Expr) :
    expr.plain.evaluate environment = (expr.evaluate environment).mapError Failure.plain := by
  induction expr with
  | number | text | boolean | nil | missing => rfl
  | name span word =>
    rw [plain, evaluate, evaluate]
    cases environment.get? word <;> rfl
  | unary span operator operand inner =>
    rw [plain, evaluate, evaluate, inner]
    cases operand.evaluate environment with
    | error failure => rfl
    | ok value => exact applyUnary_plain span operator operand value
  | binary span operator left right one two =>
    rw [plain, evaluate, evaluate, one, two]
    cases left.evaluate environment with
    | error failure => rfl
    | ok first =>
      cases right.evaluate environment with
      | error failure => rfl
      | ok second => exact applyBinary_plain span operator left right first second
  | paren span inner inside => exact inside

/-- The plain form of a condition has the same truth, and fails for the same reason. -/
theorem holds_plain (environment : Environment) (condition : Expr) :
    condition.plain.holds environment = (condition.holds environment).mapError Failure.plain := by
  rw [holds, holds, evaluate_plain, span_plain]
  cases condition.evaluate environment with
  | error failure => rfl
  | ok value => cases value <;> rfl

end Expr

/-! ## Statements -/

namespace Console

/-- A console that looks neither at places nor at what was earlier. -/
def Ignores (past : List Event) (console : Console) : Prop :=
  ∀ trace line, console (trace.map Event.plain ++ past) line = console trace line

theorem unlimited_ignores (past : List Event) : unlimited.Ignores past :=
  fun _ _ => rfl

end Console

section Statements

variable {past : List Event} {console : Console} (ignores : console.Ignores past) (fuel : Nat)

/-- A loop whose condition and body have plain forms runs in its plain form. -/
theorem repeatWhile_plain {condition bareCondition : State → Except Failure Bool}
    {body bareBody : State → Outcome Value}
    (tests : ∀ state, bareCondition (state.plain past) = (condition state).mapError Failure.plain)
    (runs : ∀ state, bareBody (state.plain past) = (body state).plain past) (rounds : Nat)
    (state : State) :
    repeatWhile fuel bareCondition bareBody rounds (state.plain past)
      = (repeatWhile fuel condition body rounds state).plain past := by
  induction fuel generalizing rounds state with
  | zero => rfl
  | succ fuel ih =>
    cases tested : condition state with
    | error failure => rw [repeatWhile, repeatWhile, tests, tested]; rfl
    | ok truth =>
      have bareTested : bareCondition (state.plain past) = .ok truth := by
        rw [tests, tested]
        rfl
      rw [repeatWhile, repeatWhile, bareTested, tested]
      cases truth with
      | false => rfl
      | true =>
        -- After a round the body's plain outcome decides, and the rest follows by induction.
        simp only [runs]
        cases body state with
        | done value next => exact ih (rounds + 1) next
        | failed failure next => rfl
        | unfinished => rfl

theorem runAssignment_plain (name : Bytes) (value : Expr) (state : State) :
    (state.plain past).runAssignment name value.plain
      = (state.runAssignment name value).plain past := by
  rw [State.runAssignment, State.runAssignment, State.environment_plain, value.evaluate_plain,
    value.span_plain]
  cases value.evaluate state.environment with
  | error failure => rfl
  | ok result => cases result <;> rfl

include ignores in
theorem runConsole_plain (span : Span) (value : Expr) (state : State) :
    (state.plain past).runConsole console .unset value.plain
      = (state.runConsole console span value).plain past := by
  rw [State.runConsole, State.runConsole, State.environment_plain, value.evaluate_plain]
  cases value.evaluate state.environment with
  | error failure => rfl
  | ok result =>
    -- The console takes a line upon the earlier trace exactly if it takes it without.
    have same : console (state.plain past).trace result.display
        = console state.trace result.display := ignores state.trace result.display
    show (if console (state.plain past).trace result.display then _ else _) = _
    rw [same]
    by_cases taken : console state.trace result.display = true
    · simp only [taken, if_true]
      rfl
    · simp only [taken]
      rfl

end Statements

mutual

/-- The plain form of a statement runs to the plain outcome. -/
theorem Stmt.run_plain {past : List Event} {console : Console} (ignores : console.Ignores past)
    (fuel : Nat) : (stmt : Stmt) → (state : State) →
      stmt.plain.run fuel console (state.plain past) = (stmt.run fuel console state).plain past
  | .assign _ name value, state => by
    rw [Stmt.plain, Stmt.run, Stmt.run]
    exact runAssignment_plain name value state
  | .console span value, state => by
    rw [Stmt.plain, Stmt.run, Stmt.run]
    exact runConsole_plain ignores span value state
  | .conditional _ branches otherwise, state => by
    rw [Stmt.plain, Stmt.run, Stmt.run, runBranches_plain ignores fuel branches 0 state]
    refine Outcome.andThen_plain fun taken after => ?_
    -- Only if no branch was taken, the last block runs.
    cases taken with
    | false => exact runOtherwise_plain ignores fuel otherwise after
    | true => rfl
  | .loop span condition body, state => by
    rw [Stmt.plain, Stmt.run, Stmt.run,
      repeatWhile_plain fuel (fun now => condition.holds_plain now.environment)
        (body.run_plain ignores fuel) 0 state]
    exact Outcome.andThen_plain fun rounds after => rfl
  | .block _ stmts, state => by
    rw [Stmt.plain, Stmt.run, Stmt.run]
    exact runAll_plain ignores fuel stmts .void state

/-- The plain form of statements runs to the plain outcome. -/
theorem runAll_plain {past : List Event} {console : Console} (ignores : console.Ignores past)
    (fuel : Nat) : (stmts : List Stmt) → (result : Value) → (state : State) →
      runAll fuel console (plainStmts stmts) result (state.plain past)
        = (runAll fuel console stmts result state).plain past
  | [], result, state => by rw [plainStmts, runAll, runAll]; rfl
  | stmt :: rest, result, state => by
    rw [plainStmts, runAll, runAll, stmt.run_plain ignores fuel state]
    exact Outcome.andThen_plain fun value after => runAll_plain ignores fuel rest value after

/-- The plain form of branches runs to the plain outcome. -/
theorem runBranches_plain {past : List Event} {console : Console} (ignores : console.Ignores past)
    (fuel : Nat) : (branches : List Branch) → (index : Nat) → (state : State) →
      runBranches fuel console (plainBranches branches) index (state.plain past)
        = (runBranches fuel console branches index state).plain past
  | [], index, state => by rw [plainBranches, runBranches, runBranches]; rfl
  | .mk span condition body :: rest, index, state => by
    rw [plainBranches, runBranches, runBranches, State.environment_plain, condition.holds_plain]
    cases condition.holds state.environment with
    | error failure => rfl
    | ok truth =>
      cases truth with
      | false => exact runBranches_plain ignores fuel rest (index + 1) state
      | true =>
        show (body.plain.run fuel console
          ((state.record (.branchTaken index span.start)).plain past)).andThen _ = _
        rw [body.run_plain ignores fuel]
        exact Outcome.andThen_plain fun value after => rfl

/-- The plain form of a last block runs to the plain outcome. -/
theorem runOtherwise_plain {past : List Event} {console : Console} (ignores : console.Ignores past)
    (fuel : Nat) : (otherwise : Block) → (state : State) →
      runOtherwise fuel console otherwise.plain (state.plain past)
        = (runOtherwise fuel console otherwise state).plain past
  | .absent, state => by rw [Block.plain, runOtherwise, runOtherwise]; rfl
  | .present span stmts, state => by
    rw [Block.plain, runOtherwise, runOtherwise]
    show (runAll fuel console (plainStmts stmts) .void
      ((state.record (.otherwiseTaken span.start)).plain past)).andThen _ = _
    rw [runAll_plain ignores fuel stmts]
    exact Outcome.andThen_plain fun value after => rfl

/-- The plain form of a block runs to the plain outcome. -/
theorem Block.run_plain {past : List Event} {console : Console} (ignores : console.Ignores past)
    (fuel : Nat) : (body : Block) → (state : State) →
      body.plain.run fuel console (state.plain past) = (body.run fuel console state).plain past
  | .absent, state => by rw [Block.plain, Block.run, Block.run]; rfl
  | .present _ stmts, state => by
    rw [Block.plain, Block.run, Block.run]
    exact runAll_plain ignores fuel stmts .void state

end

end ConsoleScript
