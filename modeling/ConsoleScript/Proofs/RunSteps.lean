import ConsoleScript.Proofs.RunFailures

/-! # Runs step by step

Whatever tree is run, well-formed or not, the state only ever changes in three ways: a name is
bound, a line is written, or a note about the control flow is made. What holds before a run and
survives each of these holds behind it.

* **`State.Step`** — one such change, with the statement that makes it;
* **`Failure.Arises`** — a failure, with the statement and the state in which it comes up;
* **`Stmt.follows`** — every run is a sequence of steps, and a failure arises where they end: case
  by case over the tree and, for loops, round by round;
* **`Evaluates.valued`** — no expression has the value `void` unless a name is bound to it.

`void_never_bound` puts these together: `void` stays out of the variables and the assignments. -/

namespace ConsoleScript

open Relation (ReflTransGen)

/-! ## Steps -/

/-- The statements in a part of a program. -/
def Node.parts : Node → List Stmt
  | .program whole => stmtParts whole.stmts
  | .stmt single => single.parts
  | .expr _ => []
  | .missing => []

/-- What the statements `parts` can do to a state at a time. -/
inductive State.Step (parts : List Stmt) (console : Console) (state : State) : State → Prop where
  /-- A name is bound to the value of an expression. -/
  | assigned {span : Span} {name : Bytes} {expr : Expr} {value : Value}
      (inside : .assign span name expr ∈ parts)
      (evaluated : expr.evaluate state.environment = .ok value) (valued : value ≠ .void) :
      Step parts console state (state.assign name value)
  /-- The display text of a value is written, and the console takes it. -/
  | printed {span : Span} {expr : Expr} {value : Value} (inside : .console span expr ∈ parts)
      (evaluated : expr.evaluate state.environment = .ok value)
      (taken : console state.trace value.display = true) :
      Step parts console state (state.record (.printed value.display))
  /-- Something about the control flow is noted. -/
  | noted {event : Event} (no_line : event.line? = none) (no_binding : event.assignment? = none) :
      Step parts console state (state.record event)

/-- What every step keeps is kept by every sequence of steps. -/
theorem State.kept_of_steps {parts : List Stmt} {console : Console} {kept : State → Prop}
    (step : ∀ now next, kept now → Step parts console now next → kept next) {state after : State}
    (steps : ReflTransGen (Step parts console) state after) (holds : kept state) : kept after := by
  induction steps with
  | refl => exact holds
  | tail _ last ih => exact step _ _ ih last

/-- A failure of the statements `parts` in a state. -/
inductive Failure.Arises (parts : List Stmt) (console : Console) (state : State) :
    Failure → Prop where
  /-- An expression has no value. -/
  | expression {stmt : Stmt} {expr : Expr} {failure : Failure} (inside : stmt ∈ parts)
      (stands : expr ∈ stmt.exprs)
      (evaluated : expr.evaluate state.environment = .error failure) :
      Arises parts console state failure
  /-- A condition has no truth value. -/
  | condition {stmt : Stmt} {condition : Expr} {failure : Failure} (inside : stmt ∈ parts)
      (tested : condition ∈ stmt.conditions)
      (fails : condition.holds state.environment = .error failure) :
      Arises parts console state failure
  /-- The value to be bound is `void`. -/
  | voidAssigned {span : Span} {name : Bytes} {expr : Expr}
      (inside : .assign span name expr ∈ parts)
      (evaluated : expr.evaluate state.environment = .ok .void) :
      Arises parts console state ⟨.voidAssigned name, expr.span⟩
  /-- The console refuses a line. -/
  | refused {span : Span} {expr : Expr} {value : Value} (inside : .console span expr ∈ parts)
      (evaluated : expr.evaluate state.environment = .ok value)
      (refuses : console state.trace value.display = false) :
      Arises parts console state ⟨.outputRefused, span⟩

namespace Outcome

/-- A run from a state is a sequence of steps; if it fails, the failure arises where they end. -/
def Follows {α : Type} (parts : List Stmt) (console : Console) (state : State) : Outcome α → Prop
  | done _ after => ReflTransGen (State.Step parts console) state after
  | failed failure after =>
    ReflTransGen (State.Step parts console) state after ∧ failure.Arises parts console after
  | unfinished => True

namespace Follows

variable {α β : Type} {parts : List Stmt} {console : Console} {state between : State}

/-- Steps may be put before a run. -/
theorem prepend {outcome : Outcome α}
    (steps : ReflTransGen (State.Step parts console) state between)
    (later : outcome.Follows parts console between) : outcome.Follows parts console state := by
  cases outcome with
  | done value after => exact steps.trans later
  | failed failure after => exact ⟨steps.trans later.1, later.2⟩
  | unfinished => trivial

/-- A run may go on where another one ended. -/
theorem andThen {outcome : Outcome α} {next : α → State → Outcome β}
    (first : outcome.Follows parts console state)
    (second : ∀ value after, (next value after).Follows parts console after) :
    (outcome.andThen next).Follows parts console state := by
  cases outcome with
  | done value after => exact (second value after).prepend first
  | failed failure after => exact first
  | unfinished => trivial

/-- The steps of a run that ended. -/
theorem steps {outcome : Outcome α} {after : State}
    (follows : outcome.Follows parts console state) (ends : outcome.state? = some after) :
    ReflTransGen (State.Step parts console) state after := by
  cases outcome with
  | done value last =>
    obtain rfl := Option.some.inj ends
    exact follows
  | failed failure last =>
    obtain rfl := Option.some.inj ends
    exact follows.1
  | unfinished => cases ends

end Follows

end Outcome

section Run

variable {parts : List Stmt} {fuel : Nat} {console : Console}

/-- An assignment is a step, or fails. -/
theorem follows_assign {span : Span} {name : Bytes} {value : Expr} (state : State)
    (inside : .assign span name value ∈ parts) :
    (state.runAssignment name value).Follows parts console state := by
  rw [State.runAssignment]
  cases result : value.evaluate state.environment with
  | error failure => exact ⟨.refl, .expression inside List.mem_cons_self result⟩
  | ok found =>
    cases found with
    | void => exact ⟨.refl, .voidAssigned inside result⟩
    | number | text | boolean | nil =>
      exact .single (.assigned inside result (fun same => by cases same))

/-- A console statement is a step, or fails. -/
theorem follows_console {span : Span} {value : Expr} (state : State)
    (inside : .console span value ∈ parts) :
    (state.runConsole console span value).Follows parts console state := by
  rw [State.runConsole]
  cases result : value.evaluate state.environment with
  | error failure => exact ⟨.refl, .expression inside List.mem_cons_self result⟩
  | ok found =>
    dsimp only
    split
    · rename_i taken
      exact .single (.printed inside result taken)
    · rename_i refuses
      exact ⟨.refl, .refused inside result (Bool.not_eq_true _ ▸ refuses)⟩

/-- A loop is a sequence of steps, whatever the number of its rounds, if one run of its body is. -/
theorem follows_repeatWhile {stmt : Stmt} {condition : Expr} {body : State → Outcome Value}
    (inside : stmt ∈ parts) (tested : condition ∈ stmt.conditions)
    (round : ∀ state, (body state).Follows parts console state) (rounds : Nat) (state : State) :
    (repeatWhile fuel (fun now => condition.holds now.environment) body rounds state).Follows parts
      console state := by
  induction fuel generalizing rounds state with
  | zero => trivial
  | succ fuel ih =>
    rw [repeatWhile]
    cases holds : condition.holds state.environment with
    | error failure => exact ⟨.refl, .condition inside tested holds⟩
    | ok truth =>
      cases truth with
      | false => exact .refl
      | true =>
        have once := round state
        dsimp only
        cases ran : body state with
        | done value next =>
          rw [ran] at once
          exact (ih (rounds + 1) next).prepend once
        | failed failure next =>
          rw [ran] at once
          exact once
        | unfinished => trivial

mutual

/-- Every run of a statement is a sequence of steps. -/
theorem Stmt.follows : (stmt : Stmt) → stmt.parts ⊆ parts → ∀ state : State,
    (stmt.run fuel console state).Follows parts console state
  | .assign _ _ _, inside, state => by
    rw [Stmt.run]
    exact follows_assign state (inside List.mem_cons_self)
  | .console _ _, inside, state => by
    rw [Stmt.run]
    exact follows_console state (inside List.mem_cons_self)
  | .conditional span branches otherwise, inside, state => by
    obtain ⟨here, nested⟩ := List.cons_subset.1 inside
    obtain ⟨in_branches, in_otherwise⟩ := List.append_subset.1 nested
    have chosen := followsBranches branches here (fun _ member => member) in_branches 0 state
    rw [Stmt.run]
    refine chosen.andThen ?_
    intro taken after
    cases taken with
    | true => exact .refl
    | false => exact otherwise.followsLast in_otherwise after
  | .loop span condition body, inside, state => by
    obtain ⟨here, nested⟩ := List.cons_subset.1 inside
    rw [Stmt.run]
    refine (follows_repeatWhile here List.mem_cons_self (body.follows nested) 0 state).andThen ?_
    intro rounds after
    exact .single (.noted rfl rfl)
  | .block _ stmts, inside, state => by
    rw [Stmt.run]
    exact followsAll stmts (List.cons_subset.1 inside).2 .void state

/-- Every run of statements is a sequence of steps. -/
theorem followsAll : (stmts : List Stmt) → stmtParts stmts ⊆ parts →
    ∀ (result : Value) (state : State),
      (runAll fuel console stmts result state).Follows parts console state
  | [], _, _, _ => by
    rw [runAll]
    exact .refl
  | stmt :: stmts, inside, _, state => by
    obtain ⟨in_first, in_others⟩ := List.append_subset.1 inside
    rw [runAll]
    exact (stmt.follows in_first state).andThen (followsAll stmts in_others)

/-- Every run of the branches of a conditional is a sequence of steps. -/
theorem followsBranches {owner : Stmt} : (branches : List Branch) → owner ∈ parts →
    branches.map Branch.condition ⊆ owner.conditions → branchParts branches ⊆ parts →
    ∀ (index : Nat) (state : State),
      (runBranches fuel console branches index state).Follows parts console state
  | [], _, _, _, _, _ => by
    rw [runBranches]
    exact .refl
  | .mk span condition body :: branches, owned, tested, inside, index, state => by
    obtain ⟨here, others⟩ := List.cons_subset.1 tested
    obtain ⟨in_body, in_others⟩ := List.append_subset.1 inside
    rw [runBranches]
    cases holds : condition.holds state.environment with
    | error failure => exact ⟨.refl, .condition owned here holds⟩
    | ok truth =>
      cases truth with
      | true =>
        -- The note that the branch is taken is a step of its own, before those of the body.
        have noted : State.Step parts console state
            (state.record (.branchTaken index span.start)) := .noted rfl rfl
        refine (((body.follows in_body _).prepend (.single noted)).andThen ?_)
        intro _ _
        exact .refl
      | false => exact followsBranches branches owned others in_others (index + 1) state

/-- Every run of the last block of a conditional is a sequence of steps. -/
theorem Block.followsLast : (body : Block) → body.parts ⊆ parts → ∀ state : State,
    (runOtherwise fuel console body state).Follows parts console state
  | .absent, _, _ => by
    rw [runOtherwise]
    exact .refl
  | .present span stmts, inside, state => by
    have noted : State.Step parts console state
        (state.record (.otherwiseTaken span.start)) := .noted rfl rfl
    rw [runOtherwise]
    refine ((followsAll stmts inside .void _).prepend (.single noted)).andThen ?_
    intro _ _
    exact .refl

/-- Every run of a block is a sequence of steps. -/
theorem Block.follows : (body : Block) → body.parts ⊆ parts → ∀ state : State,
    (body.run fuel console state).Follows parts console state
  | .absent, _, _ => by
    rw [Block.run]
    exact .refl
  | .present _ stmts, inside, state => by
    rw [Block.run]
    exact followsAll stmts inside .void state

end

/-- Whatever part of a program is run, the state is changed by steps of its statements only. -/
theorem Node.steps (node : Node) {state after : State}
    (ends : (node.run fuel console state).state? = some after) :
    ReflTransGen (State.Step node.parts console) state after := by
  cases node with
  | program whole => exact (followsAll whole.stmts (List.Subset.refl _) .void state).steps ends
  | stmt single => exact (single.follows (List.Subset.refl _) state).steps ends
  | expr single =>
    rw [run] at ends
    cases result : single.evaluate state.environment with
    | ok value =>
      rw [result] at ends
      obtain rfl := Option.some.inj ends
      exact .refl
    | error failure =>
      rw [result] at ends
      obtain rfl := Option.some.inj ends
      exact .refl
  | missing =>
    obtain rfl := Option.some.inj ends
    exact .refl

/-- Whatever part of a program fails, one of its statements does, or it is an expression without a
value, or nothing at all. -/
theorem Node.arises (node : Node) {state after : State} {failure : Failure}
    (fails : node.run fuel console state = .failed failure after) :
    failure.Arises node.parts console after ∨
      (∃ expr, node = .expr expr ∧ expr.evaluate state.environment = .error failure) ∨
      (node = .missing ∧ failure = ⟨.missingNode, .unset⟩) := by
  cases node with
  | program whole =>
    have follows : (whole.run fuel console state).Follows (stmtParts whole.stmts) console state :=
      followsAll whole.stmts (List.Subset.refl _) .void state
    rw [show whole.run fuel console state = _ from fails] at follows
    exact .inl follows.2
  | stmt single =>
    have follows : (single.run fuel console state).Follows single.parts console state :=
      single.follows (List.Subset.refl _) state
    rw [show single.run fuel console state = _ from fails] at follows
    exact .inl follows.2
  | expr single =>
    rw [run] at fails
    cases result : single.evaluate state.environment with
    | ok value =>
      rw [result] at fails
      cases fails
    | error reason =>
      rw [result] at fails
      cases fails
      exact .inr (.inl ⟨single, rfl, result⟩)
  | missing =>
    cases fails
    exact .inr (.inr ⟨rfl, rfl⟩)

end Run

/-! ## `void` stays outside -/

/-- An evaluation gives a value other than `void`, or fails for another reason than binding it. -/
def Expr.Valued : Except Failure Value → Prop
  | .ok value => value ≠ .void
  | .error failure => ∀ name, failure.fault ≠ .voidAssigned name

/-- No unary operator gives `void`, not even an unknown one. -/
theorem Transforms.valued {span : Span} {operand : Expr} {operator : UnaryOperator} {value : Value}
    {result : Except Failure Value} (applied : Transforms span operand operator value result) :
    Expr.Valued result := by
  cases applied with
  | negate | invert => exact fun same => by cases same
  | negateOther | invertOther | unknown => exact fun _ same => by cases same

/-- No binary operator gives `void`, not even an unknown one. -/
theorem Combines.valued {span : Span} {left right : Expr} {operator : BinaryOperator}
    {first second : Value} {result : Except Failure Value}
    (applied : Combines span left right operator first second result) : Expr.Valued result := by
  cases applied with
  | addNumbers | addTexts | equalNumbers | equalOthers | notEqualNumbers | notEqualOthers
  | booleans => exact fun same => by cases same
  | numbers result => cases result <;> exact fun same => by cases same
  | leftNoNumber | rightNoNumber | leftNoBoolean | rightNoBoolean | unknown =>
    exact fun _ same => by cases same

/-- Where no name is bound to `void`, no expression has it as its value, whatever is missing. -/
theorem Evaluates.valued {environment : Environment} (void_free : environment.VoidFree)
    {expr : Expr} {result : Except Failure Value} (evaluated : Evaluates environment expr result) :
    Expr.Valued result := by
  induction evaluated with
  | number | text | boolean | nil => exact fun same => by cases same
  | name bound => exact void_free.get?_ne_void bound
  | undeclared | missing => exact fun _ same => by cases same
  | unary _ applied _ => exact applied.valued
  | binary _ _ applied _ _ => exact applied.valued
  | unaryFails _ inner => exact inner
  | leftFails _ one => exact one
  | rightFails _ _ _ two => exact two
  | paren _ inside => exact inside

/-- An assignment neither binds `void` nor replaces it. -/
def Event.VoidFree : Event → Prop
  | .assigned _ previous value => previous ≠ some .void ∧ value ≠ .void
  | _ => True

/-- No name is bound to `void`, and no assignment since the earlier trace `past` has to do with
it. -/
structure State.VoidFree (past : List Event) (state : State) : Prop where
  /-- The variables are free of `void`. -/
  environment : state.environment.VoidFree
  /-- The events since then are free of `void`. -/
  events : ∃ recent, state.trace = recent ++ past ∧ ∀ event ∈ recent, event.VoidFree

namespace State.VoidFree

variable {past : List Event} {state after : State}

theorem record (void_free : state.VoidFree past) {event : Event} (harmless : event.VoidFree) :
    (state.record event).VoidFree past := by
  obtain ⟨recent, trace, all⟩ := void_free.events
  refine ⟨void_free.environment, event :: recent, ?_, List.forall_mem_cons.2 ⟨harmless, all⟩⟩
  rw [State.record, trace, List.cons_append]

/-- No step brings `void` in. -/
theorem step {parts : List Stmt} {console : Console} (void_free : state.VoidFree past)
    (step : State.Step parts console state after) : after.VoidFree past := by
  cases step with
  | @assigned _ name _ value _ _ valued =>
    -- What was bound before is no `void` either, since the variables were free of it.
    have previous : state.environment.get? name ≠ some .void := fun bound =>
      void_free.environment.get?_ne_void bound rfl
    have harmless : (Event.assigned name (state.environment.get? name) value).VoidFree :=
      ⟨previous, valued⟩
    obtain ⟨recent, trace, all⟩ := void_free.events
    refine ⟨void_free.environment.set name valued, _, ?_, List.forall_mem_cons.2 ⟨harmless, all⟩⟩
    rw [State.assign_eq, trace, List.cons_append]
  | printed => exact void_free.record trivial
  | @noted event no_line no_binding =>
    cases event with
    | assigned => cases no_binding
    | printed | branchTaken | otherwiseTaken | loopFinished => exact void_free.record trivial

/-- No sequence of steps brings `void` in. -/
theorem steps {parts : List Stmt} {console : Console} (void_free : state.VoidFree past)
    (steps : ReflTransGen (State.Step parts console) state after) : after.VoidFree past :=
  State.kept_of_steps (fun _ _ now last => now.step last) steps void_free

end State.VoidFree

/-- Where no name is bound to `void`, no failure is about binding it. -/
theorem Failure.Arises.fault_ne {parts : List Stmt} {console : Console} {state : State}
    {failure : Failure} (arises : failure.Arises parts console state)
    (void_free : state.environment.VoidFree) (name : Bytes) :
    failure.fault ≠ .voidAssigned name := by
  cases arises with
  | expression _ _ evaluated => exact (evaluates_iff.2 evaluated).valued void_free name
  | condition _ _ fails =>
    cases tests_iff.2 fails with
    | fails evaluated => exact evaluated.valued void_free name
    | other => exact fun same => by cases same
  | voidAssigned _ evaluated => exact absurd rfl ((evaluates_iff.2 evaluated).valued void_free)
  | refused => exact fun same => by cases same

/-- Where no name is bound to `void`, no run fails because of binding it. -/
theorem Node.fault_ne_voidAssigned (node : Node) {fuel : Nat} {console : Console}
    {state after : State} {failure : Failure} (void_free : state.environment.VoidFree)
    (fails : node.run fuel console state = .failed failure after) (name : Bytes) :
    failure.fault ≠ .voidAssigned name := by
  have start : state.VoidFree state.trace := ⟨void_free, [], rfl, by simp⟩
  have ends : (node.run fuel console state).state? = some after := by rw [fails]; rfl
  have still_free := (start.steps (node.steps ends)).environment
  rcases node.arises fails with arises | ⟨expr, -, evaluated⟩ | ⟨-, rfl⟩
  · exact arises.fault_ne still_free name
  · exact (evaluates_iff.2 evaluated).valued void_free name
  · exact fun same => by cases same

/-- **`void` never escapes into data.** In an environment that binds no name to `void`, no
expression has the value `void`. Whatever part of a program is run there, well-formed or not, behind
anything that happened before and on any console: when the run ends, with a result or a failure, no
name is bound to `void` and no assignment of the run had it as its value or found it as the binding
before. And no run fails for binding `void`, in particular none that starts without variables. -/
theorem void_never_bound {environment : Environment} (void_free : environment.VoidFree) :
    (∀ (expr : Expr) (value : Value), expr.evaluate environment = .ok value → value ≠ .void) ∧
      ∀ (node : Node) (fuel : Nat) (console : Console) (past : List Event),
        (∀ after, (node.run fuel console ⟨environment, past⟩).state? = some after →
          after.VoidFree past) ∧
        ∀ failure after, node.run fuel console ⟨environment, past⟩ = .failed failure after →
          ∀ name, failure.fault ≠ .voidAssigned name := by
  constructor
  · intro expr value evaluated
    exact (evaluates_iff.2 evaluated).valued void_free
  intro node fuel console past
  have start : (State.mk environment past).VoidFree past := ⟨void_free, [], rfl, by simp⟩
  constructor
  · intro after ends
    exact start.steps (node.steps ends)
  · intro failure after fails
    exact node.fault_ne_voidAssigned void_free fails

/-- The tree of `x = nil`, `x = x` and an assignment whose expression is missing. -/
def unfinishedAssignments : Node :=
  .program ⟨.unset, [.assign .unset [0x78] (.nil .unset),
    .assign .unset [0x78] (.name .unset [0x78]), .assign .unset [0x79] .missing]⟩

/-- The assignments before the missing expression are kept when the run fails, and none of them has
to do with `void`. -/
theorem void_never_bound_missing :
    ∃ after, unfinishedAssignments.run 0 .unlimited (.start .empty)
        = .failed ⟨.missingExpression, .unset⟩ after ∧
      after.events.filterMap Event.assignment?
        = [([0x78], none, .nil), ([0x78], some .nil, .nil)] ∧
      after.VoidFree [] := by
  have void_free : Environment.empty.VoidFree := by simp [Environment.VoidFree, Environment.empty]
  have runs := (void_never_bound void_free).2 unfinishedAssignments 0 .unlimited []
  exact ⟨_, rfl, rfl, runs.1 _ rfl⟩

end ConsoleScript
