import ConsoleScript.Proofs.ExpressionRules
import ConsoleScript.Proofs.TextJoining
import Mathlib

/-! # How accepted programs can fail

A program that compiles, run in an environment that binds no name to `void`, can fail in three ways
only: it reads a name that is not bound, a value has another kind than an operator or a condition
needs, or the console refuses a line. The other faults are for trees built by hand.

* **`Expr.parts`**, **`Expr.operands`**, **`stmtParts`** — where in a program a failure may stand;
* **`Failure.Documented`** — the three ways, each with the place and the cause it names;
* **`SpellsRun.grammatical`** — what is spelled is grammatical, so no part of it is missing and no
  operator unknown (`Expr.Proper`);
* **`Stmt.orderly`** — running keeps the environment free of `void` and fails as documented, case by
  case over the tree and, for loops, round by round. -/

namespace ConsoleScript

/-! ## The parts of a program -/

namespace Expr

/-- An expression and the expressions in it; a missing one is none. -/
def parts : Expr → List Expr
  | unary span operator operand => unary span operator operand :: operand.parts
  | binary span operator left right =>
    binary span operator left right :: (left.parts ++ right.parts)
  | paren span inner => paren span inner :: inner.parts
  | missing => []
  | leaf => [leaf]

/-- The operands of the operators in an expression. -/
def operands : Expr → List Expr
  | unary _ _ operand => operand :: operand.operands
  | binary _ _ left right => left :: right :: (left.operands ++ right.operands)
  | paren _ inner => inner.operands
  | _ => []

/-- No expression is missing and no operator unknown. -/
def Proper : Expr → Prop
  | unary _ operator operand => operator ≠ .unknown ∧ operand.Proper
  | binary _ operator left right => operator ≠ .unknown ∧ left.Proper ∧ right.Proper
  | paren _ inner => inner.Proper
  | missing => False
  | _ => True

end Expr

mutual

/-- A statement and the statements in it. -/
def Stmt.parts : Stmt → List Stmt
  | .assign span name value => [.assign span name value]
  | .console span value => [.console span value]
  | .conditional span branches otherwise =>
    .conditional span branches otherwise :: (branchParts branches ++ otherwise.parts)
  | .loop span condition body => .loop span condition body :: body.parts
  | .block span stmts => .block span stmts :: stmtParts stmts

/-- Statements and the statements in them. -/
def stmtParts : List Stmt → List Stmt
  | [] => []
  | stmt :: stmts => stmt.parts ++ stmtParts stmts

/-- The statements in branches. -/
def branchParts : List Branch → List Stmt
  | [] => []
  | .mk _ _ body :: branches => body.parts ++ branchParts branches

/-- The statements in a block. -/
def Block.parts : Block → List Stmt
  | .absent => []
  | .present _ stmts => stmtParts stmts

end

namespace Stmt

/-- The conditions that a statement tests, without those of the statements in it. -/
def conditions : Stmt → List Expr
  | conditional _ branches _ => branches.map Branch.condition
  | loop _ condition _ => [condition]
  | _ => []

/-- The expressions that a statement evaluates, without those of the statements in it. -/
def exprs : Stmt → List Expr
  | assign _ _ value => [value]
  | console _ value => [value]
  | stmt => stmt.conditions

theorem conditions_subset_exprs (stmt : Stmt) : stmt.conditions ⊆ stmt.exprs := by
  cases stmt with
  | assign | console => exact List.nil_subset _
  | conditional | loop | block => exact List.Subset.refl _

end Stmt

/-! ## The documented failures -/

namespace Failure

/-- The failures of an expression. -/
inductive OfExpr (environment : Environment) (expr : Expr) : Failure → Prop where
  /-- A name in the expression is not bound. -/
  | undeclared {span : Span} {name : Bytes} (read : .name span name ∈ expr.parts)
      (unbound : environment.get? name = none) : OfExpr environment expr ⟨.undeclared name, span⟩
  /-- An operand has a value of another kind than its operator needs. -/
  | operand {operand : Expr} {expected actual : ValueKind} (applied : operand ∈ expr.operands)
      (wanted : expected = .number ∨ expected = .boolean) (other : actual ≠ expected)
      (valued : actual ≠ .void) :
      OfExpr environment expr ⟨.mismatch expected (some actual), operand.span⟩

/-- The failures of a run of statements, `parts` being all of them. -/
inductive Documented (parts : List Stmt) (environment : Environment) : Failure → Prop where
  /-- An expression fails. -/
  | expression {stmt : Stmt} {expr : Expr} {failure : Failure} (inside : stmt ∈ parts)
      (stands : expr ∈ stmt.exprs) (fails : failure.OfExpr environment expr) :
      Documented parts environment failure
  /-- A condition has a value that is no truth value. -/
  | condition {stmt : Stmt} {condition : Expr} {actual : ValueKind} (inside : stmt ∈ parts)
      (tested : condition ∈ stmt.conditions) (other : actual ≠ .boolean) (valued : actual ≠ .void) :
      Documented parts environment ⟨.mismatch .boolean (some actual), condition.span⟩
  /-- The console refuses the line of a console statement. -/
  | refused {span : Span} {value : Expr} (inside : .console span value ∈ parts) :
      Documented parts environment ⟨.outputRefused, span⟩

/-- A failure of a part is one of the whole expression. -/
theorem OfExpr.mono {environment : Environment} {part whole : Expr} {failure : Failure}
    (fails : failure.OfExpr environment part) (parts : part.parts ⊆ whole.parts)
    (operands : part.operands ⊆ whole.operands) : failure.OfExpr environment whole := by
  cases fails with
  | undeclared read unbound => exact .undeclared (parts read) unbound
  | operand applied wanted other valued => exact .operand (operands applied) wanted other valued

/-- The faults of trees built by hand are not documented. -/
theorem Documented.fault_ne {parts : List Stmt} {environment : Environment} {failure : Failure}
    (documented : failure.Documented parts environment) :
    (∀ symbol, failure.fault ≠ .unsupportedOperator symbol) ∧
      (∀ name, failure.fault ≠ .voidAssigned name) ∧ failure.fault ≠ .missingExpression ∧
      failure.fault ≠ .missingNode := by
  cases documented with
  | expression _ _ fails => cases fails <;> simp
  | condition => simp
  | refused => simp

end Failure

/-! ## What is spelled is grammatical -/

/-- A derived tree is proper. -/
theorem Derives.proper {stratum : Stratum} {expr : Expr} (derived : Derives stratum expr) :
    expr.Proper := by
  induction derived with
  | number | text | boolean | nil | name => trivial
  | paren _ inner => exact inner
  | power _ _ left right => exact ⟨by decide, left, right⟩
  | unary known _ operand => exact ⟨known, operand⟩
  | chain member _ _ first second => exact ⟨Stratum.ne_unknown member, first, second⟩
  | weaken _ _ inner => exact inner

mutual

/-- A spelled statement is grammatical. -/
theorem SpellsStmt.grammatical {dangling : Bool} {tokens : List Token} {stmt : Stmt} :
    SpellsStmt dangling tokens stmt → stmt.Grammatical
  | .assign _ _ right => right.derives
  | .console _ shown => shown.derives
  | .conditional _ first _ others =>
    ⟨List.cons_ne_nil _ _, first.grammatical others.grammatical.1, others.grammatical.2⟩
  | .loop _ holds repeated => ⟨holds.derives, repeated.grammatical⟩
  | .block _ _ run => run.grammatical

/-- A spelled branch is grammatical, before others that are. -/
theorem SpellsBranch.grammatical {word : Token} {dangling : Bool} {tokens : List Token}
    {branch : Branch} {branches : List Branch} :
    SpellsBranch word dangling tokens branch → GrammaticalBranches branches →
      GrammaticalBranches (branch :: branches)
  | .mk holds guarded, others => ⟨⟨holds.derives, guarded.grammatical⟩, others⟩

/-- What is spelled further to a conditional is grammatical. -/
theorem SpellsFurther.grammatical {start stop : Position} {dangling : Bool} {tokens : List Token}
    {branches : List Branch} {otherwise : Block} :
    SpellsFurther start dangling tokens branches otherwise stop →
      GrammaticalBranches branches ∧ otherwise.Grammatical
  | .none => ⟨trivial, trivial⟩
  | .elseif _ _ first _ others =>
    ⟨first.grammatical others.grammatical.1, others.grammatical.2⟩
  | .elseIf _ _ _ first _ others =>
    ⟨first.grammatical others.grammatical.1, others.grammatical.2⟩
  | .otherwise _ _ _ run => ⟨trivial, run.grammatical.2⟩

/-- A spelled body is there and grammatical. -/
theorem SpellsBody.grammatical {dangling : Bool} {tokens : List Token} {body : Block} :
    SpellsBody dangling tokens body → body ≠ .absent ∧ body.Grammatical
  | .braced _ _ run => ⟨by simp, run.grammatical⟩
  | .single _ only => ⟨by simp, only.grammatical, trivial⟩

/-- Spelled statements are grammatical. -/
theorem SpellsRun.grammatical {tokens : List Token} {stmts : List Stmt} :
    SpellsRun tokens stmts → GrammaticalStmts stmts
  | .done _ => trivial
  | .cons _ first others => ⟨first.grammatical, others.grammatical⟩

end

/-! ## Expressions -/

/-- No name is bound to `void`. -/
def Environment.VoidFree (environment : Environment) : Prop :=
  ∀ entry ∈ environment.entries, entry.2 ≠ .void

namespace Environment.VoidFree

variable {environment : Environment}

theorem get?_ne_void (void_free : environment.VoidFree) {name : Bytes} {value : Value}
    (bound : environment.get? name = some value) : value ≠ .void := by
  obtain ⟨before, behind, parts, -⟩ := List.lookup_eq_some_iff.1 bound
  have member : (name, value) ∈ environment.entries := by simp [parts]
  exact void_free _ member

theorem set (void_free : environment.VoidFree) (name : Bytes) {value : Value}
    (valued : value ≠ .void) : (environment.set name value).VoidFree := by
  intro entry member
  rcases Environment.mem_insertEntry member with rfl | old
  · exact valued
  · exact void_free entry old

end Environment.VoidFree

/-- An expression has a value other than `void`, or fails as documented. -/
def Expr.Orderly (environment : Environment) (expr : Expr) : Except Failure Value → Prop
  | .ok value => value ≠ .void
  | .error failure => failure.OfExpr environment expr

theorem Value.kind_ne_void {value : Value} (valued : value ≠ .void) : value.kind ≠ .void := by
  cases value with
  | void => exact absurd rfl valued
  | number | text | boolean | nil => simp [kind]

section Operators

variable {environment : Environment} {span : Span}

/-- A known unary operator gives a value, or fails at its operand. -/
theorem Transforms.orderly {operand : Expr} {operator : UnaryOperator} {value : Value}
    {result : Except Failure Value} (applied : Transforms span operand operator value result)
    (known : operator ≠ .unknown) (valued : value ≠ .void) :
    (Expr.unary span operator operand).Orderly environment result := by
  have among : operand ∈ (Expr.unary span operator operand).operands := List.mem_cons_self
  have kind := Value.kind_ne_void valued
  cases applied with
  | negate | invert => exact fun same => by cases same
  | negateOther other => exact .operand among (.inl rfl) other kind
  | invertOther other => exact .operand among (.inr rfl) other kind
  | unknown => exact absurd rfl known

/-- A known binary operator gives a value, or fails at one of its operands. -/
theorem Combines.orderly {left right : Expr} {operator : BinaryOperator} {first second : Value}
    {result : Except Failure Value}
    (applied : Combines span left right operator first second result)
    (known : operator ≠ .unknown) (one : first ≠ .void) (two : second ≠ .void) :
    (Expr.binary span operator left right).Orderly environment result := by
  have among_left : left ∈ (Expr.binary span operator left right).operands := List.mem_cons_self
  have among_right : right ∈ (Expr.binary span operator left right).operands :=
    List.mem_cons_of_mem _ List.mem_cons_self
  have first_kind := Value.kind_ne_void one
  have second_kind := Value.kind_ne_void two
  cases applied with
  | addNumbers | addTexts | equalNumbers | equalOthers | notEqualNumbers | notEqualOthers
  | booleans => exact fun same => by cases same
  | numbers result => cases result <;> exact fun same => by cases same
  | leftNoNumber _ other => exact .operand among_left (.inl rfl) other first_kind
  | rightNoNumber _ other => exact .operand among_right (.inl rfl) other second_kind
  | leftNoBoolean _ other => exact .operand among_left (.inr rfl) other first_kind
  | rightNoBoolean _ other => exact .operand among_right (.inr rfl) other second_kind
  | unknown => exact absurd rfl known

end Operators

/-- A proper expression has a value other than `void`, or fails as documented. -/
theorem Evaluates.orderly {environment : Environment} (void_free : environment.VoidFree)
    {expr : Expr} {result : Except Failure Value} (evaluated : Evaluates environment expr result)
    (proper : expr.Proper) : expr.Orderly environment result := by
  induction evaluated with
  | number | text | boolean | nil => exact fun same => by cases same
  | name bound => exact void_free.get?_ne_void bound
  | undeclared unbound => exact .undeclared List.mem_cons_self unbound
  | unary _ applied inner => exact applied.orderly proper.1 (inner proper.2)
  | unaryFails _ inner =>
    exact (inner proper.2).mono (List.subset_cons_self _ _) (List.subset_cons_self _ _)
  | binary _ _ applied one two =>
    exact applied.orderly proper.1 (one proper.2.1) (two proper.2.2)
  | leftFails _ one =>
    refine (one proper.2.1).mono ?_ ?_
    · exact List.subset_cons_of_subset _ (List.subset_append_left _ _)
    · exact List.subset_cons_of_subset _
        (List.subset_cons_of_subset _ (List.subset_append_left _ _))
  | rightFails _ _ one two =>
    refine (two proper.2.2).mono ?_ ?_
    · exact List.subset_cons_of_subset _ (List.subset_append_right _ _)
    · exact List.subset_cons_of_subset _
        (List.subset_cons_of_subset _ (List.subset_append_right _ _))
  | @paren span inner result _ inside =>
    have orderly := inside proper
    cases result with
    | ok value => exact orderly
    | error failure => exact orderly.mono (List.subset_cons_self _ _) (List.Subset.refl _)
  | missing => exact proper.elim

/-! ## Statements -/

namespace Outcome

/-- A run ends in an environment free of `void`, or fails as documented, or does not end. -/
def Orderly {α : Type} (parts : List Stmt) : Outcome α → Prop
  | done _ after => after.environment.VoidFree
  | failed failure after => failure.Documented parts after.environment
  | unfinished => True

/-- What goes on in an orderly way after an orderly run is orderly. -/
theorem Orderly.andThen {α β : Type} {parts : List Stmt} {outcome : Outcome α}
    {next : α → State → Outcome β} (first : outcome.Orderly parts)
    (second : ∀ value after, after.environment.VoidFree → (next value after).Orderly parts) :
    (outcome.andThen next).Orderly parts := by
  cases outcome with
  | done value after => exact second value after first
  | failed failure after => exact first
  | unfinished => trivial

end Outcome

section Run

variable {parts : List Stmt} {fuel : Nat} {console : Console}

/-- An assignment is orderly. -/
theorem orderly_assign {span : Span} {name : Bytes} {value : Expr} {state : State}
    (inside : .assign span name value ∈ parts) (proper : value.Proper)
    (void_free : state.environment.VoidFree) : (state.runAssignment name value).Orderly parts := by
  have orderly := (value.evaluates state.environment).orderly void_free proper
  rw [State.runAssignment]
  cases result : value.evaluate state.environment with
  | error failure =>
    rw [result] at orderly
    exact .expression inside List.mem_cons_self orderly
  | ok found =>
    rw [result] at orderly
    have valued : found ≠ .void := orderly
    -- A value other than `void` is bound, so the new environment is free of it, too.
    cases found with
    | void => exact absurd rfl valued
    | number | text | boolean | nil => exact void_free.set name valued

/-- A console statement is orderly, whatever the console takes. -/
theorem orderly_console {span : Span} {value : Expr} {state : State}
    (inside : .console span value ∈ parts) (proper : value.Proper)
    (void_free : state.environment.VoidFree) :
    (state.runConsole console span value).Orderly parts := by
  have orderly := (value.evaluates state.environment).orderly void_free proper
  rw [State.runConsole]
  cases result : value.evaluate state.environment with
  | error failure =>
    rw [result] at orderly
    exact .expression inside List.mem_cons_self orderly
  | ok found =>
    -- The value is shown, whatever it is, and only the console decides.
    dsimp only
    split
    · exact void_free
    · exact .refused inside

/-- Testing a condition of a statement has a truth value, or fails as documented. -/
theorem documented_of_holds {stmt : Stmt} {condition : Expr} {environment : Environment}
    {failure : Failure} (inside : stmt ∈ parts) (tested : condition ∈ stmt.conditions)
    (proper : condition.Proper) (void_free : environment.VoidFree)
    (fails : condition.holds environment = .error failure) :
    failure.Documented parts environment := by
  -- Either the condition has no value, or one that is no truth value; `void` it never has.
  cases tests_iff.2 fails with
  | fails evaluated =>
    exact .expression inside (stmt.conditions_subset_exprs tested)
      (evaluated.orderly void_free proper)
  | other evaluated other =>
    have valued := evaluated.orderly void_free proper
    exact .condition inside tested other (Value.kind_ne_void valued)

/-- A loop is orderly, whatever the number of its rounds, if one run of its body is. -/
theorem orderly_repeatWhile {stmt : Stmt} {condition : Expr} {body : State → Outcome Value}
    (inside : stmt ∈ parts) (tested : condition ∈ stmt.conditions) (proper : condition.Proper)
    (round : ∀ state : State, state.environment.VoidFree → (body state).Orderly parts)
    (rounds : Nat) {state : State} (void_free : state.environment.VoidFree) :
    (repeatWhile fuel (fun now => condition.holds now.environment) body rounds state).Orderly
      parts := by
  -- One round keeps the environment free of `void`, and that is all the next one needs.
  induction fuel generalizing rounds state with
  | zero => trivial
  | succ fuel ih =>
    rw [repeatWhile]
    cases holds : condition.holds state.environment with
    | error failure => exact documented_of_holds inside tested proper void_free holds
    | ok truth =>
      cases truth with
      | false => exact void_free
      | true =>
        have once := round state void_free
        dsimp only
        cases ran : body state with
        | done value next =>
          rw [ran] at once
          exact ih (rounds + 1) once
        | failed failure next =>
          rw [ran] at once
          exact once
        | unfinished => trivial

mutual

/-- Every run of a grammatical statement is orderly. -/
theorem Stmt.orderly : (stmt : Stmt) → stmt.parts ⊆ parts → stmt.Grammatical → ∀ state : State,
    state.environment.VoidFree → (stmt.run fuel console state).Orderly parts
  | .assign _ _ _, inside, grammatical, _, void_free => by
    rw [Stmt.run]
    exact orderly_assign (inside List.mem_cons_self) grammatical.proper void_free
  | .console _ _, inside, grammatical, _, void_free => by
    rw [Stmt.run]
    exact orderly_console (inside List.mem_cons_self) grammatical.proper void_free
  | .conditional span branches otherwise, inside, grammatical, state, void_free => by
    obtain ⟨here, nested⟩ := List.cons_subset.1 inside
    obtain ⟨in_branches, in_otherwise⟩ := List.append_subset.1 nested
    have chosen := orderlyBranches branches here (fun _ member => member) in_branches
      grammatical.2.1 0 state void_free
    rw [Stmt.run]
    refine chosen.andThen ?_
    intro taken after still_free
    cases taken with
    | true => exact still_free
    | false => exact otherwise.orderlyLast in_otherwise grammatical.2.2 after still_free
  | .loop span condition body, inside, grammatical, state, void_free => by
    obtain ⟨here, nested⟩ := List.cons_subset.1 inside
    have round := body.orderly nested grammatical.2.2
    rw [Stmt.run]
    refine (orderly_repeatWhile here List.mem_cons_self grammatical.1.proper round 0
      void_free).andThen ?_
    intro _ _ still_free
    exact still_free
  | .block _ stmts, inside, grammatical, state, void_free => by
    rw [Stmt.run]
    exact orderlyAll stmts (List.cons_subset.1 inside).2 grammatical .void state void_free

/-- Every run of grammatical statements is orderly. -/
theorem orderlyAll : (stmts : List Stmt) → stmtParts stmts ⊆ parts → GrammaticalStmts stmts →
    ∀ (result : Value) (state : State), state.environment.VoidFree →
      (runAll fuel console stmts result state).Orderly parts
  | [], _, _, _, _, void_free => by
    rw [runAll]
    exact void_free
  | stmt :: stmts, inside, grammatical, _, state, void_free => by
    obtain ⟨in_first, in_others⟩ := List.append_subset.1 inside
    rw [runAll]
    exact (stmt.orderly in_first grammatical.1 state void_free).andThen
      fun value after => orderlyAll stmts in_others grammatical.2 value after

/-- Every run of the branches of a conditional is orderly. -/
theorem orderlyBranches {owner : Stmt} : (branches : List Branch) → owner ∈ parts →
    branches.map Branch.condition ⊆ owner.conditions → branchParts branches ⊆ parts →
    GrammaticalBranches branches → ∀ (index : Nat) (state : State), state.environment.VoidFree →
      (runBranches fuel console branches index state).Orderly parts
  | [], _, _, _, _, _, _, void_free => by
    rw [runBranches]
    exact void_free
  | .mk span condition body :: branches, owned, tested, inside, grammatical, index, state,
      void_free => by
    obtain ⟨here, others⟩ := List.cons_subset.1 tested
    obtain ⟨in_body, in_others⟩ := List.append_subset.1 inside
    rw [runBranches]
    cases holds : condition.holds state.environment with
    | error failure =>
      exact documented_of_holds owned here grammatical.1.1.proper void_free holds
    | ok truth =>
      cases truth with
      | true =>
        refine (body.orderly in_body grammatical.1.2.2 _ ?_).andThen ?_
        · exact void_free
        · intro _ _ still_free
          exact still_free
      | false =>
        exact orderlyBranches branches owned others in_others grammatical.2 (index + 1) state
          void_free

/-- Every run of the last block of a conditional is orderly. -/
theorem Block.orderlyLast : (body : Block) → body.parts ⊆ parts → body.Grammatical →
    ∀ state : State, state.environment.VoidFree →
      (runOtherwise fuel console body state).Orderly parts
  | .absent, _, _, _, void_free => by
    rw [runOtherwise]
    exact void_free
  | .present _ stmts, inside, grammatical, _, void_free => by
    rw [runOtherwise]
    refine (orderlyAll stmts inside grammatical .void _ ?_).andThen ?_
    · exact void_free
    · intro _ _ still_free
      exact still_free

/-- Every run of a grammatical block is orderly. -/
theorem Block.orderly : (body : Block) → body.parts ⊆ parts → body.Grammatical →
    ∀ state : State, state.environment.VoidFree → (body.run fuel console state).Orderly parts
  | .absent, _, _, _, void_free => by
    rw [Block.run]
    exact void_free
  | .present _ stmts, inside, grammatical, state, void_free => by
    rw [Block.run]
    exact orderlyAll stmts inside grammatical .void state void_free

end

end Run

/-- **Accepted programs fail in the documented ways only.** If a source compiles to a program and
the program, run from a state that binds no name to `void` and on any console, fails, then a name in
it is not bound, an operand or a condition has a value of another kind than is needed, or the
console refused the line of a console statement; the failure stands at that name, operand, condition
or statement. No operator is unsupported, no expression or node missing, and `void` never bound. -/
theorem accepted_program_failures {source file : Bytes} {program : Program}
    (compiled : (Compilation.compile source file).program? = some program) {fuel : Nat}
    {console : Console} {state after : State} {failure : Failure}
    (void_free : state.environment.VoidFree)
    (fails : (Node.program program).run fuel console state = .failed failure after) :
    failure.Documented (stmtParts program.stmts) after.environment ∧
      (∀ symbol, failure.fault ≠ .unsupportedOperator symbol) ∧
      (∀ name, failure.fault ≠ .voidAssigned name) ∧ failure.fault ≠ .missingExpression ∧
      failure.fault ≠ .missingNode := by
  obtain ⟨-, spelled, -⟩ := Compilation.program?_eq_some_iff.1 compiled
  have orderly : ((Node.program program).run fuel console state).Orderly _ :=
    orderlyAll program.stmts (List.Subset.refl _) spelled.grammatical .void state void_free
  rw [fails] at orderly
  have documented : failure.Documented _ after.environment := orderly
  exact ⟨documented, documented.fault_ne⟩

/-- The program `console -nil`. -/
def negatedNil : Program where
  span := ⟨⟨[], 0, 1, 1⟩, ⟨[], 12, 1, 13⟩⟩
  stmts := [.console ⟨⟨[], 0, 1, 1⟩, ⟨[], 12, 1, 13⟩⟩
    (.unary ⟨⟨[], 8, 1, 9⟩, ⟨[], 12, 1, 13⟩⟩ .negate (.nil ⟨⟨[], 9, 1, 10⟩, ⟨[], 12, 1, 13⟩⟩))]

/-- In `console -nil` the operand of the minus sign is no number. -/
theorem accepted_program_failures_operand :
    let failure : Failure :=
      ⟨.mismatch .number (some .nil), ⟨⟨[], 9, 1, 10⟩, ⟨[], 12, 1, 13⟩⟩⟩
    (Compilation.compile (Bytes.utf8 "console -nil") []).program? = some negatedNil ∧
      (Node.program negatedNil).run 0 .unlimited (.start .empty) = .failed failure (.start .empty) ∧
      failure.Documented (stmtParts negatedNil.stmts) .empty := by
  intro failure
  have lexing : Lexing.read (Bytes.utf8 "console -nil") []
      = ⟨[⟨.consoleWord, Bytes.utf8 "console", ⟨⟨[], 0, 1, 1⟩, ⟨[], 7, 1, 8⟩⟩⟩,
        ⟨.minus, [0x2d], ⟨⟨[], 8, 1, 9⟩, ⟨[], 9, 1, 10⟩⟩⟩,
        ⟨.nilWord, Bytes.utf8 "nil", ⟨⟨[], 9, 1, 10⟩, ⟨[], 12, 1, 13⟩⟩⟩,
        ⟨.endOfInput, [], ⟨⟨[], 12, 1, 13⟩, ⟨[], 12, 1, 13⟩⟩⟩], []⟩ := by
    cbv
  have compiled : (Compilation.compile (Bytes.utf8 "console -nil") []).program?
      = some negatedNil := by
    rw [Compilation.compile, lexing]
    simp [Compilation.program?, Parsing.read, Cursor.ofTokens, Cursor.skipSeparators,
      Cursor.skipWhile, Cursor.skipWhile.go, Cursor.isSeparator, Cursor.statements_cons,
      Cursor.statement_cons, Cursor.consoleStatement, Cursor.requiredExpression,
      Cursor.expression_eq, Cursor.operand_cons, Cursor.continuation_cons, Parsed.required,
      TokenKind.strength, Cursor.peek, Cursor.spanFrom, UnaryOperator.ofKind, Finding.anyError,
      negatedNil]
  have fails : (Node.program negatedNil).run 0 .unlimited (.start .empty)
      = .failed failure (.start .empty) := rfl
  have void_free : Environment.empty.VoidFree := by simp [Environment.VoidFree, Environment.empty]
  exact ⟨compiled, fails, (accepted_program_failures compiled void_free fails).1⟩

end ConsoleScript
