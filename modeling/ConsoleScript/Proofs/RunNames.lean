import ConsoleScript.Proofs.RunSteps

/-! # Runs and the names of a program

A run touches only the names that its program assigns, and depends only on those that occur in it.

* **`Node.targets`**, **`Node.names`** — the names that a tree assigns, and all that occur in it;
* **`Environment.Extends`** — what is not assigned keeps its binding, and nothing is unbound. Every
  step has this property, and so has every run;
* **`Outcome.Agree`** — two runs in lock step: the same happens in both, they end in the same way,
  and the names that occur have the same bindings at their ends. `Stmt.agree` finds this case by
  case over the tree and, for loops, round by round. -/

namespace ConsoleScript

open Relation (ReflTransGen)

/-! ## Names -/

/-- The names that an expression reads, from left to right. -/
def Expr.names : Expr → List Bytes
  | .name _ word => [word]
  | .unary _ _ operand => operand.names
  | .binary _ _ left right => left.names ++ right.names
  | .paren _ inner => inner.names
  | .number _ _ | .text _ _ | .boolean _ _ | .nil _ | .missing => []

namespace Stmt

/-- The name that a statement assigns, if it is an assignment. -/
def target? : Stmt → Option Bytes
  | assign _ name _ => some name
  | _ => none

/-- The names that occur in a statement, without those of the statements in it. -/
def names (stmt : Stmt) : List Bytes :=
  stmt.target?.toList ++ stmt.exprs.flatMap Expr.names

end Stmt

namespace Node

/-- The names that a part of a program assigns, anywhere in it. -/
def targets (node : Node) : List Bytes :=
  node.parts.filterMap Stmt.target?

/-- The names that occur in a part of a program, read or assigned. -/
def names : Node → List Bytes
  | expr single => single.names
  | node => node.parts.flatMap Stmt.names

end Node

/-! ## What a run leaves alone -/

/-- An environment behind another one: names other than the targets have the bindings that they had,
and whatever was bound is bound. -/
structure Environment.Extends (targets : List Bytes) (before after : Environment) : Prop where
  /-- No other name is touched. -/
  kept : ∀ name, name ∉ targets → after.get? name = before.get? name
  /-- No name is unbound. -/
  bound : ∀ name, (before.get? name).isSome → (after.get? name).isSome

namespace Environment.Extends

variable {targets : List Bytes} {before between after : Environment}

theorem refl (targets : List Bytes) (environment : Environment) :
    environment.Extends targets environment :=
  ⟨fun _ _ => rfl, fun _ bound => bound⟩

theorem trans (first : before.Extends targets between) (second : between.Extends targets after) :
    before.Extends targets after where
  kept name other := (second.kept name other).trans (first.kept name other)
  bound name is_bound := second.bound name (first.bound name is_bound)

/-- Binding a target touches nothing else. -/
theorem set {name : Bytes} (member : name ∈ targets) (environment : Environment) (value : Value) :
    environment.Extends targets (environment.set name value) where
  kept other untouched := by
    have different : other ≠ name := fun same => untouched (same ▸ member)
    rw [Environment.get?_set, if_neg different]
  bound other is_bound := by
    rw [Environment.get?_set]
    split
    · rfl
    · exact is_bound

end Environment.Extends

/-- A step touches no name but the targets of the statements. -/
theorem State.Step.extends {parts : List Stmt} {console : Console} {state after : State}
    (step : State.Step parts console state after) :
    state.environment.Extends (parts.filterMap Stmt.target?) after.environment := by
  cases step with
  | assigned inside _ _ => exact .set (List.mem_filterMap.2 ⟨_, inside, rfl⟩) _ _
  | printed | noted => exact .refl _ _

/-- A sequence of steps touches no name but the targets of the statements. -/
theorem State.extends_of_steps {parts : List Stmt} {console : Console} {state after : State}
    (steps : ReflTransGen (State.Step parts console) state after) :
    state.environment.Extends (parts.filterMap Stmt.target?) after.environment := by
  induction steps with
  | refl => exact .refl _ _
  | tail _ last ih => exact ih.trans last.extends

/-! ## What a run depends on -/

namespace Expr

/-- The value of an expression depends on the names that it reads only. -/
theorem evaluate_congr {expr : Expr} {one two : Environment}
    (same : ∀ name ∈ expr.names, one.get? name = two.get? name) :
    expr.evaluate one = expr.evaluate two := by
  induction expr with
  | number | text | boolean | nil | missing => rfl
  | name span word => rw [evaluate, evaluate, same word List.mem_cons_self]
  | unary span operator operand inner => rw [evaluate, evaluate, inner same]
  | binary span operator left right first second =>
    rw [names, List.forall_mem_append] at same
    rw [evaluate, evaluate, first same.1, second same.2]
  | paren span inner inside => exact inside same

end Expr

/-- States in which the same has happened and the given names have the same bindings. -/
structure State.Agree (names : List Bytes) (one two : State) : Prop where
  /-- The same was written, assigned and noted. -/
  trace : one.trace = two.trace
  /-- The names have the same bindings, or none in both. -/
  bindings : ∀ name ∈ names, one.environment.get? name = two.environment.get? name

namespace State.Agree

variable {names : List Bytes} {one two : State}

theorem record (agree : one.Agree names two) (event : Event) :
    (one.record event).Agree names (two.record event) :=
  ⟨congrArg (event :: ·) agree.trace, agree.bindings⟩

/-- Binding one of the names to one value keeps states in agreement, and the binding before is the
same, too. -/
theorem assign (agree : one.Agree names two) {name : Bytes} (member : name ∈ names)
    (value : Value) : (one.assign name value).Agree names (two.assign name value) where
  trace := by
    simp only [State.assign_eq, agree.trace, agree.bindings name member]
  bindings other among := by
    simp only [State.assign_eq, Environment.get?_set, agree.bindings other among]

end State.Agree

/-- Runs that end in the same way, with the same value or failure, in states that agree; or neither
ends. -/
inductive Outcome.Agree {α : Type} (names : List Bytes) : Outcome α → Outcome α → Prop where
  /-- Both have the same result. -/
  | done {value : α} {one two : State} (agree : one.Agree names two) :
      Agree names (.done value one) (.done value two)
  /-- Both fail for the same reason at the same place. -/
  | failed {failure : Failure} {one two : State} (agree : one.Agree names two) :
      Agree names (.failed failure one) (.failed failure two)
  /-- Both need more rounds. -/
  | unfinished : Agree names .unfinished .unfinished

/-- What goes on in agreement after runs that agree is in agreement. -/
theorem Outcome.Agree.andThen {α β : Type} {names : List Bytes} {left right : Outcome α}
    {next : α → State → Outcome β} (first : left.Agree names right)
    (second : ∀ value one two, one.Agree names two →
      (next value one).Agree names (next value two)) :
    (left.andThen next).Agree names (right.andThen next) := by
  cases first with
  | done agree => exact second _ _ _ agree
  | failed agree => exact .failed agree
  | unfinished => exact .unfinished

section Run

variable {names : List Bytes} {parts : List Stmt} {fuel : Nat} {console : Console}
  {one two : State}

/-- In states that agree on the names of a statement, its expressions have the same values. -/
theorem State.Agree.evaluate_eq {stmt : Stmt} {expr : Expr} (agree : one.Agree names two)
    (covered : stmt.names ⊆ names) (stands : expr ∈ stmt.exprs) :
    expr.evaluate one.environment = expr.evaluate two.environment := by
  refine Expr.evaluate_congr fun name occurs => agree.bindings name (covered ?_)
  exact List.mem_append_right _ (List.mem_flatMap.2 ⟨expr, stands, occurs⟩)

/-- In states that agree on the names of a statement, its conditions have the same truth. -/
theorem State.Agree.holds_eq {stmt : Stmt} {condition : Expr} (agree : one.Agree names two)
    (covered : stmt.names ⊆ names) (tested : condition ∈ stmt.conditions) :
    condition.holds one.environment = condition.holds two.environment := by
  have same := agree.evaluate_eq covered (stmt.conditions_subset_exprs tested)
  rw [Expr.holds, Expr.holds, same]

/-- An assignment runs in agreement. -/
theorem agree_assign {span : Span} {name : Bytes} {value : Expr} (agree : one.Agree names two)
    (covered : (Stmt.assign span name value).names ⊆ names) :
    (one.runAssignment name value).Agree names (two.runAssignment name value) := by
  have member : name ∈ names := covered List.mem_cons_self
  have stands : value ∈ (Stmt.assign span name value).exprs := List.mem_cons_self
  have same := agree.evaluate_eq covered stands
  rw [State.runAssignment, State.runAssignment, ← same]
  cases value.evaluate one.environment with
  | error failure => exact .failed agree
  | ok found =>
    cases found with
    | void => exact .failed agree
    | number | text | boolean | nil => exact .done (agree.assign member _)

/-- A console statement runs in agreement: the console sees the same trace and the same line. -/
theorem agree_console {span : Span} {value : Expr} (agree : one.Agree names two)
    (covered : (Stmt.console span value).names ⊆ names) :
    (one.runConsole console span value).Agree names (two.runConsole console span value) := by
  have stands : value ∈ (Stmt.console span value).exprs := List.mem_cons_self
  have same := agree.evaluate_eq covered stands
  rw [State.runConsole, State.runConsole, ← same, ← agree.trace]
  cases value.evaluate one.environment with
  | error failure => exact .failed agree
  | ok found =>
    dsimp only
    split
    · exact .done (agree.record _)
    · exact .failed agree

/-- A loop runs in agreement if its body does: both runs take the same number of rounds. -/
theorem agree_repeatWhile {stmt : Stmt} {condition : Expr} {body : State → Outcome Value}
    (covered : stmt.names ⊆ names) (tested : condition ∈ stmt.conditions)
    (round : ∀ one two, one.Agree names two → (body one).Agree names (body two)) (rounds : Nat)
    (agree : one.Agree names two) :
    (repeatWhile fuel (fun now => condition.holds now.environment) body rounds one).Agree names
      (repeatWhile fuel (fun now => condition.holds now.environment) body rounds two) := by
  induction fuel generalizing rounds one two with
  | zero => exact .unfinished
  | succ fuel ih =>
    rw [repeatWhile, repeatWhile, ← agree.holds_eq covered tested]
    cases condition.holds one.environment with
    | error failure => exact .failed agree
    | ok truth =>
      cases truth with
      | false => exact .done agree
      | true =>
        have once := round one two agree
        dsimp only
        generalize body one = left at once ⊢
        generalize body two = right at once ⊢
        cases once with
        | done after => exact ih (rounds + 1) after
        | failed after => exact .failed after
        | unfinished => exact .unfinished

mutual

/-- A statement runs in agreement. -/
theorem Stmt.agree (covered : ∀ stmt ∈ parts, stmt.names ⊆ names) : (stmt : Stmt) →
    stmt.parts ⊆ parts → ∀ one two, one.Agree names two →
      (stmt.run fuel console one).Agree names (stmt.run fuel console two)
  | .assign _ _ _, inside, one, two, agree => by
    rw [Stmt.run, Stmt.run]
    exact agree_assign agree (covered _ (inside List.mem_cons_self))
  | .console _ _, inside, one, two, agree => by
    rw [Stmt.run, Stmt.run]
    exact agree_console agree (covered _ (inside List.mem_cons_self))
  | .conditional span branches otherwise, inside, one, two, agree => by
    obtain ⟨here, nested⟩ := List.cons_subset.1 inside
    obtain ⟨in_branches, in_otherwise⟩ := List.append_subset.1 nested
    have chosen := agreeBranches covered branches here (fun _ member => member) in_branches 0 one
      two agree
    rw [Stmt.run, Stmt.run]
    refine chosen.andThen ?_
    intro taken one two after
    cases taken with
    | true => exact .done after
    | false => exact otherwise.agreeLast covered in_otherwise one two after
  | .loop span condition body, inside, one, two, agree => by
    obtain ⟨here, nested⟩ := List.cons_subset.1 inside
    rw [Stmt.run, Stmt.run]
    refine (agree_repeatWhile (covered _ here) List.mem_cons_self (body.agree covered nested) 0
      agree).andThen ?_
    intro rounds one two after
    exact .done (after.record _)
  | .block _ stmts, inside, one, two, agree => by
    rw [Stmt.run, Stmt.run]
    exact agreeAll covered stmts (List.cons_subset.1 inside).2 .void one two agree

/-- Statements run in agreement. -/
theorem agreeAll (covered : ∀ stmt ∈ parts, stmt.names ⊆ names) :
    (stmts : List Stmt) → stmtParts stmts ⊆ parts → ∀ (result : Value) (one two : State),
      one.Agree names two →
      (runAll fuel console stmts result one).Agree names (runAll fuel console stmts result two)
  | [], _, _, _, _, agree => by
    rw [runAll, runAll]
    exact .done agree
  | stmt :: stmts, inside, _, one, two, agree => by
    obtain ⟨in_first, in_others⟩ := List.append_subset.1 inside
    rw [runAll, runAll]
    exact (stmt.agree covered in_first one two agree).andThen (agreeAll covered stmts in_others)

/-- The branches of a conditional run in agreement: the same one is taken in both runs. -/
theorem agreeBranches (covered : ∀ stmt ∈ parts, stmt.names ⊆ names) {owner : Stmt} :
    (branches : List Branch) → owner ∈ parts → branches.map Branch.condition ⊆ owner.conditions →
    branchParts branches ⊆ parts → ∀ (index : Nat) (one two : State), one.Agree names two →
      (runBranches fuel console branches index one).Agree names
        (runBranches fuel console branches index two)
  | [], _, _, _, _, _, _, agree => by
    rw [runBranches, runBranches]
    exact .done agree
  | .mk span condition body :: branches, owned, tested, inside, index, one, two, agree => by
    obtain ⟨here, others⟩ := List.cons_subset.1 tested
    obtain ⟨in_body, in_others⟩ := List.append_subset.1 inside
    have same : condition.holds one.environment = condition.holds two.environment :=
      agree.holds_eq (covered _ owned) here
    rw [runBranches, runBranches, ← same]
    cases condition.holds one.environment with
    | error failure => exact .failed agree
    | ok truth =>
      cases truth with
      | true =>
        refine (body.agree covered in_body _ _ (agree.record _)).andThen ?_
        intro _ _ _ after
        exact .done after
      | false =>
        exact agreeBranches covered branches owned others in_others (index + 1) one two agree

/-- The last block of a conditional runs in agreement. -/
theorem Block.agreeLast (covered : ∀ stmt ∈ parts, stmt.names ⊆ names) : (body : Block) →
    body.parts ⊆ parts → ∀ one two, one.Agree names two →
      (runOtherwise fuel console body one).Agree names (runOtherwise fuel console body two)
  | .absent, _, _, _, agree => by
    rw [runOtherwise, runOtherwise]
    exact .done agree
  | .present span stmts, inside, one, two, agree => by
    rw [runOtherwise, runOtherwise]
    refine (agreeAll covered stmts inside .void _ _ (agree.record _)).andThen ?_
    intro _ _ _ after
    exact .done after

/-- A block runs in agreement. -/
theorem Block.agree (covered : ∀ stmt ∈ parts, stmt.names ⊆ names) : (body : Block) →
    body.parts ⊆ parts → ∀ one two, one.Agree names two →
      (body.run fuel console one).Agree names (body.run fuel console two)
  | .absent, _, _, _, agree => by
    rw [Block.run, Block.run]
    exact .done agree
  | .present _ stmts, inside, one, two, agree => by
    rw [Block.run, Block.run]
    exact agreeAll covered stmts inside .void one two agree

end

end Run

/-- Any part of a program runs in agreement from states that agree on its names. -/
theorem Node.agree (node : Node) {fuel : Nat} {console : Console} {one two : State}
    (agree : one.Agree node.names two) :
    (node.run fuel console one).Agree node.names (node.run fuel console two) := by
  have covered : ∀ stmt ∈ node.parts, stmt.names ⊆ node.parts.flatMap Stmt.names :=
    fun stmt member _ occurs => List.mem_flatMap.2 ⟨stmt, member, occurs⟩
  cases node with
  | program whole => exact agreeAll covered whole.stmts (List.Subset.refl _) .void one two agree
  | stmt single => exact single.agree covered (List.Subset.refl _) one two agree
  | expr single =>
    rw [run, run, Expr.evaluate_congr agree.bindings]
    cases single.evaluate two.environment with
    | ok value => exact .done agree
    | error failure => exact .failed agree
  | missing => exact .failed agree

/-- **A run keeps to the names of its program.** Whatever part of a program is run, on any console:
when the run ends, with a result or a failure, every name that is assigned nowhere in the program
has the binding that it had, or none as before, and every name that was bound still is. Two runs
that start with the same bindings of the names occurring in the program have the same result or
failure, write, assign and note the same, and end with the same bindings of these names; and if one
of them does not end, neither does the other. -/
theorem run_keeps_to_names (node : Node) (fuel : Nat) (console : Console) :
    (∀ state after, (node.run fuel console state).state? = some after →
      state.environment.Extends node.targets after.environment) ∧
    ∀ one two : State, one.Agree node.names two →
      (node.run fuel console one).Agree node.names (node.run fuel console two) := by
  constructor
  · intro state after ends
    exact State.extends_of_steps (node.steps ends)
  · intro one two agree
    exact node.agree agree

/-- The loop `while y { console y  z = y  y = false }`. -/
def singleRound : Node :=
  .stmt (.loop .unset (.name .unset [0x79]) (.present .unset
    [.console .unset (.name .unset [0x79]), .assign .unset [0x7a] (.name .unset [0x79]),
      .assign .unset [0x79] (.boolean .unset false)]))

/-- A variable that does not occur in a loop makes no difference to it, and keeps its value. -/
theorem run_keeps_to_names_loop :
    let one := Environment.empty.set [0x79] (.boolean true)
    let two := one.set [0x77] .nil
    ∃ first second, singleRound.run 2 .unlimited (.start one) = .done .void first ∧
      singleRound.run 2 .unlimited (.start two) = .done .void second ∧
      first.lines = [Bytes.utf8 "true"] ∧ first.Agree singleRound.names second ∧
      two.Extends singleRound.targets second.environment := by
  intro one two
  have agree : (State.start one).Agree singleRound.names (.start two) := ⟨rfl, by decide⟩
  have runs := run_keeps_to_names singleRound 2 .unlimited
  refine ⟨_, _, rfl, rfl, by decide, ?_, runs.1 (.start two) _ rfl⟩
  cases runs.2 _ _ agree with
  | done together => exact together

end ConsoleScript
