import ConsoleScript.Proofs.ExpressionRules

/-! # The order of evaluation

Evaluation is strict: the operands of an operator are evaluated from left to right and all of them,
whatever the first one turns out to be, and only then the operator is applied. So the first
expression without a value, in this order, says how the whole fails.

* **`Expr.order`** — the expressions in an expression in the order of their evaluation;
* **`Expr.mentions`** — the names in it with their places, from left to right;
* **`Expr.Yield`** — expressions that are evaluated one after the other yield a result: all of them
  have values, or the first one that has none fails in this way;
* **`Evaluates.yield_order`** — an expression evaluates to what its order yields, rule by rule.

`evaluation_strict` says what this means for the names. -/

namespace ConsoleScript

namespace Expr

/-- An expression and the expressions in it in the order of their evaluation: operands from left to
right, every operator behind its operands. -/
def order : Expr → List Expr
  | unary span operator operand => operand.order ++ [unary span operator operand]
  | binary span operator left right =>
    left.order ++ (right.order ++ [binary span operator left right])
  | paren span inner => inner.order ++ [paren span inner]
  | leaf => [leaf]

/-- The names in an expression with their places, from left to right. -/
def mentions : Expr → List (Span × Bytes)
  | name span word => [(span, word)]
  | unary _ _ operand => operand.mentions
  | binary _ _ left right => left.mentions ++ right.mentions
  | paren _ inner => inner.mentions
  | _ => []

/-- The name that an expression is, with its place. -/
def mention? : Expr → Option (Span × Bytes)
  | name span word => some (span, word)
  | _ => none

/-- Names are looked up in the order in which they are written. -/
theorem filterMap_order (expr : Expr) : expr.order.filterMap mention? = expr.mentions := by
  induction expr with
  | number | text | boolean | nil | name | missing => rfl
  | unary _ _ _ inner => simp [order, mentions, mention?, inner]
  | binary _ _ _ _ one two => simp [order, mentions, mention?, one, two]
  | paren _ _ inside => simp [order, mentions, mention?, inside]

/-- Every expression of a list has a value. -/
def AllValued (environment : Environment) (parts : List Expr) : Prop :=
  ∀ part ∈ parts, ∃ value, part.evaluate environment = .ok value

/-- Names with values are bound. -/
theorem AllValued.bound {environment : Environment} {parts : List Expr}
    (valued : AllValued environment parts) :
    ∀ mention ∈ parts.filterMap mention?, (environment.get? mention.2).isSome := by
  rintro ⟨span, word⟩ among
  obtain ⟨part, member, same⟩ := List.mem_filterMap.1 among
  cases part <;> cases same
  obtain ⟨value, evaluated⟩ := valued _ member
  cases evaluates_iff.2 evaluated with
  | name bound => exact Option.isSome_of_eq_some bound

/-- A failure of an expression whose operands have values: if a name is not bound, it is that
name. -/
structure FailsAlone (environment : Environment) (failure : Failure) (culprit : Expr) : Prop where
  /-- The expression fails in this way. -/
  fails : culprit.evaluate environment = .error failure
  /-- Only a name can be undeclared, and it is the one that fails. -/
  named : ∀ word, failure.fault = .undeclared word → culprit = .name failure.span word

/-- What expressions yield that are evaluated one after the other until one fails. -/
def Yield (environment : Environment) (parts : List Expr) : Except Failure Value → Prop
  | .ok _ => AllValued environment parts
  | .error failure => ∃ before culprit after, parts = before ++ culprit :: after ∧
      AllValued environment before ∧ FailsAlone environment failure culprit

variable {environment : Environment} {parts more : List Expr} {result : Except Failure Value}

/-- Behind a failure nothing is evaluated. -/
theorem Yield.stop {failure : Failure} (first : Yield environment parts (.error failure))
    (more : List Expr) : Yield environment (parts ++ more) (.error failure) := by
  obtain ⟨before, culprit, after, rfl, valued, alone⟩ := first
  exact ⟨before, culprit, after ++ more, by simp, valued, alone⟩

/-- Behind values the evaluation goes on. -/
theorem AllValued.andThen (first : AllValued environment parts)
    (second : Yield environment more result) : Yield environment (parts ++ more) result := by
  cases result with
  | ok value => exact List.forall_mem_append.2 ⟨first, second⟩
  | error failure =>
    obtain ⟨before, culprit, after, rfl, valued, alone⟩ := second
    exact ⟨parts ++ before, culprit, after, by simp, List.forall_mem_append.2 ⟨first, valued⟩,
      alone⟩

/-- An expression by itself. -/
theorem yield_singleton {expr : Expr} (evaluated : Evaluates environment expr result)
    (named : ∀ failure, result = .error failure → ∀ word, failure.fault = .undeclared word →
      expr = .name failure.span word) : Yield environment [expr] result := by
  cases result with
  | ok value => exact List.forall_mem_singleton.2 ⟨value, evaluated.evaluate_eq⟩
  | error failure =>
    exact ⟨[], expr, [], rfl, by simp [AllValued], evaluated.evaluate_eq, named failure rfl⟩

end Expr

/-! ## Rule by rule -/

/-- No unary operator looks up a name. -/
theorem Transforms.fault_ne {span : Span} {operand : Expr} {operator : UnaryOperator}
    {value : Value} {failure : Failure}
    (applied : Transforms span operand operator value (.error failure)) (word : Bytes) :
    failure.fault ≠ .undeclared word := by
  cases applied with
  | negateOther | invertOther | unknown => exact fun same => by cases same

/-- No binary operator looks up a name. -/
theorem Combines.fault_ne {span : Span} {left right : Expr} {operator : BinaryOperator}
    {first second : Value} {failure : Failure}
    (applied : Combines span left right operator first second (.error failure)) (word : Bytes) :
    failure.fault ≠ .undeclared word := by
  cases applied with
  | leftNoNumber | rightNoNumber | leftNoBoolean | rightNoBoolean | unknown =>
    exact fun same => by cases same

/-- An expression evaluates to what its order yields. -/
theorem Evaluates.yield_order {environment : Environment} {expr : Expr}
    {result : Except Failure Value} (evaluated : Evaluates environment expr result) :
    Expr.Yield environment expr.order result := by
  induction evaluated with
  | number | text | boolean | nil | name =>
    refine Expr.yield_singleton (by constructor <;> assumption) ?_
    intro failure same
    cases same
  | undeclared unbound =>
    refine Expr.yield_singleton (.undeclared unbound) ?_
    intro failure same word named
    cases same
    cases named
    rfl
  | missing =>
    refine Expr.yield_singleton .missing ?_
    intro failure same word named
    cases same
    cases named
  | unary inner applied operand =>
    -- The operand has a value, so only the operator can fail.
    refine Expr.AllValued.andThen operand (Expr.yield_singleton (.unary inner applied) ?_)
    rintro failure rfl word named
    exact absurd named (applied.fault_ne word)
  | unaryFails _ operand => exact operand.stop _
  | binary one two applied left right =>
    refine Expr.AllValued.andThen left (Expr.AllValued.andThen right
      (Expr.yield_singleton (.binary one two applied) ?_))
    rintro failure rfl word named
    exact absurd named (applied.fault_ne word)
  -- Only a failure of the left operand keeps the right one from being looked at.
  | leftFails _ left => exact left.stop _
  | rightFails _ _ left right => exact Expr.AllValued.andThen left (right.stop _)
  | @paren span inner result inside whole =>
    -- Parentheses stand behind what is in them, and fail only if that does.
    cases result with
    | error failure => exact whole.stop _
    | ok value =>
      refine Expr.AllValued.andThen whole (Expr.yield_singleton (.paren inside) ?_)
      intro failure same
      cases same

/-! ## Names -/

/-- **Evaluation is strict, from left to right.** If an expression has a value, then every name in
it is bound, also behind a conjunction or disjunction that its left operand decides. If it fails
because a name is not bound, then this name stands at the reported place, it is not bound, and every
name to its left is. And whatever the failure is, in the order of evaluation everything in front of
the expression that fails has a value. -/
theorem evaluation_strict (environment : Environment) (expr : Expr) :
    (∀ value, expr.evaluate environment = .ok value →
      ∀ mention ∈ expr.mentions, (environment.get? mention.2).isSome) ∧
    (∀ word span, expr.evaluate environment = .error ⟨.undeclared word, span⟩ →
      ∃ before after, expr.mentions = before ++ (span, word) :: after ∧
        environment.get? word = none ∧
        ∀ mention ∈ before, (environment.get? mention.2).isSome) ∧
    (∀ failure, expr.evaluate environment = .error failure →
      ∃ before culprit after, expr.order = before ++ culprit :: after ∧
        Expr.AllValued environment before ∧ culprit.evaluate environment = .error failure) := by
  refine ⟨?_, ?_, ?_⟩
  · intro value evaluated
    have valued : Expr.AllValued environment expr.order := (evaluates_iff.2 evaluated).yield_order
    exact expr.filterMap_order ▸ valued.bound
  · intro word span evaluated
    obtain ⟨before, culprit, after, parts, valued, alone⟩ := (evaluates_iff.2 evaluated).yield_order
    obtain rfl : culprit = .name span word := alone.named word rfl
    have unbound : environment.get? word = none := by
      cases evaluates_iff.2 alone.fails with
      | undeclared unbound => exact unbound
    refine ⟨before.filterMap Expr.mention?, after.filterMap Expr.mention?, ?_, unbound,
      valued.bound⟩
    rw [← expr.filterMap_order, parts, List.filterMap_append]
    rfl
  · intro failure evaluated
    obtain ⟨before, culprit, after, parts, valued, alone⟩ := (evaluates_iff.2 evaluated).yield_order
    exact ⟨before, culprit, after, parts, valued, alone.fails⟩

/-- The expression `x and y`, its names in the columns 1 and 7. -/
def conjunction : Expr :=
  let place (column : Int) : Span := ⟨⟨[], column - 1, 1, column⟩, ⟨[], column, 1, column + 1⟩⟩
  .binary ⟨(place 1).start, (place 7).stop⟩ .both (.name (place 1) [0x78]) (.name (place 7) [0x79])

/-- Where `x` is false the conjunction is decided, but `y` is looked up all the same: unbound it is
reported at its place, bound to nil it is reported as no truth value, and otherwise the conjunction
has a value and both names are bound. -/
theorem evaluation_strict_conjunction :
    let one := Environment.empty.set [0x78] (.boolean false)
    let two := one.set [0x79] .nil
    let three := one.set [0x79] (.boolean true)
    (conjunction.evaluate three = .ok (.boolean false) ∧
      ∀ mention ∈ conjunction.mentions, (three.get? mention.2).isSome) ∧
    (∃ span before after, conjunction.evaluate one = .error ⟨.undeclared [0x79], span⟩ ∧
      span.start.column = 7 ∧ conjunction.mentions = before ++ (span, [0x79]) :: after ∧
      one.get? [0x79] = none ∧ ∀ mention ∈ before, (one.get? mention.2).isSome) ∧
    (∃ span before culprit after,
      conjunction.evaluate two = .error ⟨.mismatch .boolean (some .nil), span⟩ ∧
      conjunction.order = before ++ culprit :: after ∧ Expr.AllValued two before ∧
      culprit.evaluate two = .error ⟨.mismatch .boolean (some .nil), span⟩) := by
  intro one two three
  have valued := (evaluation_strict three conjunction).1 (.boolean false) rfl
  obtain ⟨before, after, names, unbound, bound⟩ := (evaluation_strict one conjunction).2.1 _ _ rfl
  obtain ⟨front, culprit, rest, parts, all, fails⟩ := (evaluation_strict two conjunction).2.2 _ rfl
  exact ⟨⟨rfl, valued⟩, ⟨_, before, after, rfl, rfl, names, unbound, bound⟩,
    ⟨_, front, culprit, rest, rfl, parts, all, fails⟩⟩

end ConsoleScript
