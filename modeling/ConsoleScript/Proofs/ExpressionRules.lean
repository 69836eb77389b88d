import ConsoleScript.Proofs.BigStep

/-! # Expressions follow the rules

Evaluating an expression gives exactly what the rules of evaluation derive for it.

* **`unquotes_iff`** — a literal is read by its rules;
* **`transforms_applyUnary`**, **`combines_applyBinary`** — applying an operator to values follows
  its rules, and `Transforms.applyUnary_eq`, `Combines.applyBinary_eq` say that there are no others;
* **`evaluates_iff`**, **`tests_iff`** — expressions and conditions, by induction on the tree one
  way and on the derivation the other. -/

namespace ConsoleScript

/-! ## Text literals -/

/-- Joining quotes follows the rules. -/
theorem joins_joinQuotes (raw : Bytes) : Joins raw raw.joinQuotes := by
  induction raw using Bytes.joinQuotes.induct with
  | case1 => exact .nil
  | case2 rest ih => exact .doubled ih
  | case3 byte rest other ih =>
    by_cases quote : byte = 0x22
    · subst quote
      have single : rest.head? ≠ some 0x22 := by
        intro follows
        obtain ⟨others, rfl⟩ := List.head?_eq_some_iff.1 follows
        exact other others rfl rfl
      rw [Bytes.joinQuotes_quote single]
      exact .quote single ih
    · rw [Bytes.joinQuotes_cons_of_ne quote]
      exact .byte quote ih

/-- The rules of joining quotes leave one text. -/
theorem Joins.joinQuotes_eq {raw text : Bytes} (joined : Joins raw text) :
    raw.joinQuotes = text := by
  induction joined with
  | nil => rfl
  | doubled _ ih => rw [Bytes.joinQuotes, ih]
  | quote single _ ih => rw [Bytes.joinQuotes_quote single, ih]
  | byte no_quote _ ih => rw [Bytes.joinQuotes_cons_of_ne no_quote, ih]

/-- The rules of a literal give exactly the text that is read. -/
theorem unquotes_iff {raw text : Bytes} : Unquotes raw text ↔ raw.unquoteLiteral = text := by
  constructor
  · intro unquoted
    cases unquoted with
    | enclosed inside => rw [Bytes.unquoteLiteral_enclosed, inside.joinQuotes_eq]
    | bare bare joined => rw [Bytes.unquoteLiteral_of_bare bare, joined.joinQuotes_eq]
  · rintro rfl
    by_cases enclosed : ∃ body : Bytes, raw = 0x22 :: body ++ [0x22]
    · obtain ⟨body, rfl⟩ := enclosed
      rw [Bytes.unquoteLiteral_enclosed]
      exact .enclosed (joins_joinQuotes body)
    · have bare : ∀ body, raw ≠ 0x22 :: body ++ [0x22] := not_exists.1 enclosed
      rw [Bytes.unquoteLiteral_of_bare bare]
      exact .bare bare (joins_joinQuotes raw)

/-! ## Operators -/

namespace Value

theorem asNumber_of_kind_ne {value : Value} (other : value.kind ≠ .number) :
    asNumber (some value) = .error (.mismatch .number (some value.kind)) := by
  cases value with
  | number => exact absurd rfl other
  | text | boolean | nil | void => rfl

theorem asBoolean_of_kind_ne {value : Value} (other : value.kind ≠ .boolean) :
    asBoolean (some value) = .error (.mismatch .boolean (some value.kind)) := by
  cases value with
  | boolean => exact absurd rfl other
  | number | text | nil | void => rfl

theorem add_of_not_numbers {first second : Value}
    (texts : ¬(first.kind = .number ∧ second.kind = .number)) :
    first.add second = .text (first.display ++ second.display) := by
  unfold add
  split
  · exact absurd ⟨rfl, rfl⟩ texts
  · rfl

theorem equals_of_not_numbers {first second : Value}
    (others : ¬(first.kind = .number ∧ second.kind = .number)) :
    first.equals second = first.same second := by
  unfold equals
  split
  · exact absurd ⟨rfl, rfl⟩ others
  · rfl

theorem differs_of_not_numbers {first second : Value}
    (others : ¬(first.kind = .number ∧ second.kind = .number)) :
    first.differs second = !first.same second := by
  unfold differs
  split
  · exact absurd ⟨rfl, rfl⟩ others
  · rfl

end Value

namespace BinaryOperator

theorem demand_of_numeric {operator : BinaryOperator} (member : operator ∈ numeric) :
    ∃ apply, operator.demand = .numbers apply := by
  cases operator <;> simp [numeric, demand] at member ⊢

theorem demand_of_logical {operator : BinaryOperator} (member : operator ∈ logical) :
    ∃ apply, operator.demand = .booleans apply := by
  cases operator <;> simp [logical, demand] at member ⊢

end BinaryOperator

section Operators

variable {span : Span} {operand left right : Expr}

/-- Applying a unary operator follows its rules. -/
theorem transforms_applyUnary (operator : UnaryOperator) (value : Value) :
    Transforms span operand operator value (Expr.applyUnary span operator operand value) := by
  cases operator with
  | negate =>
    cases value with
    | number => exact .negate
    | text | boolean | nil | void => exact .negateOther (by simp [Value.kind])
  | invert =>
    cases value with
    | boolean => exact .invert
    | number | text | nil | void => exact .invertOther (by simp [Value.kind])
  | unknown => exact .unknown

/-- The rules of a unary operator are those by which it is applied. -/
theorem Transforms.applyUnary_eq {operator : UnaryOperator} {value : Value}
    {result : Except Failure Value} (applied : Transforms span operand operator value result) :
    Expr.applyUnary span operator operand value = result := by
  cases applied with
  | negate | invert | unknown => rfl
  | negateOther other =>
    rw [Expr.applyUnary, Value.asNumber_of_kind_ne other]
    rfl
  | invertOther other =>
    rw [Expr.applyUnary, Value.asBoolean_of_kind_ne other]
    rfl

/-- Applying an operator on two numbers follows the rules. -/
theorem combines_numbers {operator : BinaryOperator} {apply : Float → Float → Value}
    (demands : operator.demand = .numbers apply) (member : operator ∈ BinaryOperator.numeric)
    (calculates : ∀ one two, Calculates operator one two (apply one two)) (first second : Value) :
    Combines span left right operator first second
      (Expr.applyBinary span operator left right first second) := by
  simp only [Expr.applyBinary, demands]
  -- The left operand is looked at first, so it is the one that is reported if both are wrong.
  cases first with
  | number one =>
    cases second with
    | number two => exact .numbers (calculates one two)
    | text | boolean | nil | void => exact .rightNoNumber member (by simp [Value.kind])
  | text | boolean | nil | void => exact .leftNoNumber member (by simp [Value.kind])

/-- Applying an operator on two truth values follows the rules. -/
theorem combines_booleans {operator : BinaryOperator} {apply : Bool → Bool → Bool}
    (demands : operator.demand = .booleans apply) (member : operator ∈ BinaryOperator.logical)
    (decides : ∀ one two, Decides operator one two (apply one two)) (first second : Value) :
    Combines span left right operator first second
      (Expr.applyBinary span operator left right first second) := by
  simp only [Expr.applyBinary, demands]
  cases first with
  | boolean one =>
    cases second with
    | boolean two => exact .booleans (decides one two)
    | number | text | nil | void => exact .rightNoBoolean member (by simp [Value.kind])
  | number | text | nil | void => exact .leftNoBoolean member (by simp [Value.kind])

/-- Two values are both numbers, or not. -/
theorem Value.numbers_or_not (first second : Value) :
    (∃ one two, first = .number one ∧ second = .number two) ∨
      ¬(first.kind = .number ∧ second.kind = .number) := by
  cases first with
  | number one =>
    cases second with
    | number two => exact .inl ⟨one, two, rfl, rfl⟩
    | text | boolean | nil | void => exact .inr (by simp [Value.kind])
  | text | boolean | nil | void => exact .inr (by simp [Value.kind])

/-- Applying a binary operator follows its rules. -/
theorem combines_applyBinary (operator : BinaryOperator) (first second : Value) :
    Combines span left right operator first second
      (Expr.applyBinary span operator left right first second) := by
  cases operator with
  | add =>
    rcases first.numbers_or_not second with ⟨one, two, rfl, rfl⟩ | texts
    · exact .addNumbers
    · have joined : Combines span left right .add first second _ := .addTexts texts
      rwa [← Value.add_of_not_numbers texts] at joined
  | equal =>
    rcases first.numbers_or_not second with ⟨one, two, rfl, rfl⟩ | others
    · exact .equalNumbers
    · have compared : Combines span left right .equal first second _ := .equalOthers others
      rwa [← Value.equals_of_not_numbers others] at compared
  | notEqual =>
    rcases first.numbers_or_not second with ⟨one, two, rfl, rfl⟩ | others
    · exact .notEqualNumbers
    · have compared : Combines span left right .notEqual first second _ := .notEqualOthers others
      rwa [← Value.differs_of_not_numbers others] at compared
  | both => exact combines_booleans rfl (by decide) (fun _ _ => .both) first second
  | either => exact combines_booleans rfl (by decide) (fun _ _ => .either) first second
  | power => exact combines_numbers rfl (by decide) (fun _ _ => .power) first second
  | multiply => exact combines_numbers rfl (by decide) (fun _ _ => .multiply) first second
  | divide => exact combines_numbers rfl (by decide) (fun _ _ => .divide) first second
  | remainder => exact combines_numbers rfl (by decide) (fun _ _ => .remainder) first second
  | subtract => exact combines_numbers rfl (by decide) (fun _ _ => .subtract) first second
  | less => exact combines_numbers rfl (by decide) (fun _ _ => .less) first second
  | lessEqual => exact combines_numbers rfl (by decide) (fun _ _ => .lessEqual) first second
  | greater => exact combines_numbers rfl (by decide) (fun _ _ => .greater) first second
  | greaterEqual => exact combines_numbers rfl (by decide) (fun _ _ => .greaterEqual) first second
  | unknown => exact .unknown

/-- The rules of a binary operator are those by which it is applied. -/
theorem Combines.applyBinary_eq {operator : BinaryOperator} {first second : Value}
    {result : Except Failure Value}
    (applied : Combines span left right operator first second result) :
    Expr.applyBinary span operator left right first second = result := by
  cases applied with
  | addNumbers | equalNumbers | notEqualNumbers | unknown => rfl
  | addTexts texts =>
    show Except.ok (first.add second) = _
    rw [Value.add_of_not_numbers texts]
  | equalOthers others =>
    show Except.ok (Value.boolean (first.equals second)) = _
    rw [Value.equals_of_not_numbers others]
  | notEqualOthers others =>
    show Except.ok (Value.boolean (first.differs second)) = _
    rw [Value.differs_of_not_numbers others]
  | numbers result => cases result <;> rfl
  | booleans result => cases result <;> rfl
  | leftNoNumber member other =>
    obtain ⟨apply, demands⟩ := BinaryOperator.demand_of_numeric member
    simp only [Expr.applyBinary, demands, Value.asNumber_of_kind_ne other]
    rfl
  | rightNoNumber member other =>
    obtain ⟨apply, demands⟩ := BinaryOperator.demand_of_numeric member
    simp only [Expr.applyBinary, demands, Value.asNumber_of_kind_ne other]
    rfl
  | leftNoBoolean member other =>
    obtain ⟨apply, demands⟩ := BinaryOperator.demand_of_logical member
    simp only [Expr.applyBinary, demands, Value.asBoolean_of_kind_ne other]
    rfl
  | rightNoBoolean member other =>
    obtain ⟨apply, demands⟩ := BinaryOperator.demand_of_logical member
    simp only [Expr.applyBinary, demands, Value.asBoolean_of_kind_ne other]
    rfl

end Operators

/-! ## Expressions and conditions -/

namespace Expr

/-- The value of an expression follows the rules. -/
theorem evaluates (environment : Environment) (expr : Expr) :
    Evaluates environment expr (expr.evaluate environment) := by
  induction expr with
  | number => exact .number
  | text => exact .text (unquotes_iff.2 rfl)
  | boolean => exact .boolean
  | nil => exact .nil
  | name span word =>
    rw [evaluate]
    cases bound : environment.get? word with
    | some value => exact .name bound
    | none => exact .undeclared bound
  | unary span operator operand inner =>
    rw [evaluate]
    cases value : operand.evaluate environment with
    | ok value =>
      rw [value] at inner
      exact .unary inner (transforms_applyUnary operator _)
    | error failure =>
      rw [value] at inner
      exact .unaryFails inner
  | binary span operator left right one two =>
    rw [evaluate]
    -- The right operand is evaluated whatever the left one's value is.
    cases first : left.evaluate environment with
    | ok first_value =>
      rw [first] at one
      cases second : right.evaluate environment with
      | ok second_value =>
        rw [second] at two
        exact .binary one two (combines_applyBinary operator _ _)
      | error failure =>
        rw [second] at two
        exact .rightFails one two
    | error failure =>
      rw [first] at one
      exact .leftFails one
  | paren span inner inside => exact .paren inside
  | missing => exact .missing

end Expr

/-- What the rules derive for an expression is its value. -/
theorem Evaluates.evaluate_eq {environment : Environment} {expr : Expr}
    {result : Except Failure Value} (evaluated : Evaluates environment expr result) :
    expr.evaluate environment = result := by
  induction evaluated with
  | number | boolean | nil | missing => rfl
  | text unquoted => rw [Expr.evaluate, unquotes_iff.1 unquoted]
  | name bound | undeclared bound => rw [Expr.evaluate, bound]
  | unary _ applied inner =>
    rw [Expr.evaluate, inner]
    exact applied.applyUnary_eq
  | unaryFails _ inner =>
    rw [Expr.evaluate, inner]
    rfl
  | binary _ _ applied one two =>
    rw [Expr.evaluate, one, two]
    exact applied.applyBinary_eq
  | leftFails _ one =>
    rw [Expr.evaluate, one]
    rfl
  | rightFails _ _ one two =>
    rw [Expr.evaluate, one, two]
    rfl
  | paren _ inside => exact inside

/-- An expression evaluates by the rules to exactly its value. -/
theorem evaluates_iff {environment : Environment} {expr : Expr} {result : Except Failure Value} :
    Evaluates environment expr result ↔ expr.evaluate environment = result := by
  constructor
  · exact Evaluates.evaluate_eq
  · rintro rfl
    exact expr.evaluates environment

/-- Testing a condition by the rules gives exactly its truth. -/
theorem tests_iff {environment : Environment} {condition : Expr} {result : Except Failure Bool} :
    Tests environment condition result ↔ condition.holds environment = result := by
  constructor
  · intro tested
    rw [Expr.holds]
    cases tested with
    | truth evaluated | fails evaluated =>
      rw [evaluated.evaluate_eq]
      rfl
    | other evaluated other =>
      rw [evaluated.evaluate_eq]
      show Fault.locate condition.span (Value.asBoolean (some _)) = _
      rw [Value.asBoolean_of_kind_ne other]
      rfl
  · rintro rfl
    have evaluated := condition.evaluates environment
    rw [Expr.holds]
    cases value : condition.evaluate environment with
    | error failure =>
      rw [value] at evaluated
      exact .fails evaluated
    | ok result =>
      rw [value] at evaluated
      cases result with
      | boolean truth => exact .truth evaluated
      | number | text | nil | void => exact .other evaluated (by simp [Value.kind])

end ConsoleScript
