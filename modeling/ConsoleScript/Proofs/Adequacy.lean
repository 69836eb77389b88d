import ConsoleScript.Proofs.ExpressionRules

/-! # Evaluation follows the rules

Evaluating a part of a program ends with an outcome exactly if the rules derive that outcome.

* **`State.observed`** — what a state shows to the rules; the notes about the control flow are left
  out, and `Console.ofWriter_unlimited`, `Console.ofWriter_limited` say that a console needs no
  more;
* **`Stmt.sound`** — what a run shows is derived, by recursion on the statement; a loop adds one
  rule for each round that its bound allows;
* **`Runs.complete`** — what is derived is what every run with enough rounds shows: `Settles` says
  that from some number of rounds on the outcome stays the same, so the numbers that the parts of a
  statement need can be joined by their maximum. -/

namespace ConsoleScript

/-! ## Observations of a run -/

namespace State

/-- What can be observed of a state. -/
def observed (state : State) : Observation where
  environment := state.environment
  lines := state.lines
  assignments := state.events.filterMap Event.assignment?

@[simp] theorem environment_observed (state : State) :
    state.observed.environment = state.environment := rfl

@[simp] theorem observed_assign (state : State) (name : Bytes) (value : Value) :
    (state.assign name value).observed = state.observed.bind name value := by
  simp [observed, assign, Observation.bind, lines, events, Event.line?, Event.assignment?]

@[simp] theorem observed_record_printed (state : State) (line : Bytes) :
    (state.record (.printed line)).observed = state.observed.print line := by
  simp [observed, record, Observation.print, lines, events, Event.line?, Event.assignment?]

/-- Notes about the control flow cannot be observed. -/
theorem observed_record {event : Event} (unseen : event.line? = none)
    (quiet : event.assignment? = none) (state : State) :
    (state.record event).observed = state.observed := by
  simp [observed, record, lines, events, unseen, quiet]

@[simp] theorem observed_record_branchTaken (state : State) (index : Nat) (position : Position) :
    (state.record (.branchTaken index position)).observed = state.observed :=
  observed_record rfl rfl state

@[simp] theorem observed_record_otherwiseTaken (state : State) (position : Position) :
    (state.record (.otherwiseTaken position)).observed = state.observed :=
  observed_record rfl rfl state

@[simp] theorem observed_record_loopFinished (state : State) (rounds : Nat) (position : Position) :
    (state.record (.loopFinished rounds position)).observed = state.observed :=
  observed_record rfl rfl state

end State

namespace Console

/-- A console that looks at the lines only. -/
def ofWriter (writer : Writer) : Console :=
  fun trace line => writer (trace.reverse.filterMap Event.line?) line

theorem ofWriter_trace (writer : Writer) (state : State) (line : Bytes) :
    ofWriter writer state.trace line = writer state.observed.lines line := rfl

theorem ofWriter_unlimited : ofWriter (fun _ _ => true) = unlimited := rfl

/-- The number of bytes of lines does not depend on their order. -/
theorem foldl_length_reverse (lines : List Bytes) (total : Nat) :
    lines.reverse.foldl (fun total line => total + line.length + 1) total
      = lines.foldl (fun total line => total + line.length + 1) total := by
  induction lines generalizing total with
  | nil => rfl
  | cons line lines ih =>
    rw [List.reverse_cons, List.foldl_append, ih, List.foldl_cons, List.foldl_cons, List.foldl_nil]
    have shift : ∀ (rest : List Bytes) (start more : Nat),
        rest.foldl (fun total line => total + line.length + 1) (start + more)
          = rest.foldl (fun total line => total + line.length + 1) start + more := by
      intro rest
      induction rest with
      | nil => intros; rfl
      | cons head rest ih =>
        intro start more
        rw [List.foldl_cons, List.foldl_cons, ← ih]
        congr 1
        omega
    rw [Nat.add_assoc, Nat.add_assoc, shift]

/-- A console with a limit looks at the lines only. -/
theorem ofWriter_limited (limit : Int) :
    ofWriter (fun lines line =>
      Int.ofNat (lines.foldl (fun total line => total + line.length + 1) 0 + line.length + 1)
        ≤ limit)
      = limited limit := by
  funext trace line
  rw [ofWriter, limited, List.filterMap_reverse, foldl_length_reverse]

end Console

namespace Outcome

/-- An outcome shows how a run ends and what is observed then. -/
inductive Shows : Outcome Value → Ending → Observation → Prop where
  /-- A result. -/
  | done {value : Value} {state : State} : Shows (.done value state) (.value value) state.observed
  /-- A failure. -/
  | failed {failure : Failure} {state : State} :
      Shows (.failed failure state) (.failure failure) state.observed

/-- What goes on after a result shows what comes of it, and a failure stays. -/
theorem shows_andThen {α : Type} {outcome : Outcome α} {next : α → State → Outcome Value}
    {ending : Ending} {after : Observation} (shown : (outcome.andThen next).Shows ending after) :
    (∃ value state, outcome = .done value state ∧ (next value state).Shows ending after) ∨
      ∃ failure state, outcome = .failed failure state ∧ ending = .failure failure ∧
        after = state.observed := by
  cases outcome with
  | done value state => exact .inl ⟨value, state, rfl, shown⟩
  | failed failure state =>
    cases shown
    exact .inr ⟨failure, state, rfl, rfl, rfl⟩
  | unfinished => cases shown

/-- A block whose value is dropped shows a voided ending. -/
theorem shows_voided {outcome : Outcome Value} {ending : Ending} {after : Observation}
    (shown : (outcome.andThen fun _ last => .done .void last).Shows ending after) :
    ∃ inner, outcome.Shows inner after ∧ ending = inner.voided := by
  obtain ⟨value, state, rfl, last⟩ | ⟨failure, state, rfl, rfl, rfl⟩ := shows_andThen shown
  · cases last
    exact ⟨.value value, .done, rfl⟩
  · exact ⟨.failure failure, .failed, rfl⟩

end Outcome

/-! ## What a run shows is derived -/

/-- Whatever runs of a statement show is derived by the rules. -/
def Stmt.Sound (writer : Writer) (stmt : Stmt) : Prop :=
  ∀ (fuel : Nat) (state : State) (ending : Ending) (after : Observation),
    (stmt.run fuel (.ofWriter writer) state).Shows ending after →
    Runs writer stmt state.observed ending after

/-- Whatever runs of statements show is derived by the rules. -/
def SoundAll (writer : Writer) (stmts : List Stmt) : Prop :=
  ∀ (fuel : Nat) (state : State) (ending : Ending) (after : Observation),
    (runAll fuel (.ofWriter writer) stmts .void state).Shows ending after →
    RunsAll writer stmts state.observed ending after

/-- Whatever runs of a block show is derived by the rules. -/
def Block.Sound (writer : Writer) (body : Block) : Prop :=
  ∀ (fuel : Nat) (state : State) (ending : Ending) (after : Observation),
    (body.run fuel (.ofWriter writer) state).Shows ending after →
    RunsBlock writer body state.observed ending after

/-- Whatever runs of branches and a last block show is derived by the rules. -/
def SoundBranches (writer : Writer) (branches : List Branch) (otherwise : Block) : Prop :=
  ∀ (fuel index : Nat) (state : State) (ending : Ending) (after : Observation),
    ((runBranches fuel (.ofWriter writer) branches index state).andThen fun taken last =>
      if taken then .done .void last
      else runOtherwise fuel (.ofWriter writer) otherwise last).Shows ending after →
    RunsBranches writer branches otherwise state.observed ending after

section Sound

variable {writer : Writer}

theorem Stmt.Sound.done {stmt : Stmt} (sound : stmt.Sound writer) {fuel : Nat} {value : Value}
    {state next : State} (ran : stmt.run fuel (.ofWriter writer) state = .done value next) :
    Runs writer stmt state.observed (.value value) next.observed := by
  refine sound fuel state _ _ ?_
  rw [ran]
  exact .done

theorem Stmt.Sound.failed {stmt : Stmt} (sound : stmt.Sound writer) {fuel : Nat}
    {failure : Failure} {state next : State}
    (ran : stmt.run fuel (.ofWriter writer) state = .failed failure next) :
    Runs writer stmt state.observed (.failure failure) next.observed := by
  refine sound fuel state _ _ ?_
  rw [ran]
  exact .failed

theorem Block.Sound.done {body : Block} (sound : body.Sound writer) {fuel : Nat} {value : Value}
    {state next : State} (ran : body.run fuel (.ofWriter writer) state = .done value next) :
    RunsBlock writer body state.observed (.value value) next.observed := by
  refine sound fuel state _ _ ?_
  rw [ran]
  exact .done

theorem Block.Sound.failed {body : Block} (sound : body.Sound writer) {fuel : Nat}
    {failure : Failure} {state next : State}
    (ran : body.run fuel (.ofWriter writer) state = .failed failure next) :
    RunsBlock writer body state.observed (.failure failure) next.observed := by
  refine sound fuel state _ _ ?_
  rw [ran]
  exact .failed

theorem sound_assign (span : Span) (name : Bytes) (expr : Expr) :
    (Stmt.assign span name expr).Sound writer := by
  intro fuel state ending after shown
  rw [Stmt.run, State.runAssignment] at shown
  have evaluated := expr.evaluates state.environment
  cases value : expr.evaluate state.environment with
  | error failure =>
    rw [value] at evaluated shown
    cases shown
    exact .assignFails evaluated
  | ok result =>
    rw [value] at evaluated shown
    cases result with
    | void =>
      cases shown
      exact .assignVoid evaluated
    | number | text | boolean | nil =>
      cases shown
      rw [State.observed_assign]
      exact .assign evaluated (by simp)

theorem sound_console (span : Span) (expr : Expr) : (Stmt.console span expr).Sound writer := by
  intro fuel state ending after shown
  rw [Stmt.run, State.runConsole] at shown
  have evaluated := expr.evaluates state.environment
  cases value : expr.evaluate state.environment with
  | error failure =>
    rw [value] at evaluated shown
    cases shown
    exact .consoleFails evaluated
  | ok result =>
    rw [value] at evaluated
    simp only [value] at shown
    by_cases taken : Console.ofWriter writer state.trace result.display = true
    · rw [if_pos taken] at shown
      rw [Console.ofWriter_trace] at taken
      cases shown
      rw [State.observed_record_printed]
      exact .console evaluated taken
    · rw [if_neg taken] at shown
      rw [Console.ofWriter_trace, Bool.not_eq_true] at taken
      cases shown
      exact .consoleRefused evaluated taken

theorem SoundBranches.conditional {span : Span} {branches : List Branch} {otherwise : Block}
    (sound : SoundBranches writer branches otherwise) :
    (Stmt.conditional span branches otherwise).Sound writer := by
  intro fuel state ending after shown
  rw [Stmt.run] at shown
  exact .conditional (sound fuel 0 state ending after shown)

/-- A loop is derived round by round. -/
theorem Block.Sound.rounds {condition : Expr} {body : Block} (sound : body.Sound writer)
    {position : Position} {fuel bodyFuel rounds : Nat} {state : State} {ending : Ending}
    {after : Observation}
    (shown : ((repeatWhile fuel (fun now => condition.holds now.environment)
        (body.run bodyFuel (.ofWriter writer)) rounds state).andThen fun count last =>
          .done .void (last.record (.loopFinished count position))).Shows ending after) :
    RunsLoop writer condition body state.observed ending after := by
  -- Each round that is left adds a rule; the number of rounds before is only counted.
  induction fuel generalizing rounds state with
  | zero => cases shown
  | succ fuel ih =>
    rw [repeatWhile] at shown
    have tested : Tests state.environment condition _ := tests_iff.2 rfl
    cases truth : condition.holds state.environment with
    | error failure =>
      rw [truth] at tested
      simp only [truth, Outcome.andThen_failed] at shown
      cases shown
      exact .fails tested
    | ok holds =>
      rw [truth] at tested
      simp only [truth] at shown
      cases holds with
      | false =>
        cases shown
        rw [State.observed_record_loopFinished]
        exact .done tested
      | true =>
        simp only at shown
        cases ran : body.run bodyFuel (.ofWriter writer) state with
        | done value next =>
          rw [ran] at shown
          exact .round tested (sound.done ran) (ih shown)
        | failed failure next =>
          rw [ran] at shown
          cases shown
          exact .bodyFails tested (sound.failed ran)
        | unfinished =>
          rw [ran] at shown
          cases shown

theorem Block.Sound.loop {span : Span} {condition : Expr} {body : Block}
    (sound : body.Sound writer) : (Stmt.loop span condition body).Sound writer := by
  intro fuel state ending after shown
  rw [Stmt.run] at shown
  exact .loop (sound.rounds shown)

theorem SoundAll.block {span : Span} {stmts : List Stmt} (sound : SoundAll writer stmts) :
    (Stmt.block span stmts).Sound writer := by
  intro fuel state ending after shown
  rw [Stmt.run] at shown
  exact .block (sound fuel state ending after shown)

theorem SoundAll.present {span : Span} {stmts : List Stmt} (sound : SoundAll writer stmts) :
    (Block.present span stmts).Sound writer := by
  intro fuel state ending after shown
  rw [Block.run] at shown
  exact .present (sound fuel state ending after shown)

theorem soundAll_nil : SoundAll writer [] := by
  intro fuel state ending after shown
  rw [runAll] at shown
  cases shown
  exact .nil

theorem Stmt.Sound.last {stmt : Stmt} (sound : stmt.Sound writer) : SoundAll writer [stmt] := by
  intro fuel state ending after shown
  rw [runAll] at shown
  obtain ⟨value, next, ran, last⟩ | ⟨failure, next, ran, rfl, rfl⟩ := Outcome.shows_andThen shown
  · rw [runAll] at last
    cases last
    exact .last (sound.done ran)
  · exact .fails (sound.failed ran)

theorem SoundAll.cons {stmt next : Stmt} {rest : List Stmt} (first : stmt.Sound writer)
    (others : SoundAll writer (next :: rest)) : SoundAll writer (stmt :: next :: rest) := by
  intro fuel state ending after shown
  rw [runAll] at shown
  obtain ⟨value, between, ran, more⟩ | ⟨failure, between, ran, rfl, rfl⟩ :=
    Outcome.shows_andThen shown
  · -- With a statement ahead the value so far does not matter.
    have same : runAll fuel (.ofWriter writer) (next :: rest) value between
        = runAll fuel (.ofWriter writer) (next :: rest) .void between := by
      rw [runAll, runAll]
    rw [same] at more
    exact .cons (first.done ran) (others fuel between ending after more)
  · exact .fails (first.failed ran)

theorem sound_absent : Block.absent.Sound writer := by
  intro fuel state ending after shown
  rw [Block.run] at shown
  cases shown
  exact .absent

theorem Block.Sound.otherwise {body : Block} (sound : body.Sound writer) :
    SoundBranches writer [] body := by
  intro fuel index state ending after shown
  rw [runBranches, Outcome.andThen_done, if_neg Bool.false_ne_true] at shown
  cases body with
  | absent =>
    rw [runOtherwise] at shown
    cases shown
    exact RunsBranches.otherwise RunsBlock.absent
  | present span stmts =>
    rw [runOtherwise] at shown
    obtain ⟨inner, inside, rfl⟩ := Outcome.shows_voided shown
    have derived := sound fuel _ inner after (by rw [Block.run]; exact inside)
    rw [State.observed_record_otherwiseTaken] at derived
    exact .otherwise derived

theorem SoundBranches.cons {span : Span} {condition : Expr} {body otherwise : Block}
    {rest : List Branch} (first : body.Sound writer)
    (others : SoundBranches writer rest otherwise) :
    SoundBranches writer (.mk span condition body :: rest) otherwise := by
  intro fuel index state ending after shown
  rw [runBranches] at shown
  have tested : Tests state.environment condition _ := tests_iff.2 rfl
  cases truth : condition.holds state.environment with
  | error failure =>
    rw [truth] at tested
    simp only [truth, Outcome.andThen_failed] at shown
    cases shown
    exact .fails tested
  | ok holds =>
    rw [truth] at tested
    simp only [truth] at shown
    cases holds with
    | false => exact .passed tested (others fuel (index + 1) state ending after shown)
    | true =>
      cases ran : body.run fuel (.ofWriter writer)
          (state.record (.branchTaken index span.start)) with
      | done value last =>
        have derived := first.done ran
        rw [State.observed_record_branchTaken] at derived
        rw [ran] at shown
        cases shown
        exact RunsBranches.taken tested derived
      | failed failure last =>
        have derived := first.failed ran
        rw [State.observed_record_branchTaken] at derived
        rw [ran] at shown
        cases shown
        exact RunsBranches.taken tested derived
      | unfinished =>
        rw [ran] at shown
        cases shown

mutual

/-- Whatever runs of a statement show is derived. -/
theorem Stmt.sound (writer : Writer) : (stmt : Stmt) → stmt.Sound writer
  | .assign span name expr => sound_assign span name expr
  | .console span expr => sound_console span expr
  | .conditional _ branches otherwise =>
    (soundBranches writer branches (otherwise.sound writer)).conditional
  | .loop _ _ body => (body.sound writer).loop
  | .block _ stmts => (soundAll writer stmts).block

/-- Whatever runs of statements show is derived. -/
theorem soundAll (writer : Writer) : (stmts : List Stmt) → SoundAll writer stmts
  | [] => soundAll_nil
  | [stmt] => (stmt.sound writer).last
  | stmt :: next :: rest => .cons (stmt.sound writer) (soundAll writer (next :: rest))

/-- Whatever runs of branches show is derived, if that holds for the last block. -/
theorem soundBranches (writer : Writer) {otherwise : Block} : (branches : List Branch) →
    otherwise.Sound writer → SoundBranches writer branches otherwise
  | [], last => last.otherwise
  | .mk _ _ body :: rest, last => .cons (body.sound writer) (soundBranches writer rest last)

/-- Whatever runs of a block show is derived. -/
theorem Block.sound (writer : Writer) : (body : Block) → body.Sound writer
  | .absent => sound_absent
  | .present _ stmts => (soundAll writer stmts).present

end

end Sound

/-! ## What is derived is shown -/

/-- From some number of rounds on a run has one outcome. -/
def Settles {α : Type} (run : Nat → Outcome α) (outcome : Outcome α) : Prop :=
  ∃ enough, ∀ fuel, enough ≤ fuel → run fuel = outcome

namespace Settles

theorem const {α : Type} (outcome : Outcome α) : Settles (fun _ => outcome) outcome :=
  ⟨0, fun _ _ => rfl⟩

/-- A run that goes on after a result settles where the rest does. -/
theorem andThen {α β : Type} {run : Nat → Outcome α} {next : Nat → α → State → Outcome β}
    {value : α} {state : State} {outcome : Outcome β} (first : Settles run (.done value state))
    (second : Settles (fun fuel => next fuel value state) outcome) :
    Settles (fun fuel => (run fuel).andThen (next fuel)) outcome := by
  obtain ⟨one, first_same⟩ := first
  obtain ⟨two, second_same⟩ := second
  -- With enough rounds for both parts, both are as they stay.
  refine ⟨max one two, fun fuel enough => ?_⟩
  show (run fuel).andThen (next fuel) = outcome
  rw [first_same fuel (by omega), Outcome.andThen_done]
  exact second_same fuel (by omega)

/-- A run that fails settles there, whatever would come. -/
theorem andThen_failed {α β : Type} {run : Nat → Outcome α} {failure : Failure} {state : State}
    (first : Settles run (.failed failure state)) (next : Nat → α → State → Outcome β) :
    Settles (fun fuel => (run fuel).andThen (next fuel)) (.failed failure state) := by
  obtain ⟨enough, same⟩ := first
  refine ⟨enough, fun fuel le => ?_⟩
  show (run fuel).andThen (next fuel) = _
  rw [same fuel le, Outcome.andThen_failed]

end Settles

/-- From every state with an observation, runs settle with an outcome that shows an ending. -/
def Reaches (run : Nat → State → Outcome Value) (before : Observation) (ending : Ending)
    (after : Observation) : Prop :=
  ∀ state : State, state.observed = before →
    ∃ outcome, Settles (fun fuel => run fuel state) outcome ∧ outcome.Shows ending after

namespace Reaches

/-- What ends with a value has a result. -/
theorem done {run : Nat → State → Outcome Value} {before after : Observation} {value : Value}
    (reached : Reaches run before (.value value) after) {state : State}
    (same : state.observed = before) :
    ∃ last, Settles (fun fuel => run fuel state) (.done value last) ∧ last.observed = after := by
  obtain ⟨outcome, settled, shown⟩ := reached state same
  cases shown
  exact ⟨_, settled, rfl⟩

/-- What ends with a failure has failed. -/
theorem failed {run : Nat → State → Outcome Value} {before after : Observation}
    {failure : Failure} (reached : Reaches run before (.failure failure) after) {state : State}
    (same : state.observed = before) :
    ∃ last, Settles (fun fuel => run fuel state) (.failed failure last) ∧
      last.observed = after := by
  obtain ⟨outcome, settled, shown⟩ := reached state same
  cases shown
  exact ⟨_, settled, rfl⟩

/-- A run whose value is dropped reaches a voided ending. -/
theorem voided {run : Nat → State → Outcome Value} {before after : Observation} {ending : Ending}
    (reached : Reaches run before ending after) {state : State} (same : state.observed = before) :
    ∃ outcome,
      Settles (fun fuel => (run fuel state).andThen fun _ last => .done .void last) outcome ∧
      outcome.Shows ending.voided after := by
  cases ending with
  | value value =>
    obtain ⟨last, settled, rfl⟩ := reached.done same
    exact ⟨_, settled.andThen (.const _), .done⟩
  | failure reason =>
    obtain ⟨last, settled, rfl⟩ := reached.failed same
    exact ⟨_, settled.andThen_failed _, .failed⟩

end Reaches

section Complete

variable {writer : Writer}

theorem reaches_assign {span : Span} {name : Bytes} {expr : Expr} {result : Value}
    {before : Observation} (evaluated : Evaluates before.environment expr (.ok result))
    (valued : result ≠ .void) :
    Reaches (fun fuel => (Stmt.assign span name expr).run fuel (.ofWriter writer)) before
      (.value result) (before.bind name result) := by
  rintro state rfl
  have value := evaluated.evaluate_eq
  rw [State.environment_observed] at value
  refine ⟨.done result (state.assign name result), ⟨0, fun fuel _ => ?_⟩, ?_⟩
  · simp only [Stmt.run, State.runAssignment, value]
  · rw [← State.observed_assign]
    exact .done

theorem reaches_assignVoid {span : Span} {name : Bytes} {expr : Expr} {before : Observation}
    (evaluated : Evaluates before.environment expr (.ok .void)) :
    Reaches (fun fuel => (Stmt.assign span name expr).run fuel (.ofWriter writer)) before
      (.failure ⟨.voidAssigned name, expr.span⟩) before := by
  rintro state rfl
  have value := evaluated.evaluate_eq
  rw [State.environment_observed] at value
  refine ⟨_, ⟨0, fun fuel _ => ?_⟩, .failed⟩
  simp only [Stmt.run, State.runAssignment, value]

theorem reaches_assignFails {span : Span} {name : Bytes} {expr : Expr} {failure : Failure}
    {before : Observation} (evaluated : Evaluates before.environment expr (.error failure)) :
    Reaches (fun fuel => (Stmt.assign span name expr).run fuel (.ofWriter writer)) before
      (.failure failure) before := by
  rintro state rfl
  have value := evaluated.evaluate_eq
  rw [State.environment_observed] at value
  refine ⟨_, ⟨0, fun fuel _ => ?_⟩, .failed⟩
  simp only [Stmt.run, State.runAssignment, value]

theorem reaches_console {span : Span} {expr : Expr} {result : Value} {before : Observation}
    (evaluated : Evaluates before.environment expr (.ok result))
    (taken : writer before.lines result.display = true) :
    Reaches (fun fuel => (Stmt.console span expr).run fuel (.ofWriter writer)) before
      (.value result) (before.print result.display) := by
  rintro state rfl
  have value := evaluated.evaluate_eq
  rw [State.environment_observed] at value
  rw [← Console.ofWriter_trace writer] at taken
  refine ⟨.done result (state.record (.printed result.display)), ⟨0, fun fuel _ => ?_⟩, ?_⟩
  · simp only [Stmt.run, State.runConsole, value]
    exact if_pos taken
  · rw [← State.observed_record_printed]
    exact .done

theorem reaches_consoleRefused {span : Span} {expr : Expr} {result : Value} {before : Observation}
    (evaluated : Evaluates before.environment expr (.ok result))
    (refused : writer before.lines result.display = false) :
    Reaches (fun fuel => (Stmt.console span expr).run fuel (.ofWriter writer)) before
      (.failure ⟨.outputRefused, span⟩) before := by
  rintro state rfl
  have value := evaluated.evaluate_eq
  rw [State.environment_observed] at value
  rw [← Console.ofWriter_trace writer] at refused
  refine ⟨_, ⟨0, fun fuel _ => ?_⟩, .failed⟩
  simp only [Stmt.run, State.runConsole, value]
  exact if_neg (Bool.eq_false_iff.1 refused)

theorem reaches_consoleFails {span : Span} {expr : Expr} {failure : Failure} {before : Observation}
    (evaluated : Evaluates before.environment expr (.error failure)) :
    Reaches (fun fuel => (Stmt.console span expr).run fuel (.ofWriter writer)) before
      (.failure failure) before := by
  rintro state rfl
  have value := evaluated.evaluate_eq
  rw [State.environment_observed] at value
  refine ⟨_, ⟨0, fun fuel _ => ?_⟩, .failed⟩
  simp only [Stmt.run, State.runConsole, value]

/-- The last statement reaches what it reaches alone. -/
theorem Reaches.last {stmt : Stmt} {value : Value} {before after : Observation}
    (only : Reaches (fun fuel => stmt.run fuel (.ofWriter writer)) before (.value value) after) :
    Reaches (fun fuel => runAll fuel (.ofWriter writer) [stmt] .void) before (.value value)
      after := by
  intro state same
  obtain ⟨last, settled, rfl⟩ := only.done same
  simp only [runAll]
  exact ⟨_, settled.andThen (.const _), .done⟩

/-- Statements reach what the others reach behind the first. -/
theorem Reaches.cons {stmt next : Stmt} {rest : List Stmt} {value : Value} {ending : Ending}
    {before between after : Observation}
    (first : Reaches (fun fuel => stmt.run fuel (.ofWriter writer)) before (.value value) between)
    (others : Reaches (fun fuel => runAll fuel (.ofWriter writer) (next :: rest) .void) between
      ending after) :
    Reaches (fun fuel => runAll fuel (.ofWriter writer) (stmt :: next :: rest) .void) before ending
      after := by
  intro state same
  obtain ⟨middle, settled, middle_same⟩ := first.done same
  obtain ⟨outcome, rest_settled, shown⟩ := others middle middle_same
  simp only [runAll] at rest_settled ⊢
  exact ⟨outcome, settled.andThen rest_settled, shown⟩

/-- Statements fail as soon as the first one does. -/
theorem Reaches.fails {stmt : Stmt} {rest : List Stmt} {failure : Failure}
    {before after : Observation}
    (first : Reaches (fun fuel => stmt.run fuel (.ofWriter writer)) before (.failure failure)
      after) :
    Reaches (fun fuel => runAll fuel (.ofWriter writer) (stmt :: rest) .void) before
      (.failure failure) after := by
  intro state same
  obtain ⟨last, settled, rfl⟩ := first.failed same
  simp only [runAll]
  exact ⟨_, settled.andThen_failed _, .failed⟩

/-- From every state with an observation, runs of branches and a last block settle with an outcome
that shows an ending, however the branches are counted. -/
def ReachesBranches (writer : Writer) (branches : List Branch) (otherwise : Block)
    (before : Observation) (ending : Ending) (after : Observation) : Prop :=
  ∀ index, Reaches (fun fuel state =>
    (runBranches fuel (.ofWriter writer) branches index state).andThen fun taken last =>
      if taken then .done .void last else runOtherwise fuel (.ofWriter writer) otherwise last)
    before ending after

/-- A branch whose condition holds reaches what its block reaches. -/
theorem Reaches.taken {span : Span} {condition : Expr} {body otherwise : Block}
    {rest : List Branch} {ending : Ending} {before after : Observation}
    (holds : Tests before.environment condition (.ok true))
    (inside : Reaches (fun fuel => body.run fuel (.ofWriter writer)) before ending after) :
    ReachesBranches writer (.mk span condition body :: rest) otherwise before ending.voided
      after := by
  rintro index state rfl
  have truth := tests_iff.1 holds
  rw [State.environment_observed] at truth
  have entered := State.observed_record_branchTaken state index span.start
  simp only [runBranches, truth]
  -- The value of the block is dropped twice: a taken branch counts as such, then as void.
  cases ending with
  | value value =>
    obtain ⟨last, settled, rfl⟩ := inside.done entered
    have ran : Settles (fun fuel => (body.run fuel (.ofWriter writer)
        (state.record (.branchTaken index span.start))).andThen fun _ last => .done true last)
        (.done true last) := settled.andThen (.const _)
    exact ⟨_, ran.andThen (.const _), .done⟩
  | failure reason =>
    obtain ⟨last, settled, rfl⟩ := inside.failed entered
    exact ⟨_, (settled.andThen_failed _).andThen_failed _, .failed⟩

/-- A branch whose condition does not hold reaches what the others reach. -/
theorem ReachesBranches.passed {span : Span} {condition : Expr} {body otherwise : Block}
    {rest : List Branch} {ending : Ending} {before after : Observation}
    (fails : Tests before.environment condition (.ok false))
    (others : ReachesBranches writer rest otherwise before ending after) :
    ReachesBranches writer (.mk span condition body :: rest) otherwise before ending after := by
  rintro index state rfl
  have truth := tests_iff.1 fails
  rw [State.environment_observed] at truth
  simp only [runBranches, truth]
  exact others (index + 1) state rfl

/-- A condition that fails ends the conditional. -/
theorem reachesBranches_fails {span : Span} {condition : Expr} {body otherwise : Block}
    {rest : List Branch} {failure : Failure} {before : Observation}
    (failed : Tests before.environment condition (.error failure)) :
    ReachesBranches writer (.mk span condition body :: rest) otherwise before (.failure failure)
      before := by
  rintro index state rfl
  have truth := tests_iff.1 failed
  rw [State.environment_observed] at truth
  simp only [runBranches, truth, Outcome.andThen_failed]
  exact ⟨_, .const _, .failed⟩

/-- If no condition held, the last block decides. -/
theorem Reaches.otherwise {body : Block} {ending : Ending} {before after : Observation}
    (inside : Reaches (fun fuel => body.run fuel (.ofWriter writer)) before ending after) :
    ReachesBranches writer [] body before ending.voided after := by
  intro index state same
  cases body with
  | absent =>
    obtain ⟨outcome, settled, shown⟩ := inside.voided same
    simp only [Block.run] at settled
    simpa only [runBranches, runOtherwise, Outcome.andThen_done, Bool.false_eq_true, if_false]
      using ⟨outcome, settled, shown⟩
  | present span stmts =>
    have entered := State.observed_record_otherwiseTaken state span.start
    obtain ⟨outcome, settled, shown⟩ := inside.voided (entered.trans same)
    simp only [Block.run] at settled
    simpa only [runBranches, runOtherwise, Outcome.andThen_done, Bool.false_eq_true, if_false]
      using ⟨outcome, settled, shown⟩

/-- From every state with an observation, a loop with enough rounds, for itself and for its body,
ends as a function of the number of rounds before, and shows an ending. -/
def ReachesLoop (writer : Writer) (condition : Expr) (body : Block) (before : Observation)
    (ending : Ending) (after : Observation) : Prop :=
  ∀ state : State, state.observed = before → ∃ enough, ∃ finish : Nat → Outcome Nat,
    (∀ fuel bodyFuel rounds, enough ≤ fuel → enough ≤ bodyFuel →
      repeatWhile fuel (fun now => condition.holds now.environment)
        (body.run bodyFuel (.ofWriter writer)) rounds state = finish rounds) ∧
    ∀ rounds position, ((finish rounds).andThen fun count last =>
      .done .void (last.record (.loopFinished count position))).Shows ending after

/-- A loop ends when its condition does not hold. -/
theorem reachesLoop_done {condition : Expr} {body : Block} {before : Observation}
    (fails : Tests before.environment condition (.ok false)) :
    ReachesLoop writer condition body before (.value .void) before := by
  rintro state rfl
  have truth := tests_iff.1 fails
  rw [State.environment_observed] at truth
  refine ⟨1, fun rounds => .done rounds state, fun fuel bodyFuel rounds enough _ => ?_,
    fun rounds position => ?_⟩
  · -- One round is needed to look at the condition.
    obtain ⟨fuel, rfl⟩ := Nat.exists_eq_add_of_le' enough
    simp only [repeatWhile, truth]
  · have shown : (Outcome.done Value.void (state.record (.loopFinished rounds position))).Shows
        (.value .void) _ := .done
    rwa [State.observed_record_loopFinished] at shown

/-- A loop fails when its condition does. -/
theorem reachesLoop_fails {condition : Expr} {body : Block} {failure : Failure}
    {before : Observation} (failed : Tests before.environment condition (.error failure)) :
    ReachesLoop writer condition body before (.failure failure) before := by
  rintro state rfl
  have truth := tests_iff.1 failed
  rw [State.environment_observed] at truth
  refine ⟨1, fun _ => .failed failure state, fun fuel bodyFuel rounds enough _ => ?_,
    fun _ _ => .failed⟩
  obtain ⟨fuel, rfl⟩ := Nat.exists_eq_add_of_le' enough
  simp only [repeatWhile, truth]

/-- A loop fails when its body does. -/
theorem Reaches.bodyFails {condition : Expr} {body : Block} {failure : Failure}
    {before after : Observation} (holds : Tests before.environment condition (.ok true))
    (inside : Reaches (fun fuel => body.run fuel (.ofWriter writer)) before (.failure failure)
      after) :
    ReachesLoop writer condition body before (.failure failure) after := by
  rintro state rfl
  have truth := tests_iff.1 holds
  rw [State.environment_observed] at truth
  obtain ⟨last, ⟨enough, settled⟩, rfl⟩ := inside.failed rfl
  refine ⟨enough + 1, fun _ => .failed failure last, fun fuel bodyFuel rounds le body_le => ?_,
    fun _ _ => .failed⟩
  obtain ⟨fuel, rfl⟩ := Nat.exists_eq_add_of_le' (Nat.le_trans (Nat.le_add_left 1 enough) le)
  simp only [repeatWhile, truth, settled bodyFuel (by omega)]

/-- One more round: the body needs its rounds, and the loop one test more than the rest of it. -/
theorem ReachesLoop.round {condition : Expr} {body : Block} {value : Value} {ending : Ending}
    {before between after : Observation} (holds : Tests before.environment condition (.ok true))
    (inside : Reaches (fun fuel => body.run fuel (.ofWriter writer)) before (.value value) between)
    (again : ReachesLoop writer condition body between ending after) :
    ReachesLoop writer condition body before ending after := by
  rintro state rfl
  have truth := tests_iff.1 holds
  rw [State.environment_observed] at truth
  obtain ⟨middle, ⟨one, settled⟩, middle_same⟩ := inside.done rfl
  obtain ⟨two, finish, runs, shows⟩ := again middle middle_same
  refine ⟨max one two + 1, fun rounds => finish (rounds + 1),
    fun fuel bodyFuel rounds le body_le => ?_,
    fun rounds position => shows (rounds + 1) position⟩
  obtain ⟨fuel, rfl⟩ := Nat.exists_eq_add_of_le' (Nat.le_trans (Nat.le_add_left 1 _) le)
  simp only [repeatWhile, truth, settled bodyFuel (by omega)]
  exact runs fuel bodyFuel (rounds + 1) (by omega) (by omega)

/-- A loop reaches what its rounds lead to. -/
theorem ReachesLoop.loop {span : Span} {condition : Expr} {body : Block} {ending : Ending}
    {before after : Observation} (rounds : ReachesLoop writer condition body before ending after) :
    Reaches (fun fuel => (Stmt.loop span condition body).run fuel (.ofWriter writer)) before ending
      after := by
  intro state same
  obtain ⟨enough, finish, runs, shows⟩ := rounds state same
  refine ⟨_, ⟨enough, fun fuel le => ?_⟩, shows 0 span.start⟩
  simp only [Stmt.run, runs fuel fuel 0 le le]

/-- No statement reaches no value. -/
theorem reaches_nil {before : Observation} :
    Reaches (fun fuel => runAll fuel (.ofWriter writer) [] .void) before (.value .void) before := by
  rintro state rfl
  simp only [runAll]
  exact ⟨_, .const _, .done⟩

/-- An absent block reaches what was before. -/
theorem reaches_absent {before : Observation} :
    Reaches (fun fuel => Block.absent.run fuel (.ofWriter writer)) before (.value .void)
      before := by
  rintro state rfl
  simp only [Block.run]
  exact ⟨_, .const _, .done⟩

end Complete

mutual

/-- A statement reaches what is derived for it. -/
theorem Runs.complete {writer : Writer} {stmt : Stmt} {before after : Observation}
    {ending : Ending} : Runs writer stmt before ending after →
      Reaches (fun fuel => stmt.run fuel (.ofWriter writer)) before ending after
  | .assign evaluated valued => reaches_assign evaluated valued
  | .assignFails evaluated => reaches_assignFails evaluated
  | .assignVoid evaluated => reaches_assignVoid evaluated
  | .console evaluated taken => reaches_console evaluated taken
  | .consoleFails evaluated => reaches_consoleFails evaluated
  | .consoleRefused evaluated refused => reaches_consoleRefused evaluated refused
  | .conditional chosen => fun state same => by
    simp only [Stmt.run]
    exact chosen.complete 0 state same
  | .loop rounds => rounds.complete.loop
  | .block inside => fun state same => by
    simp only [Stmt.run]
    exact inside.complete state same

/-- Statements reach what is derived for them. -/
theorem RunsAll.complete {writer : Writer} {stmts : List Stmt} {before after : Observation}
    {ending : Ending} : RunsAll writer stmts before ending after →
      Reaches (fun fuel => runAll fuel (.ofWriter writer) stmts .void) before ending after
  | .nil => reaches_nil
  | .last only => only.complete.last
  | .cons first others => first.complete.cons others.complete
  | .fails first => first.complete.fails

/-- Branches and a last block reach what is derived for them. -/
theorem RunsBranches.complete {writer : Writer} {branches : List Branch} {otherwise : Block}
    {before after : Observation} {ending : Ending} :
    RunsBranches writer branches otherwise before ending after →
      ReachesBranches writer branches otherwise before ending after
  | .taken holds inside => inside.complete.taken holds
  | .passed fails others => others.complete.passed fails
  | .fails failed => reachesBranches_fails failed
  | .otherwise inside => inside.complete.otherwise

/-- A loop reaches what is derived for it. -/
theorem RunsLoop.complete {writer : Writer} {condition : Expr} {body : Block}
    {before after : Observation} {ending : Ending} :
    RunsLoop writer condition body before ending after →
      ReachesLoop writer condition body before ending after
  | .done fails => reachesLoop_done fails
  | .round holds inside again => again.complete.round holds inside.complete
  | .bodyFails holds inside => inside.complete.bodyFails holds
  | .fails failed => reachesLoop_fails failed

/-- A block reaches what is derived for it. -/
theorem RunsBlock.complete {writer : Writer} {body : Block} {before after : Observation}
    {ending : Ending} : RunsBlock writer body before ending after →
      Reaches (fun fuel => body.run fuel (.ofWriter writer)) before ending after
  | .absent => reaches_absent
  | .present inside => fun state same => by
    simp only [Block.run]
    exact inside.complete state same

end

/-! ## Evaluation and the rules -/

/-- Whatever runs of a node show is derived. -/
theorem Node.sound {writer : Writer} {node : Node} {fuel : Nat} {state : State} {ending : Ending}
    {after : Observation} (shown : (node.run fuel (.ofWriter writer) state).Shows ending after) :
    RunsNode writer node state.observed ending after := by
  cases node with
  | program whole => exact .program (soundAll writer whole.stmts fuel state ending after shown)
  | stmt single => exact .stmt (single.sound writer fuel state ending after shown)
  | expr single =>
    have evaluated := single.evaluates state.environment
    rw [Node.run] at shown
    cases value : single.evaluate state.environment with
    | ok result =>
      rw [value] at evaluated shown
      cases shown
      exact .expr evaluated
    | error failure =>
      rw [value] at evaluated shown
      cases shown
      exact .exprFails evaluated
  | missing =>
    cases shown
    exact .missing

/-- A node reaches what is derived for it. -/
theorem RunsNode.complete {writer : Writer} {node : Node} {before after : Observation}
    {ending : Ending} (derived : RunsNode writer node before ending after) :
    Reaches (fun fuel => node.run fuel (.ofWriter writer)) before ending after := by
  cases derived with
  | program inside => exact inside.complete
  | stmt single => exact single.complete
  | expr evaluated =>
    rintro state rfl
    have value := evaluated.evaluate_eq
    rw [State.environment_observed] at value
    simp only [Node.run, value]
    exact ⟨_, .const _, .done⟩
  | exprFails evaluated =>
    rintro state rfl
    have value := evaluated.evaluate_eq
    rw [State.environment_observed] at value
    simp only [Node.run, value]
    exact ⟨_, .const _, .failed⟩
  | missing =>
    rintro state rfl
    exact ⟨_, .const _, .failed⟩

/-- **Evaluation follows the rules.** From any state, evaluating a node ends, with some number of
rounds for its loops, in a value or a failure with what is observed then, exactly if the rules
derive that ending from what is observed before. -/
theorem run_iff_derived (writer : Writer) (node : Node) (state : State) (ending : Ending)
    (after : Observation) :
    (∃ fuel, (node.run fuel (.ofWriter writer) state).Shows ending after) ↔
      RunsNode writer node state.observed ending after := by
  constructor
  · rintro ⟨fuel, shown⟩
    exact Node.sound shown
  · intro derived
    obtain ⟨outcome, ⟨enough, settled⟩, shown⟩ := derived.complete state rfl
    have same : node.run enough (.ofWriter writer) state = outcome := settled enough (Nat.le_refl _)
    exact ⟨enough, same ▸ shown⟩

end ConsoleScript
