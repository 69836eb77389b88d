import ConsoleScript.Proofs.Adequacy
import ConsoleScript.Proofs.PlainEvaluation
import ConsoleScript.Proofs.RunProgress

/-! # Layout does not matter to a run

Two trees that are the same without places and parentheses run side by side: they get equally far
with every number of rounds, end with the same value or for the same reason, and show the same
variables, lines and assignments, also where they never end. Only the places that they report may
differ, and the notes about the control flow.

* **`Outcome.seen`**, **`Progress.seen`** — what a run shows if nobody looks at places and notes;
* **`Stmt.seen_plain`** — the plain form of a statement shows what the statement shows, from any two
  states in which the same is observed: case by case over the tree and, for loops, round by round;
* **`Block.seen_congr`** — so what a block shows depends on the observation only in which it begins.

`evaluation_ignores_layout` compares two nodes with one plain form. -/

namespace ConsoleScript

/-! ## What is seen of a run -/

/-- Where the same is observed, the same names are bound. -/
theorem State.environment_congr {state other : State} (same : other.observed = state.observed) :
    other.environment = state.environment :=
  congrArg Observation.environment same

/-- What is seen of an outcome: the value or the reason of the failure, and what is observed at the
end. -/
def Outcome.seen {α : Type} : Outcome α → Option (Except Fault α × Observation)
  | done value state => some (.ok value, state.observed)
  | failed failure state => some (.error failure.fault, state.observed)
  | unfinished => none

/-- Nothing is seen exactly of a run without an end. -/
theorem Outcome.seen_eq_none {α : Type} {outcome : Outcome α} :
    outcome.seen = none ↔ outcome = .unfinished := by
  cases outcome <;> simp [seen]

namespace Progress

variable {α β : Type}

/-- What is seen of a run that may not have ended: the value or the reason of the failure if there
is one, and what is observed so far. -/
def seen : Progress α → Option (Except Fault α) × Observation
  | done value state => (some (.ok value), state.observed)
  | failed failure state => (some (.error failure.fault), state.observed)
  | ongoing state => (none, state.observed)

/-- What is seen of progress tells what is seen of its outcome. -/
theorem seen_outcome (progress : Progress α) :
    progress.outcome.seen = progress.seen.1.map fun ending => (ending, progress.seen.2) := by
  cases progress <;> rfl

/-- Runs that show the same go on to show the same. -/
theorem seen_andThen {one two : Progress α} {next later : α → State → Progress β}
    (first : one.seen = two.seen)
    (second : ∀ value {state other : State}, other.observed = state.observed →
      (next value other).seen = (later value state).seen) :
    (one.andThen next).seen = (two.andThen later).seen := by
  obtain ⟨endings, observed⟩ := Prod.ext_iff.1 first
  -- What is seen tells the three ways to end apart, so both are in the same one.
  cases one with
  | done value after =>
    cases two with
    | done result _ =>
      obtain rfl : value = result := by simpa [seen] using endings
      exact second value observed
    | failed | ongoing => simp [seen] at endings
  | failed reason after =>
    cases two with
    | failed failure _ =>
      have fault : reason.fault = failure.fault := by simpa [seen] using endings
      exact Prod.ext (congrArg (fun same => some (Except.error same)) fault) observed
    | done | ongoing => simp [seen] at endings
  | ongoing after =>
    cases two with
    | ongoing => exact Prod.ext rfl observed
    | done | failed => simp [seen] at endings

/-- Loops show the same if their conditions and bodies do. -/
theorem seen_repeatWhile {fuel : Nat} {condition bareCondition : State → Except Failure Bool}
    {body bareBody : State → Progress Value}
    (tests : ∀ {state other : State}, other.observed = state.observed →
      bareCondition other = (condition state).mapError Failure.plain)
    (runs : ∀ {state other : State}, other.observed = state.observed →
      (bareBody other).seen = (body state).seen)
    (rounds : Nat) {state other : State} (same : other.observed = state.observed) :
    (repeatWhile fuel bareCondition bareBody rounds other).seen
      = (repeatWhile fuel condition body rounds state).seen := by
  -- By the tests that are left; before each of them the same is observed.
  induction fuel generalizing rounds state other with
  | zero => exact Prod.ext rfl same
  | succ fuel ih =>
    rw [repeatWhile, repeatWhile, tests same]
    cases condition state with
    | error failure => exact Prod.ext rfl same
    | ok truth =>
      cases truth with
      | false => exact Prod.ext rfl same
      | true => exact seen_andThen (runs same) fun _ _ _ next => ih (rounds + 1) next

end Progress

/-! ## A tree and its plain form -/

section Plain

variable {writer : Writer} {fuel : Nat} {state other : State}

/-- The plain form of an assignment shows what the assignment shows. -/
theorem seen_plain_assign (name : Bytes) (value : Expr) (same : other.observed = state.observed) :
    (Progress.ofOutcome other (other.runAssignment name value.plain)).seen
      = (Progress.ofOutcome state (state.runAssignment name value)).seen := by
  rw [State.runAssignment, State.runAssignment, State.environment_congr same, value.evaluate_plain]
  cases value.evaluate state.environment with
  | error failure => exact Prod.ext rfl same
  | ok result =>
    have bound (known : Value) :
        (other.assign name known).observed = (state.assign name known).observed := by
      rw [State.observed_assign, State.observed_assign, same]
    cases result with
    | void => exact Prod.ext rfl same
    | number | text | boolean | nil => exact Prod.ext rfl (bound _)

/-- The plain form of a console statement shows what the statement shows. -/
theorem seen_plain_console (span : Span) (value : Expr) (same : other.observed = state.observed) :
    (Progress.ofOutcome other (other.runConsole (.ofWriter writer) .unset value.plain)).seen
      = (Progress.ofOutcome state (state.runConsole (.ofWriter writer) span value)).seen := by
  rw [State.runConsole, State.runConsole, State.environment_congr same, value.evaluate_plain]
  cases value.evaluate state.environment with
  | error failure => exact Prod.ext rfl same
  | ok result =>
    show (Progress.ofOutcome other (if Console.ofWriter writer other.trace result.display then _
      else _)).seen = _
    -- The writer sees the lines only, and these are the same.
    rw [Console.ofWriter_trace, same]
    dsimp only
    rw [Console.ofWriter_trace]
    split
    · refine Prod.ext rfl ?_
      show (other.record _).observed = (state.record _).observed
      rw [State.observed_record_printed, State.observed_record_printed, same]
    · exact Prod.ext rfl same

mutual

/-- The plain form of a statement shows what the statement shows. -/
theorem Stmt.seen_plain : (stmt : Stmt) → ∀ {state other : State},
    other.observed = state.observed →
      (stmt.plain.progress fuel (.ofWriter writer) other).seen
        = (stmt.progress fuel (.ofWriter writer) state).seen
  | .assign _ name value, _, _, same => by
    rw [Stmt.plain, Stmt.progress, Stmt.progress]
    exact seen_plain_assign name value same
  | .console span value, _, _, same => by
    rw [Stmt.plain, Stmt.progress, Stmt.progress]
    exact seen_plain_console span value same
  | .conditional _ branches otherwise, _, _, same => by
    rw [Stmt.plain, Stmt.progress, Stmt.progress]
    refine Progress.seen_andThen (seen_plainBranches branches 0 0 same) ?_
    intro taken _ _ after
    cases taken with
    | true => exact Prod.ext rfl after
    | false => exact otherwise.seen_plainLast after
  | .loop _ condition body, _, _, same => by
    rw [Stmt.plain, Stmt.progress, Stmt.progress]
    refine Progress.seen_andThen (Progress.seen_repeatWhile ?_ body.seen_plain 0 same) ?_
    · intro now later observed
      rw [State.environment_congr observed]
      exact condition.holds_plain now.environment
    · intro rounds _ _ after
      refine Prod.ext rfl ?_
      simpa [Progress.seen] using after
  | .block _ stmts, _, _, same => by
    rw [Stmt.plain, Stmt.progress, Stmt.progress]
    exact seen_plainAll stmts .void same

/-- The plain form of statements shows what the statements show. -/
theorem seen_plainAll : (stmts : List Stmt) → ∀ (result : Value) {state other : State},
    other.observed = state.observed →
      (progressAll fuel (.ofWriter writer) (plainStmts stmts) result other).seen
        = (progressAll fuel (.ofWriter writer) stmts result state).seen
  | [], _, _, _, same => by
    rw [plainStmts, progressAll, progressAll]
    exact Prod.ext rfl same
  | stmt :: rest, _, _, _, same => by
    rw [plainStmts, progressAll, progressAll]
    exact Progress.seen_andThen (stmt.seen_plain same) (seen_plainAll rest)

/-- The plain form of branches shows what the branches show, however they are counted. -/
theorem seen_plainBranches : (branches : List Branch) → ∀ (index count : Nat) {state other : State},
    other.observed = state.observed →
      (progressBranches fuel (.ofWriter writer) (plainBranches branches) count other).seen
        = (progressBranches fuel (.ofWriter writer) branches index state).seen
  | [], _, _, _, _, same => by
    rw [plainBranches, progressBranches, progressBranches]
    exact Prod.ext rfl same
  | .mk span condition body :: rest, index, count, state, other, same => by
    rw [plainBranches, progressBranches, progressBranches, State.environment_congr same,
      condition.holds_plain]
    cases condition.holds state.environment with
    | error failure => exact Prod.ext rfl same
    | ok truth =>
      cases truth with
      | false => exact seen_plainBranches rest (index + 1) (count + 1) same
      | true =>
        refine Progress.seen_andThen (body.seen_plain ?_) fun _ _ _ after => Prod.ext rfl after
        rw [State.observed_record_branchTaken, State.observed_record_branchTaken, same]

/-- The plain form of a last block shows what the block shows. -/
theorem Block.seen_plainLast : (otherwise : Block) → ∀ {state other : State},
    other.observed = state.observed →
      (otherwise.plain.progressLast fuel (.ofWriter writer) other).seen
        = (otherwise.progressLast fuel (.ofWriter writer) state).seen
  | .absent, _, _, same => by
    rw [Block.plain, Block.progressLast, Block.progressLast]
    exact Prod.ext rfl same
  | .present span stmts, _, _, same => by
    rw [Block.plain, Block.progressLast, Block.progressLast]
    refine Progress.seen_andThen (seen_plainAll stmts .void ?_) ?_
    · rw [State.observed_record_otherwiseTaken, State.observed_record_otherwiseTaken, same]
    · exact fun _ _ _ after => Prod.ext rfl after

/-- The plain form of a block shows what the block shows. -/
theorem Block.seen_plain : (body : Block) → ∀ {state other : State},
    other.observed = state.observed →
      (body.plain.progress fuel (.ofWriter writer) other).seen
        = (body.progress fuel (.ofWriter writer) state).seen
  | .absent, _, _, same => by
    rw [Block.plain, Block.progress, Block.progress]
    exact Prod.ext rfl same
  | .present _ stmts, _, _, same => by
    rw [Block.plain, Block.progress, Block.progress]
    exact seen_plainAll stmts .void same

end

/-- What a block shows depends on the observation only in which it begins. -/
theorem Block.seen_congr (body : Block) (same : other.observed = state.observed) :
    (body.progress fuel (.ofWriter writer) other).seen
      = (body.progress fuel (.ofWriter writer) state).seen :=
  (body.seen_plain rfl).symm.trans (body.seen_plain same)

/-- What a last block shows depends on the observation only in which it begins. -/
theorem Block.seen_congrLast (otherwise : Block) (same : other.observed = state.observed) :
    (otherwise.progressLast fuel (.ofWriter writer) other).seen
      = (otherwise.progressLast fuel (.ofWriter writer) state).seen :=
  (otherwise.seen_plainLast rfl).symm.trans (otherwise.seen_plainLast same)

/-- What branches show depends on the observation only in which they begin, and not on how they are
counted. -/
theorem seen_congrBranches (branches : List Branch) (index count : Nat)
    (same : other.observed = state.observed) :
    (progressBranches fuel (.ofWriter writer) branches count other).seen
      = (progressBranches fuel (.ofWriter writer) branches index state).seen :=
  (seen_plainBranches branches count 0 rfl).symm.trans (seen_plainBranches branches index 0 same)

end Plain

/-! ## Nodes -/

namespace Node

/-- A part of a program without places and parentheses. -/
def plain : Node → Node
  | program whole => program ⟨.unset, plainStmts whole.stmts⟩
  | stmt single => stmt single.plain
  | expr single => expr single.plain
  | missing => missing

/-- The plain form of any part of a program shows what that part shows. -/
theorem seen_plain (node : Node) (fuel : Nat) (writer : Writer) (state : State) :
    (node.plain.progress fuel (.ofWriter writer) state).seen
      = (node.progress fuel (.ofWriter writer) state).seen := by
  cases node with
  | program whole => exact seen_plainAll whole.stmts .void rfl
  | stmt single => exact single.seen_plain rfl
  | expr single =>
    rw [plain, progress, progress, run, run, single.evaluate_plain]
    cases single.evaluate state.environment <;> rfl
  | missing => rfl

/-- Runs that get equally far show the same at their ends. -/
theorem seen_run_eq {one two : Node} {fuel : Nat} {console : Console} {state : State}
    (further : (one.progress fuel console state).seen = (two.progress fuel console state).seen) :
    (one.run fuel console state).seen = (two.run fuel console state).seen := by
  rw [← (one.tracks fuel console state).outcome_eq, ← (two.tracks fuel console state).outcome_eq,
    Progress.seen_outcome, Progress.seen_outcome, further]

end Node

/-- **Evaluation ignores parentheses and places.** Two parts of programs that are the same without
parentheses and places are evaluated alike, from any state and on any writer: with every number of
rounds they end with the same value or fail for the same reason, with the same variables, lines and
assignments, or neither ends; and where they have not ended, they have got equally far and shown the
same. -/
theorem evaluation_ignores_layout {one two : Node} (same : one.plain = two.plain) (writer : Writer)
    (state : State) (fuel : Nat) :
    (one.run fuel (.ofWriter writer) state).seen = (two.run fuel (.ofWriter writer) state).seen ∧
      (one.run fuel (.ofWriter writer) state = .unfinished ↔
        two.run fuel (.ofWriter writer) state = .unfinished) ∧
      (one.progress fuel (.ofWriter writer) state).seen
        = (two.progress fuel (.ofWriter writer) state).seen := by
  have further : (one.progress fuel (.ofWriter writer) state).seen
      = (two.progress fuel (.ofWriter writer) state).seen := by
    rw [← one.seen_plain, same, two.seen_plain]
  have ends := Node.seen_run_eq further
  refine ⟨ends, ?_, further⟩
  rw [← Outcome.seen_eq_none, ends, Outcome.seen_eq_none]

/-- The program `x = true`, `console x`, `x = -"a"` with all nodes at one place, the right sides of
its assignments laid out in some way. -/
def negatedText (place : Span) (layOut : Expr → Expr) : Node :=
  .program ⟨place, [.assign place [0x78] (layOut (.boolean place true)),
    .console place (.name place [0x78]),
    .assign place [0x78] (layOut (.unary place .negate (layOut (.text place [0x22, 0x61, 0x22]))))]⟩

/-- With parentheses and on the first line the program fails for the same reason as without
parentheses and places, although it reports another place, and shows the same until then. -/
theorem evaluation_ignores_layout_negation :
    let place : Span := ⟨⟨[], 0, 1, 1⟩, ⟨[], 9, 1, 10⟩⟩
    let one := negatedText place fun expr => .paren place (.paren place expr)
    let two := negatedText .unset id
    one.plain = two.plain ∧
      ∃ first second,
        one.run 0 .unlimited (.start .empty)
          = .failed ⟨.mismatch .number (some .text), place⟩ first ∧
        two.run 0 .unlimited (.start .empty)
          = .failed ⟨.mismatch .number (some .text), .unset⟩ second ∧
        first.lines = [Bytes.utf8 "true"] ∧ first.observed = second.observed := by
  intro place one two
  have same : one.plain = two.plain := rfl
  have alike := evaluation_ignores_layout same (fun _ _ => true) (.start .empty) 0
  exact ⟨same, _, _, rfl, rfl, rfl, (Prod.ext_iff.1 (Option.some.inj alike.1)).2⟩

end ConsoleScript
