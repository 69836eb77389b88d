import ConsoleScript.Proofs.RunSteps

/-! # How far a run gets

A run whose loops need more rounds than they are given has no outcome, although it has done
something until then. `Progress` keeps the state in which the rounds ran out, so that a run without
end can be followed: with more and more rounds it gets further and further.

* **`Stmt.progress`** — runs a statement and keeps the state in any case;
* **`Progress.Tracks`**, **`Node.tracks`** — progress ends as the run does, and is a sequence of
  steps even where the run has no outcome;
* **`Progress.Trails`**, **`Node.trails`** — two runs side by side, one on a console that may refuse
  lines and perhaps with fewer rounds, the other on one that takes every line: they are the same up
  to where the first is refused a line or runs out of rounds;
* **`Node.progress_mono`** — more rounds only continue a run, and do not change one that ended. -/

namespace ConsoleScript

open Relation (ReflTransGen)

/-- How far a run gets. -/
inductive Progress (α : Type) where
  /-- To a result. -/
  | done (value : α) (state : State)
  /-- To a failure. -/
  | failed (failure : Failure) (state : State)
  /-- To a state in which the rounds ran out. -/
  | ongoing (state : State)

namespace Progress

variable {α β : Type}

/-- The state that a run got to. -/
def state : Progress α → State
  | done _ state | failed _ state | ongoing state => state

/-- How the run ends. -/
def outcome : Progress α → Outcome α
  | done value state => .done value state
  | failed failure state => .failed failure state
  | ongoing _ => .unfinished

/-- Goes on after a result. -/
def andThen (progress : Progress α) (next : α → State → Progress β) : Progress β :=
  match progress with
  | done value state => next value state
  | failed failure state => failed failure state
  | ongoing state => ongoing state

/-- The progress of a computation from a state that is not repeated. -/
def ofOutcome (state : State) : Outcome α → Progress α
  | .done value after => done value after
  | .failed failure after => failed failure after
  | .unfinished => ongoing state

@[simp] theorem outcome_ofOutcome (state : State) (outcome : Outcome α) :
    (ofOutcome state outcome).outcome = outcome := by
  cases outcome <;> rfl

/-- Runs `body` as long as `condition` holds, for at most `fuel` tests of the condition. -/
def repeatWhile (fuel : Nat) (condition : State → Except Failure Bool)
    (body : State → Progress Value) (rounds : Nat) (state : State) : Progress Nat :=
  match fuel with
  | 0 => ongoing state
  | fuel + 1 =>
    match condition state with
    | .error failure => failed failure state
    | .ok false => done rounds state
    | .ok true =>
      (body state).andThen fun _ next => repeatWhile fuel condition body (rounds + 1) next

end Progress

mutual

/-- How far a statement gets. -/
def Stmt.progress (fuel : Nat) (console : Console) : Stmt → State → Progress Value
  | .assign _ name value, state => .ofOutcome state (state.runAssignment name value)
  | .console span value, state => .ofOutcome state (state.runConsole console span value)
  | .conditional _ branches otherwise, state =>
    (progressBranches fuel console branches 0 state).andThen fun taken after =>
      if taken then .done .void after else otherwise.progressLast fuel console after
  | .loop span condition body, state =>
    (Progress.repeatWhile fuel (fun now => condition.holds now.environment)
      (body.progress fuel console) 0 state).andThen fun rounds after =>
        .done .void (after.record (.loopFinished rounds span.start))
  | .block _ stmts, state => progressAll fuel console stmts .void state

/-- How far statements get; `result` is the value of the last statement before them. -/
def progressAll (fuel : Nat) (console : Console) : List Stmt → Value → State → Progress Value
  | [], result, state => .done result state
  | stmt :: rest, _, state =>
    (stmt.progress fuel console state).andThen (progressAll fuel console rest)

/-- How far the branches of a conditional get, counted from `index`. -/
def progressBranches (fuel : Nat) (console : Console) :
    List Branch → Nat → State → Progress Bool
  | [], _, state => .done false state
  | .mk span condition body :: rest, index, state =>
    match condition.holds state.environment with
    | .error failure => .failed failure state
    | .ok true =>
      (body.progress fuel console (state.record (.branchTaken index span.start))).andThen
        fun _ after => .done true after
    | .ok false => progressBranches fuel console rest (index + 1) state

/-- How far the last block of a conditional gets. -/
def Block.progressLast (fuel : Nat) (console : Console) : Block → State → Progress Value
  | .absent, state => .done .void state
  | .present span stmts, state =>
    (progressAll fuel console stmts .void (state.record (.otherwiseTaken span.start))).andThen
      fun _ after => .done .void after

/-- How far a block gets. -/
def Block.progress (fuel : Nat) (console : Console) : Block → State → Progress Value
  | .absent, state => .done .void state
  | .present _ stmts, state => progressAll fuel console stmts .void state

end

/-- How far any part of a program gets. -/
def Node.progress (fuel : Nat) (console : Console) (node : Node) (state : State) :
    Progress Value :=
  match node with
  | program whole => progressAll fuel console whole.stmts .void state
  | stmt single => single.progress fuel console state
  | expr _ | missing => .ofOutcome state (node.run fuel console state)

/-! ## Progress ends as the run does -/

/-- Steps only add to what has happened. -/
theorem State.suffix_of_steps {parts : List Stmt} {console : Console} {state after : State}
    (steps : ReflTransGen (Step parts console) state after) : state.trace <:+ after.trace := by
  have further (now next : State) (earlier : state.trace <:+ now.trace)
      (last : Step parts console now next) : state.trace <:+ next.trace := by
    cases last with
    | assigned | printed | noted => exact earlier.trans (List.suffix_cons _ _)
  exact kept_of_steps further steps (List.suffix_refl _)

/-- Progress from a state that ends like an outcome, and gets where it gets by steps. -/
structure Progress.Tracks {α : Type} (parts : List Stmt) (console : Console) (state : State)
    (outcome : Outcome α) (progress : Progress α) : Prop where
  /-- It ends in the same way. -/
  outcome_eq : progress.outcome = outcome
  /-- It is a sequence of steps. -/
  steps : ReflTransGen (State.Step parts console) state progress.state

namespace Progress.Tracks

variable {α β : Type} {parts : List Stmt} {console : Console} {state : State}

/-- Nothing that has happened is undone. -/
theorem grows {outcome : Outcome α} {progress : Progress α}
    (tracked : progress.Tracks parts console state outcome) :
    state.trace <:+ progress.state.trace :=
  State.suffix_of_steps tracked.steps

/-- A computation that is not repeated and is a sequence of steps. -/
theorem ofOutcome {outcome : Outcome α} (follows : outcome.Follows parts console state) :
    (Progress.ofOutcome state outcome).Tracks parts console state outcome := by
  refine ⟨outcome_ofOutcome state outcome, ?_⟩
  cases outcome with
  | done value after => exact follows
  | failed failure after => exact follows.1
  | unfinished => exact .refl

/-- A step may be put before. -/
theorem prepend {between : State} {outcome : Outcome α} {progress : Progress α}
    (step : State.Step parts console state between)
    (later : progress.Tracks parts console between outcome) :
    progress.Tracks parts console state outcome :=
  ⟨later.outcome_eq, .head step later.steps⟩

/-- Progress goes on where other progress ended. -/
theorem andThen {outcome : Outcome α} {progress : Progress α} {next : α → State → Progress β}
    {later : α → State → Outcome β} (first : progress.Tracks parts console state outcome)
    (second : ∀ value after, (next value after).Tracks parts console after (later value after)) :
    (progress.andThen next).Tracks parts console state (outcome.andThen later) := by
  obtain ⟨rfl, steps⟩ := first
  cases progress with
  | done value after =>
    exact ⟨(second value after).outcome_eq, steps.trans (second value after).steps⟩
  | failed failure after => exact ⟨rfl, steps⟩
  | ongoing after => exact ⟨rfl, steps⟩

/-- A loop ends as its run does if one round does. -/
theorem repeatWhile {fuel : Nat} {condition : State → Except Failure Bool}
    {body : State → Outcome Value} {advance : State → Progress Value}
    (round : ∀ state, (advance state).Tracks parts console state (body state)) (rounds : Nat)
    (state : State) :
    (Progress.repeatWhile fuel condition advance rounds state).Tracks parts console state
      (ConsoleScript.repeatWhile fuel condition body rounds state) := by
  induction fuel generalizing rounds state with
  | zero => exact ⟨rfl, .refl⟩
  | succ fuel ih =>
    rw [Progress.repeatWhile, ConsoleScript.repeatWhile]
    cases condition state with
    | error failure => exact ⟨rfl, .refl⟩
    | ok truth =>
      cases truth with
      | false => exact ⟨rfl, .refl⟩
      | true =>
        have whole := (round state).andThen fun _ next => ih (rounds + 1) next
        cases ran : body state <;> rw [ran] at whole <;> exact whole

end Progress.Tracks

section Run

variable {parts : List Stmt} {fuel : Nat} {console : Console}

mutual

/-- The progress of a statement ends as its run does. -/
theorem Stmt.tracks : (stmt : Stmt) → stmt.parts ⊆ parts → ∀ state : State,
    (stmt.progress fuel console state).Tracks parts console state (stmt.run fuel console state)
  | .assign .., inside, state => by
    rw [Stmt.progress, Stmt.run]
    exact .ofOutcome (follows_assign state (inside List.mem_cons_self))
  | .console .., inside, state => by
    rw [Stmt.progress, Stmt.run]
    exact .ofOutcome (follows_console state (inside List.mem_cons_self))
  | .conditional span branches otherwise, inside, state => by
    obtain ⟨in_branches, in_otherwise⟩ := List.append_subset.1 (List.cons_subset.1 inside).2
    rw [Stmt.progress, Stmt.run]
    refine (tracksBranches branches in_branches 0 state).andThen ?_
    intro taken after
    cases taken with
    | true => exact ⟨rfl, .refl⟩
    | false => exact otherwise.tracksLast in_otherwise after
  | .loop span condition body, inside, state => by
    rw [Stmt.progress, Stmt.run]
    refine (Progress.Tracks.repeatWhile (body.tracks (List.cons_subset.1 inside).2) 0
      state).andThen ?_
    intro rounds after
    exact ⟨rfl, .single (.noted rfl rfl)⟩
  | .block _ stmts, inside, state => by
    rw [Stmt.progress, Stmt.run]
    exact tracksAll stmts (List.cons_subset.1 inside).2 .void state

/-- The progress of statements ends as their run does. -/
theorem tracksAll : (stmts : List Stmt) → stmtParts stmts ⊆ parts →
    ∀ (result : Value) (state : State),
      (progressAll fuel console stmts result state).Tracks parts console state
        (runAll fuel console stmts result state)
  | [], _, _, _ => by
    rw [progressAll, runAll]
    exact ⟨rfl, .refl⟩
  | stmt :: stmts, inside, _, state => by
    obtain ⟨in_first, in_others⟩ := List.append_subset.1 inside
    rw [progressAll, runAll]
    exact (stmt.tracks in_first state).andThen (tracksAll stmts in_others)

/-- The progress of branches ends as their run does. -/
theorem tracksBranches : (branches : List Branch) → branchParts branches ⊆ parts →
    ∀ (index : Nat) (state : State),
      (progressBranches fuel console branches index state).Tracks parts console state
        (runBranches fuel console branches index state)
  | [], _, _, _ => by
    rw [progressBranches, runBranches]
    exact ⟨rfl, .refl⟩
  | .mk span condition body :: branches, inside, index, state => by
    obtain ⟨in_body, in_others⟩ := List.append_subset.1 inside
    rw [progressBranches, runBranches]
    cases condition.holds state.environment with
    | error failure => exact ⟨rfl, .refl⟩
    | ok truth =>
      cases truth with
      | true =>
        refine .prepend (.noted rfl rfl) ((body.tracks in_body _).andThen ?_)
        intro _ _
        exact ⟨rfl, .refl⟩
      | false => exact tracksBranches branches in_others (index + 1) state

/-- The progress of the last block of a conditional ends as its run does. -/
theorem Block.tracksLast : (body : Block) → body.parts ⊆ parts → ∀ state : State,
    (body.progressLast fuel console state).Tracks parts console state
      (runOtherwise fuel console body state)
  | .absent, _, _ => by
    rw [Block.progressLast, runOtherwise]
    exact ⟨rfl, .refl⟩
  | .present span stmts, inside, state => by
    rw [Block.progressLast, runOtherwise]
    refine .prepend (.noted rfl rfl) ((tracksAll stmts inside .void _).andThen ?_)
    intro _ _
    exact ⟨rfl, .refl⟩

/-- The progress of a block ends as its run does. -/
theorem Block.tracks : (body : Block) → body.parts ⊆ parts → ∀ state : State,
    (body.progress fuel console state).Tracks parts console state (body.run fuel console state)
  | .absent, _, _ => by
    rw [Block.progress, Block.run]
    exact ⟨rfl, .refl⟩
  | .present _ stmts, inside, state => by
    rw [Block.progress, Block.run]
    exact tracksAll stmts inside .void state

end

/-- The progress of any part of a program ends as its run does. -/
theorem Node.tracks (node : Node) (fuel : Nat) (console : Console) (state : State) :
    (node.progress fuel console state).Tracks node.parts console state
      (node.run fuel console state) := by
  cases node with
  | program whole => exact tracksAll whole.stmts (List.Subset.refl _) .void state
  | stmt single => exact single.tracks (List.Subset.refl _) state
  | expr single =>
    refine ⟨Progress.outcome_ofOutcome state _, ?_⟩
    rw [progress, run]
    cases single.evaluate state.environment <;> exact .refl
  | missing => exact ⟨rfl, .refl⟩

end Run

/-! ## Two runs side by side -/

/-- A run is given no more rounds than another one, and its console takes no line that the other one
would refuse. -/
structure Confined (fuel more : Nat) (console other : Console) : Prop where
  /-- There are no more rounds. -/
  rounds : fuel ≤ more
  /-- The other console takes every line that this one takes. -/
  lines : ∀ trace line, console trace line = true → other trace line = true

/-- Every console is confined by one that takes every line. -/
theorem Confined.unlimited (fuel : Nat) (console : Console) :
    Confined fuel fuel console .unlimited :=
  ⟨Nat.le_refl fuel, fun _ _ _ => rfl⟩

/-- Progress on a console beside progress on another one: both are the same, or a line is refused
that the other one writes, or, if there are fewer rounds, they run out. -/
inductive Progress.Trails {α : Type} (fewer : Prop) (parts : List Stmt) (console other : Console) :
    Progress α → Progress α → Prop where
  /-- Both get equally far. -/
  | same (progress : Progress α) : Trails fewer parts console other progress progress
  /-- A line is refused. -/
  | refused {span : Span} {expr : Expr} {value : Value} {cut : State} {free : Progress α}
      (inside : .console span expr ∈ parts)
      (evaluated : expr.evaluate cut.environment = .ok value)
      (refuses : console cut.trace value.display = false)
      (takes : other cut.trace value.display = true)
      (further : .printed value.display :: cut.trace <:+ free.state.trace) :
      Trails fewer parts console other (.failed ⟨.outputRefused, span⟩ cut) free
  /-- The rounds run out. -/
  | stalled {state : State} {free : Progress α} (short : fewer)
      (further : state.trace <:+ free.state.trace) :
      Trails fewer parts console other (.ongoing state) free

namespace Progress.Trails

variable {α β : Type} {fewer : Prop} {parts : List Stmt} {console other : Console}

/-- Two runs go on side by side. -/
theorem andThen {held free : Progress α} {next later : α → State → Progress β}
    (first : held.Trails fewer parts console other free)
    (second : ∀ value after,
      (next value after).Trails fewer parts console other (later value after))
    (grows : ∀ value after, after.trace <:+ (later value after).state.trace) :
    (held.andThen next).Trails fewer parts console other (free.andThen later) := by
  -- Where only one of them goes on, what it did before is still there.
  have kept : free.state.trace <:+ (free.andThen later).state.trace := by
    cases free with
    | done value after => exact grows value after
    | failed | ongoing => exact List.suffix_refl _
  cases first with
  | same =>
    cases held with
    | done value after => exact second value after
    | failed failure after => exact .same _
    | ongoing after => exact .same _
  | refused inside evaluated refuses takes further =>
    exact .refused inside evaluated refuses takes (further.trans kept)
  | stalled short further => exact .stalled short (further.trans kept)

/-- Two loops run side by side if their rounds do. -/
theorem repeatWhile {fuel more : Nat} {condition : State → Except Failure Bool}
    {held free : State → Progress Value} {body : State → Outcome Value}
    (round : ∀ state, (held state).Trails fewer parts console other (free state))
    (tracked : ∀ state, (free state).Tracks parts other state (body state))
    (enough : fuel ≤ more) (short : fuel < more → fewer) (rounds : Nat) (state : State) :
    (Progress.repeatWhile fuel condition held rounds state).Trails fewer parts console other
      (Progress.repeatWhile more condition free rounds state) := by
  have whole (left rounds : Nat) (state : State) :
      (Progress.repeatWhile left condition free rounds state).Tracks parts other state
        (ConsoleScript.repeatWhile left condition body rounds state) :=
    .repeatWhile tracked rounds state
  induction fuel generalizing more rounds state with
  | zero =>
    cases more with
    | zero => exact .same _
    | succ more => exact .stalled (short (Nat.succ_pos more)) (whole _ rounds state).grows
  | succ fuel ih =>
    -- The other loop has a round left as well.
    obtain ⟨more, rfl⟩ : ∃ left, more = left + 1 :=
      ⟨more - 1, (Nat.sub_add_cancel (Nat.le_trans (Nat.succ_pos fuel) enough)).symm⟩
    rw [Progress.repeatWhile, Progress.repeatWhile]
    cases condition state with
    | error failure => exact .same _
    | ok truth =>
      cases truth with
      | false => exact .same _
      | true =>
        refine (round state).andThen ?_ fun _ next => (whole more (rounds + 1) next).grows
        intro _ next
        exact ih (Nat.le_of_succ_le_succ enough) (fun less => short (Nat.succ_lt_succ less))
          (rounds + 1) next

end Progress.Trails

section Comparison

variable {parts : List Stmt} {fuel more : Nat} {console other : Console}

/-- The line of a console statement is written on both consoles, or refused on one. -/
theorem trails_console {span : Span} {expr : Expr} (confined : Confined fuel more console other)
    (state : State) (inside : .console span expr ∈ parts) :
    (Progress.ofOutcome state (state.runConsole console span expr)).Trails (fuel < more) parts
      console other (Progress.ofOutcome state (state.runConsole other span expr)) := by
  rw [State.runConsole, State.runConsole]
  cases evaluated : expr.evaluate state.environment with
  | error failure => exact .same _
  | ok value =>
    dsimp only
    by_cases taken : console state.trace value.display = true
    · rw [if_pos taken, if_pos (confined.lines _ _ taken)]
      exact .same _
    · rw [if_neg taken]
      split
      · rename_i takes
        exact .refused inside evaluated (Bool.eq_false_iff.2 taken) takes (List.suffix_refl _)
      · exact .same _

mutual

/-- Two runs of a statement side by side. -/
theorem Stmt.trails (confined : Confined fuel more console other) : (stmt : Stmt) →
    stmt.parts ⊆ parts → ∀ state : State,
      (stmt.progress fuel console state).Trails (fuel < more) parts console other
        (stmt.progress more other state)
  | .assign .., _, _ => by
    rw [Stmt.progress, Stmt.progress]
    exact .same _
  | .console .., inside, state => by
    rw [Stmt.progress, Stmt.progress]
    exact trails_console confined state (inside List.mem_cons_self)
  | .conditional span branches otherwise, inside, state => by
    obtain ⟨in_branches, in_otherwise⟩ := List.append_subset.1 (List.cons_subset.1 inside).2
    rw [Stmt.progress, Stmt.progress]
    refine (trailsBranches confined branches in_branches 0 state).andThen ?_ ?_
    · intro taken after
      cases taken with
      | true => exact .same _
      | false => exact otherwise.trailsLast confined in_otherwise after
    · intro taken after
      cases taken with
      | true => exact List.suffix_refl _
      | false => exact (otherwise.tracksLast in_otherwise after).grows
  | .loop span condition body, inside, state => by
    -- The body is given all rounds each time; only the tests of the condition are counted.
    have nested := (List.cons_subset.1 inside).2
    rw [Stmt.progress, Stmt.progress]
    refine (Progress.Trails.repeatWhile (body.trails confined nested) (body.tracks nested)
      confined.rounds id 0 state).andThen ?_ ?_
    · intro rounds after
      exact .same _
    · intro rounds after
      exact List.suffix_cons _ _
  | .block _ stmts, inside, state => by
    rw [Stmt.progress, Stmt.progress]
    exact trailsAll confined stmts (List.cons_subset.1 inside).2 .void state

/-- Two runs of statements side by side. -/
theorem trailsAll (confined : Confined fuel more console other) : (stmts : List Stmt) →
    stmtParts stmts ⊆ parts → ∀ (result : Value) (state : State),
      (progressAll fuel console stmts result state).Trails (fuel < more) parts console other
        (progressAll more other stmts result state)
  | [], _, _, _ => by
    rw [progressAll, progressAll]
    exact .same _
  | stmt :: stmts, inside, _, state => by
    obtain ⟨in_first, in_others⟩ := List.append_subset.1 inside
    rw [progressAll, progressAll]
    exact (stmt.trails confined in_first state).andThen (trailsAll confined stmts in_others)
      fun value after => (tracksAll stmts in_others value after).grows

/-- Two runs of branches side by side. -/
theorem trailsBranches (confined : Confined fuel more console other) : (branches : List Branch) →
    branchParts branches ⊆ parts → ∀ (index : Nat) (state : State),
      (progressBranches fuel console branches index state).Trails (fuel < more) parts console other
        (progressBranches more other branches index state)
  | [], _, _, _ => by
    rw [progressBranches, progressBranches]
    exact .same _
  | .mk span condition body :: branches, inside, index, state => by
    obtain ⟨in_body, in_others⟩ := List.append_subset.1 inside
    rw [progressBranches, progressBranches]
    cases condition.holds state.environment with
    | error failure => exact .same _
    | ok truth =>
      cases truth with
      | true =>
        exact (body.trails confined in_body _).andThen (fun _ _ => .same _)
          fun _ _ => List.suffix_refl _
      | false => exact trailsBranches confined branches in_others (index + 1) state

/-- Two runs of the last block of a conditional side by side. -/
theorem Block.trailsLast (confined : Confined fuel more console other) : (body : Block) →
    body.parts ⊆ parts → ∀ state : State,
      (body.progressLast fuel console state).Trails (fuel < more) parts console other
        (body.progressLast more other state)
  | .absent, _, _ => by
    rw [Block.progressLast, Block.progressLast]
    exact .same _
  | .present span stmts, inside, state => by
    rw [Block.progressLast, Block.progressLast]
    exact (trailsAll confined stmts inside .void _).andThen (fun _ _ => .same _)
      fun _ _ => List.suffix_refl _

/-- Two runs of a block side by side. -/
theorem Block.trails (confined : Confined fuel more console other) : (body : Block) →
    body.parts ⊆ parts → ∀ state : State,
      (body.progress fuel console state).Trails (fuel < more) parts console other
        (body.progress more other state)
  | .absent, _, _ => by
    rw [Block.progress, Block.progress]
    exact .same _
  | .present _ stmts, inside, state => by
    rw [Block.progress, Block.progress]
    exact trailsAll confined stmts inside .void state

end

/-- Two runs of any part of a program side by side. -/
theorem Node.trails (confined : Confined fuel more console other) (node : Node) (state : State) :
    (node.progress fuel console state).Trails (fuel < more) node.parts console other
      (node.progress more other state) := by
  cases node with
  | program whole => exact trailsAll confined whole.stmts (List.Subset.refl _) .void state
  | stmt single => exact single.trails confined (List.Subset.refl _) state
  | expr | missing => exact .same _

/-- More rounds only continue a run: one that ended is not changed, and one that did not has done
more. -/
theorem Node.progress_mono (rounds : fuel ≤ more) (node : Node) (state : State) :
    node.progress more console state = node.progress fuel console state ∨
      node.run fuel console state = .unfinished ∧
        (node.progress fuel console state).state.trace
          <:+ (node.progress more console state).state.trace := by
  have ends := (node.tracks fuel console state).outcome_eq
  have trails : (node.progress fuel console state).Trails (fuel < more) node.parts console console
      (node.progress more console state) :=
    node.trails ⟨rounds, fun _ _ => id⟩ state
  generalize node.progress fuel console state = held at ends trails ⊢
  cases trails with
  | same => exact .inl rfl
  | refused _ _ refuses takes => exact absurd (refuses.symm.trans takes) Bool.false_ne_true
  | stalled _ further => exact .inr ⟨ends.symm, further⟩

/-- The trace of a run with more rounds extends that with fewer. -/
theorem Node.suffix_progress (node : Node) (state : State) (rounds : fuel ≤ more) :
    (node.progress fuel console state).state.trace
      <:+ (node.progress more console state).state.trace := by
  rcases node.progress_mono rounds state with same | ⟨-, further⟩
  · exact same ▸ List.suffix_refl _
  · exact further

/-- A run that ended ends in the same way with more rounds. -/
theorem Node.run_mono (node : Node) {state : State} (rounds : fuel ≤ more)
    (ends : node.run fuel console state ≠ .unfinished) :
    node.run more console state = node.run fuel console state := by
  rcases node.progress_mono rounds state with same | ⟨unfinished, -⟩
  · rw [← (node.tracks more console state).outcome_eq, same,
      (node.tracks fuel console state).outcome_eq]
  · exact absurd unfinished ends

end Comparison

end ConsoleScript
