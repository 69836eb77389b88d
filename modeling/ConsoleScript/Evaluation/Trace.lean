import ConsoleScript.Evaluation.Environment
import ConsoleScript.Evaluation.Fault

/-! # What a run does

A run changes the environment and leaves a trace: lines on the console, assignments, and notes about
the control flow, all in one order. The trace is kept newest first, as a run extends it;
`State.events` gives it back in the order of time. A `Console` decides for each line whether it is
taken. -/

namespace ConsoleScript

/-- Something that happens in a run. -/
inductive Event where
  /-- A line was written to the console. -/
  | printed (line : Bytes)
  /-- A name was bound; `previous` is its binding just before. -/
  | assigned (name : Bytes) (previous : Option Value) (value : Value)
  /-- A branch of a conditional was entered, counted from zero. -/
  | branchTaken (index : Nat) (position : Position)
  /-- The last block of a conditional was entered. -/
  | otherwiseTaken (position : Position)
  /-- A loop came to its end after some rounds. -/
  | loopFinished (rounds : Nat) (position : Position)
  deriving DecidableEq

namespace Event

/-- The line that an event wrote, if it wrote one. -/
def line? : Event → Option Bytes
  | printed line => some line
  | _ => none

/-- Name, binding before and new value, if an event is an assignment. -/
def assignment? : Event → Option (Bytes × Option Value × Value)
  | assigned name previous value => some (name, previous, value)
  | _ => none

end Event

/-- The state of a run. -/
structure State where
  /-- The variables. -/
  environment : Environment
  /-- What has happened, newest first. -/
  trace : List Event

namespace State

/-- The state before a run in an environment. -/
def start (environment : Environment) : State :=
  ⟨environment, []⟩

/-- The state with one more event. -/
def record (state : State) (event : Event) : State :=
  { state with trace := event :: state.trace }

/-- The state after binding a name. -/
def assign (state : State) (name : Bytes) (value : Value) : State :=
  let exchanged := state.environment.exchange name value
  { environment := exchanged.2
    trace := .assigned name exchanged.1 value :: state.trace }

theorem assign_eq (state : State) (name : Bytes) (value : Value) :
    state.assign name value
      = { environment := state.environment.set name value
          trace := .assigned name (state.environment.get? name) value :: state.trace } := rfl

/-- What has happened, in order. -/
def events (state : State) : List Event :=
  state.trace.reverse

/-- The lines written to the console, in order. -/
def lines (state : State) : List Bytes :=
  state.events.filterMap Event.line?

/-- The text written to the console. -/
def output (state : State) : Bytes :=
  Bytes.unlines state.lines

end State

/-- Decides whether a line is taken, given what happened before, newest first. -/
abbrev Console := List Event → Bytes → Bool

namespace Console

/-- A console that takes every line. -/
def unlimited : Console :=
  fun _ _ => true

/-- A console that takes at most `limit` bytes, counting a newline for each line. A line that would
exceed the limit is refused as a whole. -/
def limited (limit : Int) : Console :=
  fun trace line =>
    Int.ofNat ((trace.filterMap Event.line?).foldl (fun total line => total + line.length + 1) 0
      + line.length + 1) ≤ limit

end Console

/-- How a run ends. -/
inductive Outcome (α : Type) where
  /-- With a result. -/
  | done (value : α) (state : State)
  /-- With a failure. -/
  | failed (failure : Failure) (state : State)
  /-- Not within the rounds that its loops were given. -/
  | unfinished

namespace Outcome

/-- Goes on after a result; a failure and a run without end stay what they are. -/
def andThen {α β : Type} (outcome : Outcome α) (next : α → State → Outcome β) : Outcome β :=
  match outcome with
  | done value state => next value state
  | failed failure state => failed failure state
  | unfinished => unfinished

/-- The state at the end of a run, if it ended. -/
def state? {α : Type} : Outcome α → Option State
  | done _ state => some state
  | failed _ state => some state
  | unfinished => none

@[simp] theorem andThen_done {α β : Type} (value : α) (state : State)
    (next : α → State → Outcome β) : (done value state).andThen next = next value state := rfl

@[simp] theorem andThen_failed {α β : Type} (failure : Failure) (state : State)
    (next : α → State → Outcome β) :
    (failed failure state : Outcome α).andThen next = failed failure state := rfl

@[simp] theorem andThen_unfinished {α β : Type} (next : α → State → Outcome β) :
    (unfinished : Outcome α).andThen next = unfinished := rfl

/-- The outcome of a computation that does not change the state. -/
def ofExcept {α : Type} (state : State) : Except Failure α → Outcome α
  | .ok value => done value state
  | .error failure => failed failure state

end Outcome

end ConsoleScript
