import ConsoleScript.Proofs.AssignmentJournal
import ConsoleScript.Proofs.RunProgress

/-! # Refused lines

A console that refuses a line ends the run, and nothing else. The run on a console that takes every
line shows what would have happened; it may have no end, so it is followed as far as any number of
rounds gets.

* **`Console.Accepts`** — a console takes all lines of a trace, each behind what happened before it;
* **`Truncation`** — what the run that is refused a line has in common with the other one.

`refused_output_truncates` compares the two runs. -/

namespace ConsoleScript

open Relation (ReflTransGen)

/-- A console takes all lines of a trace, each behind what happened before it. -/
def Console.Accepts (console : Console) (trace : List Event) : Prop :=
  ∀ line past, .printed line :: past <:+ trace → console past line = true

namespace Console.Accepts

variable {console : Console} {state after : State}

/-- One more event is accepted unless it is a line that the console refuses. -/
theorem cons {event : Event} {trace : List Event} (accepts : console.Accepts trace)
    (taken : ∀ line, event = .printed line → console trace line = true) :
    console.Accepts (event :: trace) := by
  intro line past suffix
  rcases List.suffix_cons_iff.1 suffix with same | earlier
  · obtain ⟨same_event, rfl⟩ := List.cons.inj same
    exact taken line same_event.symm
  · exact accepts line past earlier

/-- A step writes only what the console takes. -/
theorem step {parts : List Stmt} (accepts : console.Accepts state.trace)
    (step : State.Step parts console state after) : console.Accepts after.trace := by
  cases step with
  | assigned => exact accepts.cons fun _ other => Event.noConfusion other
  | printed _ _ taken =>
    refine accepts.cons fun line same => ?_
    obtain rfl := Event.printed.inj same
    exact taken
  | noted no_line =>
    refine accepts.cons fun line same => ?_
    rw [same] at no_line
    cases no_line

/-- So do steps. -/
theorem steps {parts : List Stmt} (accepts : console.Accepts state.trace)
    (steps : ReflTransGen (State.Step parts console) state after) :
    console.Accepts after.trace :=
  State.kept_of_steps (fun _ _ (now : console.Accepts _) last => now.step last) steps accepts

/-- Nothing is to be taken at the start of a run. -/
theorem start (console : Console) (environment : Environment) :
    console.Accepts (State.start environment).trace := by
  intro line past suffix
  cases List.suffix_nil.1 suffix

end Console.Accepts

/-- A run ended in the state `cut`, being refused the line of the statement at `span`, where the run
on a console that takes every line gets as far as `full`. -/
structure Truncation (node : Node) (environment : Environment) (console : Console) (full : State)
    (span : Span) (line : Bytes) (cut : State) : Prop where
  /-- The line shows the value of a console statement at this place. -/
  shown : ∃ expr value, .console span expr ∈ node.parts ∧
    expr.evaluate cut.environment = .ok value ∧ value.display = line
  /-- It is the first line that is refused. -/
  accepts : console.Accepts cut.trace
  /-- It is refused. -/
  refuses : console cut.trace line = false
  /-- Everything has happened as in the other run, which goes on by writing the line. -/
  events : cut.events ++ [.printed line] <+: full.events
  /-- The output is that of the other run, cut just before the line. -/
  lines : cut.lines ++ [line] <+: full.lines
  /-- The assignments are the first ones of the other run. -/
  journal : cut.journal <+: full.journal
  /-- The variables are what these assignments lead to. -/
  replayed : environment.replay cut.journal = cut.environment

/-- A run that is refused a line and got as far as `cut` is truncated there. -/
theorem Truncation.of_suffix {node : Node} {environment : Environment} {console : Console}
    {full cut : State} {span : Span} {expr : Expr} {value : Value}
    (inside : .console span expr ∈ node.parts)
    (evaluated : expr.evaluate cut.environment = .ok value)
    (steps : ReflTransGen (State.Step node.parts console) (.start environment) cut)
    (refuses : console cut.trace value.display = false)
    (further : .printed value.display :: cut.trace <:+ full.trace) :
    Truncation node environment console full span value.display cut := by
  have events : cut.events ++ [.printed value.display] <+: full.events := by
    have reversed := List.reverse_prefix.2 further
    rwa [List.reverse_cons] at reversed
  have lines : cut.lines ++ [value.display] <+: full.lines := by
    have filtered := events.filterMap Event.line?
    rwa [List.filterMap_append] at filtered
  have journal : cut.journal <+: full.journal :=
    ((List.prefix_append _ _).trans events).filterMap Event.assignment?
  have accepts := (Console.Accepts.start console environment).steps steps
  have journaled := (State.Journaled.start environment).steps steps
  exact ⟨⟨expr, value, inside, evaluated, rfl⟩, accepts, refuses, events, lines, journal,
    journaled.replayed⟩

/-- A run that is refused nothing is the run on a console that takes every line; any other one is
refused a line of that run. -/
theorem Node.progress_eq_or_refused (node : Node) (fuel : Nat) (console : Console) (state : State) :
    node.progress fuel console state = node.progress fuel .unlimited state ∨
      ∃ span expr value cut, .console span expr ∈ node.parts ∧
        node.progress fuel console state = .failed ⟨.outputRefused, span⟩ cut ∧
        expr.evaluate cut.environment = .ok value ∧ console cut.trace value.display = false ∧
        .printed value.display :: cut.trace
          <:+ (node.progress fuel .unlimited state).state.trace := by
  have trails := node.trails (.unlimited fuel console) state
  generalize node.progress fuel console state = held at trails ⊢
  cases trails with
  | same => exact .inl rfl
  | refused inside evaluated refuses _ further =>
    exact .inr ⟨_, _, _, _, inside, rfl, evaluated, refuses, further⟩
  | stalled short => exact absurd short (Nat.lt_irrefl fuel)

/-- **A console that refuses lines only truncates a run.** `free` follows the run of any part of a
program on a console that takes every line: it ends as that run does, and more rounds continue it,
so that a run without end is followed as well. If the console takes all lines of this run, then both
runs are the same as far as the rounds get: in result, output, variables and events. If not, the run
fails, however many more rounds there are, at the place of the console statement whose line is the
first to be refused; its output is that of the other run, cut just before this line, its assignments
are the first ones of the other run, and its variables are what these assignments lead to. -/
theorem refused_output_truncates (node : Node) (environment : Environment) (console : Console)
    (fuel : Nat) :
    let start := State.start environment
    let free (rounds : Nat) := node.progress rounds .unlimited start
    (∀ rounds, (free rounds).outcome = node.run rounds .unlimited start) ∧
      (∀ rounds more, rounds ≤ more → free more = free rounds ∨
        node.run rounds .unlimited start = .unfinished ∧
          (free rounds).state.events <+: (free more).state.events) ∧
      (console.Accepts (free fuel).state.trace →
        node.progress fuel console start = free fuel ∧
          node.run fuel console start = node.run fuel .unlimited start) ∧
      (¬console.Accepts (free fuel).state.trace →
        ∃ span line cut, ∀ more, fuel ≤ more →
          node.run more console start = .failed ⟨.outputRefused, span⟩ cut ∧
            Truncation node environment console (free more).state span line cut) := by
  intro start free
  have held_tracks := node.tracks fuel console start
  have free_tracks := node.tracks fuel .unlimited start
  refine ⟨fun rounds => (node.tracks rounds .unlimited start).outcome_eq, ?_, ?_, ?_⟩
  · intro rounds more enough
    refine (node.progress_mono enough start).imp_right ?_
    rintro ⟨unfinished, further⟩
    exact ⟨unfinished, List.reverse_prefix.2 further⟩
  · intro accepts
    rcases node.progress_eq_or_refused fuel console start with
      same | ⟨span, expr, value, cut, -, -, -, refuses, further⟩
    · exact ⟨same, by rw [← held_tracks.outcome_eq, same, free_tracks.outcome_eq]⟩
    · -- The refused line is one of the lines that the console is said to take.
      exact absurd (accepts _ _ further) (by simp [refuses])
  · intro rejects
    rcases node.progress_eq_or_refused fuel console start with
      same | ⟨span, expr, value, cut, inside, ended, evaluated, refuses, further⟩
    · -- All that the run has written was taken, and this is all that the other run has written.
      refine absurd ?_ rejects
      have accepts := (Console.Accepts.start console environment).steps held_tracks.steps
      rwa [show node.progress fuel console (.start environment) = free fuel from same] at accepts
    · refine ⟨span, value.display, cut, fun more enough => ?_⟩
      have failed : node.run fuel console start = .failed ⟨.outputRefused, span⟩ cut := by
        rw [← held_tracks.outcome_eq, ended]
        rfl
      have steps := held_tracks.steps
      rw [ended] at steps
      refine ⟨?_, .of_suffix inside evaluated steps refuses
        (further.trans (node.suffix_progress start enough))⟩
      rw [node.run_mono enough (by simp [failed]), failed]

/-- Binds `x` and prints it. -/
def printingRound : Block :=
  .present .unset [.assign .unset [0x78] (.nil .unset), .console .unset (.name .unset [0x78])]

/-- Does so without end. -/
def endlessPrinting : Node :=
  .stmt (.loop .unset (.boolean .unset true) printingRound)

theorem run_printingRound (fuel : Nat) (state : State) :
    ∃ value after, printingRound.run fuel .unlimited state = .done value after := by
  simp [printingRound, Block.run, runAll, Stmt.run, State.runAssignment, State.runConsole,
    Expr.evaluate, State.assign, Environment.get?_set, Console.unlimited]

theorem run_endlessPrinting (fuel : Nat) (state : State) :
    endlessPrinting.run fuel .unlimited state = .unfinished := by
  have endless (left rounds : Nat) (state : State) :
      repeatWhile left (fun now => (Expr.boolean .unset true).holds now.environment)
        (printingRound.run fuel .unlimited) rounds state = .unfinished := by
    induction left generalizing rounds state with
    | zero => rfl
    | succ left ih =>
      obtain ⟨value, after, ran⟩ := run_printingRound fuel state
      rw [repeatWhile, ran]
      exact ih (rounds + 1) after
  rw [endlessPrinting, Node.run, Stmt.run, endless]
  rfl

/-- The loop has no end on a console that takes every line. On one that takes five bytes the second
round is refused its line, behind one line and two assignments. -/
theorem refused_output_truncates_endless :
    (∀ fuel, endlessPrinting.run fuel .unlimited (.start .empty) = .unfinished) ∧
      ∃ span line cut, cut.lines = [Bytes.utf8 "nil"] ∧
        cut.journal = [([0x78], none, .nil), ([0x78], some .nil, .nil)] ∧ ∀ more, 2 ≤ more →
          endlessPrinting.run more (.limited 5) (.start .empty)
            = .failed ⟨.outputRefused, span⟩ cut ∧
          Truncation endlessPrinting .empty (.limited 5)
            (endlessPrinting.progress more .unlimited (.start .empty)).state span line cut := by
  refine ⟨fun fuel => run_endlessPrinting fuel _, ?_⟩
  have rejects : ¬(Console.limited 5).Accepts
      (endlessPrinting.progress 2 .unlimited (.start .empty)).state.trace := by
    intro accepts
    have taken := accepts (Bytes.utf8 "nil") _ ⟨[], rfl⟩
    revert taken
    decide
  obtain ⟨span, line, cut, truncated⟩ :=
    (refused_output_truncates endlessPrinting .empty (.limited 5) 2).2.2.2 rejects
  refine ⟨span, line, cut, ?_, ?_, truncated⟩
  all_goals
    obtain ⟨-, rfl⟩ := Outcome.failed.inj (truncated 2 (Nat.le_refl 2)).1
    rfl

end ConsoleScript
