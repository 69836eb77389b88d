import ConsoleScript.Proofs.BlankText
import ConsoleScript.Proofs.PlainEvaluation
import ConsoleScript.Proofs.TextJoining
import ConsoleScript.Session
import Mathlib

/-! # Sessions agree with runs

Feeding lines to a session does what running their text as a whole does.

* **`Session.Course`** — the course of a session without commands: the lines it was fed, the chunks
  it completed, what it wrote and where it ended;
* **`Session.Course.source_eq`** — the chunks make up the text of the lines;
* **`Session.completes`** — completing a chunk runs its program and writes its output;
* **`Session.Course.runs`**, **`Session.Course.fails`** — so the statements of the chunks, one
  behind the other, run to where the session ends, or fail where its first failing chunk does.

`session_agrees_with_run` puts these together with the compilation of joined texts. -/

namespace ConsoleScript

/-! ## What a session writes -/

namespace Emission

theorem outText_append (emissions more : List Emission) :
    outText (emissions ++ more) = outText emissions ++ outText more :=
  List.flatMap_append

end Emission

namespace Session

/-- Without echo, what is written about an event is its line. -/
theorem outText_emissionOf {style : SessionStyle} (quiet : style.echo = false) (event : Event) :
    Emission.outText (emissionOf style event).toList = Bytes.unlines event.line?.toList := by
  cases event with
  | printed line => rfl
  | assigned name previous value =>
    cases previous with
    | none => rfl
    | some before =>
      simp only [emissionOf, quiet, Bool.false_eq_true, if_false]
      rfl
  | branchTaken | otherwiseTaken | loopFinished => rfl

/-- Without echo, what is written about a run is its output. -/
theorem outText_events {style : SessionStyle} (quiet : style.echo = false) (state : State) :
    Emission.outText (state.events.filterMap (emissionOf style)) = state.output := by
  rw [State.output, State.lines]
  induction state.events with
  | nil => rfl
  | cons event events ih =>
    rw [List.filterMap_eq_flatMap_toList, List.flatMap_cons, ← List.filterMap_eq_flatMap_toList,
      Emission.outText_append, outText_emissionOf quiet, ih, ← Bytes.unlines_append,
      List.filterMap_eq_flatMap_toList, List.filterMap_eq_flatMap_toList, List.flatMap_cons]

/-- Findings are not written to the output. -/
theorem outText_findings (style : SessionStyle) (findings : List Finding) :
    Emission.outText (findings.map (emissionOfFinding style)) = [] := by
  induction findings with
  | nil => rfl
  | cons finding findings ih => exact ih

/-! ## Completing a chunk -/

/-- A line that is no command between chunks is added to the chunk. -/
theorem feed_eq_collect {fuel : Nat} {style : SessionStyle} {session : Session} {line : Bytes}
    (plain : session.isPending = false → command? line = none) :
    session.feed fuel style line = session.collect fuel style line := by
  rw [feed]
  cases pending : session.isPending with
  | true => rfl
  | false => simp only [plain pending, Bool.false_eq_true, if_false]

/-- What collecting a line does: the chunk stays unfinished, or it is white space and dropped, or it
is run. -/
theorem collect_cases {fuel : Nat} {style : SessionStyle} {session : Session} {line : Bytes}
    {reply : Reply} (collected : session.collect fuel style line = some reply) :
    (∃ depth, 0 < depth ∧
      reply = ⟨⟨session.environment, session.pendingText ++ line ++ [0x0a], depth⟩, [], true⟩) ∨
    ((session.pendingText ++ line ++ [0x0a]).trim = [] ∧
      reply = ⟨⟨session.environment, [], 0⟩, [], true⟩) ∨
    ∃ result, runChunk fuel style session.environment (session.pendingText ++ line ++ [0x0a])
        = some result ∧ reply = ⟨⟨result.1, [], 0⟩, result.2, true⟩ := by
  rw [collect] at collected
  split at collected
  · rename_i unfinished
    exact .inl ⟨_, Int.pos_iff_toNat_pos.1 unfinished, (Option.some.inj collected).symm⟩
  · split at collected
    · rename_i blank
      exact .inr (.inl ⟨List.isEmpty_iff.1 blank, (Option.some.inj collected).symm⟩)
    · obtain ⟨result, ran, rfl⟩ := Option.map_eq_some_iff.1 collected
      exact .inr (.inr ⟨result, ran, rfl⟩)

end Session

/-- Only separators spell no statement. -/
theorem SpellsRun.eq_nil_of_allSeparators {tokens : List Token} {stmts : List Stmt}
    (spelled : SpellsRun tokens stmts) (separators : Token.AllSeparators tokens) : stmts = [] := by
  cases spelled with
  | done => rfl
  | cons _ first _ =>
    obtain ⟨token, rest, rfl, -, starts⟩ := first.head
    have separator := separators token (by simp)
    rw [TokenKind.isSeparator_of_startsStmt starts] at separator
    exact absurd separator Bool.false_ne_true

/-- White space without flaws makes no tokens but separators. -/
theorem Lexing.allSeparators_of_blank {source : Bytes} (blank : source.trim = [])
    (sound : ∀ piece ∈ pieces source, piece.complaint? = none) (start : Position) :
    Token.AllSeparators (marks start source) := by
  obtain ⟨units, members, rfl⟩ := Bytes.exists_flatten_of_trim blank
  intro token member
  obtain ⟨piece, inside, found⟩ := Lexing.exists_piece_of_mem_marks member
  rcases pieces_of_blank members sound piece inside with gap | newline
  · rw [gap] at found
    cases found
  · rw [newline, Option.some.injEq] at found
    rw [← found]
    rfl

/-- White space that compiles holds no statement. -/
theorem Compilation.stmts_eq_nil_of_blank {source file : Bytes} {program : Program}
    (compiled : (compile source file).program? = some program) (blank : source.trim = []) :
    program.stmts = [] := by
  obtain ⟨sound, spelled, -⟩ := program?_eq_some_iff.1 compiled
  exact spelled.eq_nil_of_allSeparators (Lexing.allSeparators_of_blank blank sound _)

/-- A chunk that a session completed. -/
structure Chunk where
  /-- The variables before it. -/
  environment : Environment
  /-- Its text. -/
  source : Bytes

namespace Chunk

/-- The program that a chunk is on its own, if it has no error. -/
def program? (chunk : Chunk) : Option Program :=
  (Compilation.compile chunk.source Session.sourceName).program?

/-- The statements of a chunk, if it has no error. -/
def stmts (chunk : Chunk) : List Stmt :=
  (chunk.program?.map Program.stmts).getD []

/-- A chunk compiles, and its program has an outcome. -/
def RunsTo (fuel : Nat) (chunk : Chunk) (outcome : Outcome Value) : Prop :=
  ∃ program, chunk.program? = some program ∧
    program.run fuel Console.unlimited (.start chunk.environment) = outcome

/-- A chunk runs without a failure. -/
def Succeeds (fuel : Nat) (chunk : Chunk) : Prop :=
  ∃ value state, chunk.RunsTo fuel (.done value state)

/-- A chunk runs into a failure. -/
def Fails (fuel : Nat) (failure : Failure) (chunk : Chunk) : Prop :=
  ∃ state, chunk.RunsTo fuel (.failed failure state)

theorem stmts_eq {chunk : Chunk} {program : Program} (compiled : chunk.program? = some program) :
    chunk.stmts = program.stmts := by
  rw [stmts, compiled]
  rfl

theorem RunsTo.compiles {fuel : Nat} {chunk : Chunk} {outcome : Outcome Value}
    (runs : chunk.RunsTo fuel outcome) : chunk.program?.isSome := by
  obtain ⟨program, compiled, -⟩ := runs
  rw [compiled]
  rfl

/-- A chunk that compiles runs as its statements do. -/
theorem runAll_stmts {fuel : Nat} {chunk : Chunk} {outcome : Outcome Value}
    (runs : chunk.RunsTo fuel outcome) :
    runAll fuel Console.unlimited chunk.stmts .void (.start chunk.environment) = outcome := by
  obtain ⟨program, compiled, ran⟩ := runs
  rw [stmts_eq compiled]
  exact ran

end Chunk

namespace Session

/-- Running a chunk that has an outcome gives the variables of its run and writes its output. -/
theorem runChunk_of_runsTo {fuel : Nat} {style : SessionStyle} (quiet : style.echo = false)
    {chunk : Chunk} {outcome : Outcome Value} {state : State} (runs : chunk.RunsTo fuel outcome)
    (ends : outcome.state? = some state) :
    ∃ emissions, runChunk fuel style chunk.environment chunk.source
        = some (state.environment, emissions) ∧
      Emission.outText emissions = state.output := by
  obtain ⟨program, compiled, ran⟩ := runs
  have found : (Compilation.compile chunk.source sourceName).program? = some program := compiled
  simp only [runChunk, found, ran]
  cases outcome with
  | done value last =>
    obtain rfl := Option.some.inj ends
    refine ⟨_, rfl, ?_⟩
    rw [Emission.outText_append, outText_findings, outText_events quiet, List.nil_append]
  | failed failure last =>
    -- The failure itself is not written to the output.
    obtain rfl := Option.some.inj ends
    refine ⟨_, rfl, ?_⟩
    rw [Emission.outText_append, Emission.outText_append, outText_findings, outText_events quiet,
      List.nil_append]
    exact List.append_nil _
  | unfinished => cases ends

/-- The chunk that a line completes. -/
def chunkOf (session : Session) (line : Bytes) : Chunk :=
  ⟨session.environment, session.pendingText ++ line ++ [0x0a]⟩

section Lines

variable {fuel : Nat} {style : SessionStyle} {session : Session} {line : Bytes} {reply : Reply}

/-- Completing a chunk runs it: the session goes on with the variables of its run, and writes its
output. -/
theorem completes (quiet : style.echo = false)
    (plain : session.isPending = false → command? line = none)
    (fed : session.feed fuel style line = some reply) (closed : reply.session.isPending = false)
    {outcome : Outcome Value} {state : State} (runs : (session.chunkOf line).RunsTo fuel outcome)
    (ends : outcome.state? = some state) :
    reply.session = ⟨state.environment, [], 0⟩ ∧
      Emission.outText reply.emissions = state.output := by
  rw [feed_eq_collect plain] at fed
  obtain ⟨depth, positive, rfl⟩ | ⟨blank, rfl⟩ | ⟨result, ran, rfl⟩ := collect_cases fed
  · simp [isPending, positive] at closed
  · -- Nothing is run, and there is nothing to run.
    obtain ⟨program, compiled, rfl⟩ := runs
    rw [Program.run, Compilation.stmts_eq_nil_of_blank compiled blank, runAll] at ends
    obtain rfl := Option.some.inj ends
    exact ⟨rfl, rfl⟩
  · obtain ⟨emissions, answered, output⟩ := runChunk_of_runsTo quiet runs ends
    obtain rfl := Option.some.inj (ran.symm.trans answered)
    exact ⟨rfl, output⟩

/-- A completed chunk that compiles succeeds or fails. -/
theorem settles (plain : session.isPending = false → command? line = none)
    (fed : session.feed fuel style line = some reply) (closed : reply.session.isPending = false)
    (compiles : (session.chunkOf line).program?.isSome) :
    (session.chunkOf line).Succeeds fuel ∨
      ∃ failure, (session.chunkOf line).Fails fuel failure := by
  obtain ⟨program, compiled⟩ := Option.isSome_iff_exists.1 compiles
  rw [feed_eq_collect plain] at fed
  obtain ⟨depth, positive, rfl⟩ | ⟨blank, rfl⟩ | ⟨result, ran, rfl⟩ := collect_cases fed
  · simp [isPending, positive] at closed
  · refine .inl ⟨.void, .start session.environment, program, compiled, ?_⟩
    rw [Program.run, Compilation.stmts_eq_nil_of_blank compiled blank, runAll]
    rfl
  · have found : (Compilation.compile (session.pendingText ++ line ++ [0x0a]) sourceName).program?
        = some program := compiled
    cases outcome : program.run fuel Console.unlimited (.start session.environment) with
    | done value state => exact .inl ⟨value, state, program, compiled, outcome⟩
    | failed failure state => exact .inr ⟨failure, state, program, compiled, outcome⟩
    | unfinished =>
      simp only [runChunk, found, outcome] at ran
      cases ran

/-- A line that does not complete a chunk is kept, and nothing else happens. -/
theorem keeps (plain : session.isPending = false → command? line = none)
    (fed : session.feed fuel style line = some reply)
    (unfinished : reply.session.isPending = true) :
    reply.session.environment = session.environment ∧
      reply.session.pendingText = session.pendingText ++ line ++ [0x0a] ∧ reply.emissions = [] := by
  rw [feed_eq_collect plain] at fed
  -- A chunk that is dropped or run leaves nothing pending.
  obtain ⟨depth, positive, rfl⟩ | ⟨blank, rfl⟩ | ⟨result, ran, rfl⟩ := collect_cases fed
  · exact ⟨rfl, rfl, rfl⟩
  · simp [isPending] at unfinished
  · simp [isPending] at unfinished

/-- A balanced chunk with an outcome is answered: the session goes on with the variables of its run,
and writes its output. -/
theorem feed_of_runsTo (quiet : style.echo = false) (session : Session) (line : Bytes)
    (plain : session.isPending = false → command? line = none)
    (balanced : session.depth + line.count 0x7b ≤ line.count 0x7d)
    (solid : (session.chunkOf line).source.trim.isEmpty = false) {outcome : Outcome Value}
    {state : State} (runs : (session.chunkOf line).RunsTo fuel outcome)
    (ends : outcome.state? = some state) :
    ∃ emissions, session.feed fuel style line = some ⟨⟨state.environment, [], 0⟩, emissions, true⟩ ∧
      Emission.outText emissions = state.output := by
  have shut : ¬ 0 < session.surplus line := by
    rw [surplus]
    omega
  have full : ¬ (session.pendingText ++ line ++ [0x0a]).trim.isEmpty = true :=
    Bool.eq_false_iff.1 solid
  obtain ⟨emissions, answered, output⟩ := runChunk_of_runsTo quiet runs ends
  have ran : runChunk fuel style session.environment (session.pendingText ++ line ++ [0x0a])
      = some (state.environment, emissions) := answered
  refine ⟨emissions, ?_, output⟩
  rw [feed_eq_collect plain, collect, if_neg shut, if_neg full, ran, Option.map_some]

end Lines

end Session

/-! ## Running statements one behind the other -/

section RunAll

variable {fuel : Nat} {console : Console}

/-- Statements in two parts run part by part. -/
theorem runAll_append (stmts more : List Stmt) (result : Value) (state : State) :
    runAll fuel console (stmts ++ more) result state
      = (runAll fuel console stmts result state).andThen (runAll fuel console more) := by
  induction stmts generalizing result state with
  | nil =>
    rw [List.nil_append, runAll]
    rfl
  | cons stmt stmts ih =>
    rw [List.cons_append, runAll, runAll]
    cases stmt.run fuel console state with
    | done value after => exact ih value after
    | failed failure after => rfl
    | unfinished => rfl

/-- The value before statements does not matter to the state behind them. -/
theorem runAll_done {stmts : List Stmt} {result value : Value} {state after : State}
    (ran : runAll fuel console stmts result state = .done value after) (other : Value) :
    ∃ value, runAll fuel console stmts other state = .done value after := by
  cases stmts with
  | nil =>
    rw [runAll] at ran
    obtain ⟨-, rfl⟩ := Outcome.done.inj ran
    exact ⟨other, by rw [runAll]⟩
  | cons stmt stmts =>
    rw [runAll] at ran
    exact ⟨value, by rw [runAll, ran]⟩

/-- The value before statements does not matter to their failure. -/
theorem runAll_failed {stmts : List Stmt} {result : Value} {failure : Failure}
    {state after : State} (ran : runAll fuel console stmts result state = .failed failure after)
    (other : Value) : runAll fuel console stmts other state = .failed failure after := by
  cases stmts with
  | nil =>
    rw [runAll] at ran
    cases ran
  | cons stmt stmts =>
    rw [runAll] at ran
    rw [runAll, ran]

end RunAll

/-- The run of a program, without places, is the run of the plain statements. -/
theorem Program.run_plain {stmts : List Stmt} {program : Program}
    (same : bareStmts program.stmts = bareStmts stmts) (fuel : Nat) (environment : Environment) :
    (program.run fuel Console.unlimited (.start environment)).plain []
      = runAll fuel Console.unlimited (plainStmts stmts) .void (.start environment) := by
  rw [← plainStmts_congr same]
  exact (runAll_plain (Console.unlimited_ignores []) fuel program.stmts .void
    (.start environment)).symm

namespace Chunk

variable {fuel : Nat} {chunk : Chunk} {state : State}

/-- A chunk runs upon an earlier trace as it runs on its own, up to places. -/
theorem RunsTo.done_upon {value : Value} (runs : chunk.RunsTo fuel (.done value state))
    (past : List Event) (result : Value) :
    ∃ value, runAll fuel Console.unlimited (plainStmts chunk.stmts) result
      ⟨chunk.environment, past⟩ = .done value (state.plain past) := by
  have upon := runAll_plain (Console.unlimited_ignores past) fuel chunk.stmts .void
    (.start chunk.environment)
  rw [runAll_stmts runs] at upon
  exact runAll_done upon result

/-- A chunk fails upon an earlier trace as it fails on its own, up to places. -/
theorem RunsTo.failed_upon {failure : Failure} (runs : chunk.RunsTo fuel (.failed failure state))
    (past : List Event) (result : Value) :
    runAll fuel Console.unlimited (plainStmts chunk.stmts) result ⟨chunk.environment, past⟩
      = .failed failure.plain (state.plain past) := by
  have upon := runAll_plain (Console.unlimited_ignores past) fuel chunk.stmts .void
    (.start chunk.environment)
  rw [runAll_stmts runs] at upon
  exact runAll_failed upon result

/-- A chunk in canonical form runs as the statements that it renders, up to places. -/
theorem runsTo_of_rendering {stmts : List Stmt} (grammatical : GrammaticalStmts stmts)
    (sound : (pieces chunk.source).filterMap Piece.complaint? = [])
    (renders : (Lexing.marks (.start Session.sourceName) chunk.source).map Token.symbol
      = renderStmts stmts) (fuel : Nat) :
    ∃ outcome, chunk.RunsTo fuel outcome ∧ outcome.plain []
      = runAll fuel Console.unlimited (plainStmts stmts) .void (.start chunk.environment) := by
  obtain ⟨program, compiled, same⟩ := Compilation.exists_program?_of_rendering grammatical
    (List.filterMap_eq_nil_iff.1 sound) renders
  exact ⟨_, ⟨program, compiled, rfl⟩, program.run_plain same fuel chunk.environment⟩

end Chunk

/-- A state has written a text upon an earlier trace. -/
def State.Wrote (past : List Event) (text : Bytes) (state : State) : Prop :=
  state.output = (State.mk state.environment past).output ++ text

theorem State.Wrote.trans {past : List Event} {text more : Bytes} {state after : State}
    (first : state.Wrote past text) (second : after.Wrote state.trace more) :
    after.Wrote past (text ++ more) := by
  have behind : after.output = state.output ++ more := second
  rw [Wrote, behind, first, List.append_assoc]
  rfl

namespace Session

variable {fuel : Nat} {style : SessionStyle} {session : Session} {line : Bytes} {reply : Reply}

/-- If a completed chunk succeeds, its statements run upon any trace to where the session goes on,
and write what it writes. -/
theorem succeeds (quiet : style.echo = false)
    (plain : session.isPending = false → command? line = none)
    (fed : session.feed fuel style line = some reply) (closed : reply.session.isPending = false)
    (here : (session.chunkOf line).Succeeds fuel) (past : List Event) (result : Value) :
    ∃ value state, runAll fuel Console.unlimited (plainStmts (session.chunkOf line).stmts) result
        ⟨session.environment, past⟩ = .done value state ∧
      state.environment = reply.session.environment ∧
      state.Wrote past (Emission.outText reply.emissions) := by
  obtain ⟨value, last, runs⟩ := here
  obtain ⟨reached, output⟩ := completes quiet plain fed closed runs rfl
  obtain ⟨value, upon⟩ := runs.done_upon past result
  refine ⟨value, _, upon, ?_, ?_⟩
  · rw [reached, State.environment_plain]
  · rw [output]
    exact last.output_plain past

/-- If a completed chunk fails, its statements fail alike upon any trace, where the session goes on,
and write what it writes. -/
theorem fails (quiet : style.echo = false)
    (plain : session.isPending = false → command? line = none)
    (fed : session.feed fuel style line = some reply) (closed : reply.session.isPending = false)
    {failure : Failure}
    (here : (session.chunkOf line).Fails fuel failure) (past : List Event) (result : Value) :
    ∃ state, runAll fuel Console.unlimited (plainStmts (session.chunkOf line).stmts) result
        ⟨session.environment, past⟩ = .failed failure.plain state ∧
      state.environment = reply.session.environment ∧
      state.Wrote past (Emission.outText reply.emissions) := by
  obtain ⟨stopped, runs⟩ := here
  obtain ⟨reached, output⟩ := completes quiet plain fed closed runs rfl
  refine ⟨_, runs.failed_upon past result, ?_, ?_⟩
  · rw [reached, State.environment_plain]
  · rw [output]
    exact stopped.output_plain past

end Session

/-! ## Courses -/

namespace Session

/-- A course of a session without commands: from a session, by lines, through the chunks that they
complete, with what is written, to a session. -/
inductive Course (fuel : Nat) (style : SessionStyle) :
    Session → List Bytes → List Chunk → List Emission → Session → Prop where
  /-- No line was fed. -/
  | nil (session : Session) : Course fuel style session [] [] [] session
  /-- A line leaves a chunk unfinished. -/
  | kept {session final : Session} {line : Bytes} {lines : List Bytes} {chunks : List Chunk}
      {emissions : List Emission} {reply : Reply}
      (plain : session.isPending = false → command? line = none)
      (fed : session.feed fuel style line = some reply)
      (unfinished : reply.session.isPending = true)
      (later : Course fuel style reply.session lines chunks emissions final) :
      Course fuel style session (line :: lines) chunks (reply.emissions ++ emissions) final
  /-- A line completes a chunk. -/
  | completed {session final : Session} {line : Bytes} {lines : List Bytes} {chunks : List Chunk}
      {emissions : List Emission} {reply : Reply}
      (plain : session.isPending = false → command? line = none)
      (fed : session.feed fuel style line = some reply)
      (closed : reply.session.isPending = false)
      (later : Course fuel style reply.session lines chunks emissions final) :
      Course fuel style session (line :: lines) (session.chunkOf line :: chunks)
        (reply.emissions ++ emissions) final

/-- A session between chunks holds no text back. -/
def Tidy (session : Session) : Prop :=
  session.isPending = false → session.pendingText = []

/-- Every line leaves a session tidy. -/
theorem tidy_of_feed {fuel : Nat} {style : SessionStyle} {session : Session} {line : Bytes}
    {reply : Reply} (plain : session.isPending = false → command? line = none)
    (fed : session.feed fuel style line = some reply) : reply.session.Tidy := by
  rw [feed_eq_collect plain] at fed
  obtain ⟨depth, positive, rfl⟩ | ⟨blank, rfl⟩ | ⟨result, ran, rfl⟩ := collect_cases fed
  · intro idle
    simp [isPending, positive] at idle
  · exact fun _ => rfl
  · exact fun _ => rfl

namespace Course

variable {fuel : Nat} {style : SessionStyle} {session final : Session} {lines : List Bytes}
  {chunks : List Chunk} {emissions : List Emission}

/-- The chunks make up the text of the lines, behind the text that was held back. -/
theorem source_eq (course : Course fuel style session lines chunks emissions final)
    (tidy : session.Tidy) (idle : final.isPending = false) :
    session.pendingText ++ Bytes.unlines lines = (chunks.map Chunk.source).flatten := by
  -- Between chunks nothing is held back, so only the first line can have text before it.
  induction course with
  | nil session => simpa using tidy idle
  | kept plain fed unfinished _ ih =>
    obtain ⟨-, text, -⟩ := keeps plain fed unfinished
    rw [← ih (tidy_of_feed plain fed) idle, text, Bytes.unlines_cons]
    simp
  | completed plain fed closed _ ih =>
    have text := tidy_of_feed plain fed closed
    rw [List.map_cons, List.flatten_cons, ← ih (tidy_of_feed plain fed) idle, text,
      Bytes.unlines_cons]
    simp [chunkOf]

/-- The chunks of a course end with newlines; if they compile, their texts together hold their
statements. -/
theorem holds (course : Course fuel style session lines chunks emissions final)
    (compiles : ∀ chunk ∈ chunks, chunk.program?.isSome) :
    Holds (chunks.map Chunk.source).flatten (chunks.flatMap Chunk.stmts) := by
  induction course with
  | nil => exact .nil
  | kept _ _ _ _ ih => exact ih compiles
  | @completed session _ line _ _ _ _ _ _ _ _ ih =>
    obtain ⟨here, there⟩ := List.forall_mem_cons.1 compiles
    obtain ⟨program, compiled⟩ := Option.isSome_iff_exists.1 here
    have first := Compilation.holds_of_program? compiled
    rw [← Chunk.stmts_eq compiled] at first
    exact first.append ⟨session.pendingText ++ line, rfl⟩ (ih there)

/-- Without a completed chunk nothing is written, and the variables stay. -/
theorem silent (course : Course fuel style session lines [] emissions final) :
    emissions = [] ∧ final.environment = session.environment := by
  generalize none : ([] : List Chunk) = chunks at course
  induction course with
  | nil => exact ⟨rfl, rfl⟩
  | kept plain fed unfinished _ ih =>
    obtain ⟨bindings, -, silent⟩ := keeps plain fed unfinished
    obtain ⟨rfl, same⟩ := ih none
    exact ⟨by rw [silent, List.append_nil], same.trans bindings⟩
  | completed => cases none

/-- If all chunks succeed, their statements run to where the session ends, and write what it
writes. -/
theorem runs (quiet : style.echo = false)
    (course : Course fuel style session lines chunks emissions final)
    (succeed : ∀ chunk ∈ chunks, chunk.Succeeds fuel) (past : List Event) (result : Value) :
    ∃ value state, runAll fuel Console.unlimited (plainStmts (chunks.flatMap Chunk.stmts)) result
        ⟨session.environment, past⟩ = .done value state ∧
      state.environment = final.environment ∧ state.Wrote past (Emission.outText emissions) := by
  -- The trace so far is arbitrary: the chunks behind the first run upon what it has left.
  induction course generalizing past result with
  | nil session =>
    refine ⟨result, ⟨session.environment, past⟩, ?_, rfl, (List.append_nil _).symm⟩
    rw [List.flatMap_nil, plainStmts, runAll]
  | kept plain fed unfinished _ ih =>
    obtain ⟨bindings, -, silent⟩ := keeps plain fed unfinished
    rw [silent, List.nil_append, ← bindings]
    exact ih succeed past result
  | completed plain fed closed _ ih =>
    obtain ⟨here, there⟩ := List.forall_mem_cons.1 succeed
    obtain ⟨value, state, ran, bindings, wrote⟩ := succeeds quiet plain fed closed here past result
    obtain ⟨last, after, went, ends, wrote'⟩ := ih there state.trace value
    refine ⟨last, after, ?_, ends, ?_⟩
    · rw [List.flatMap_cons, plainStmts_append, runAll_append, ran]
      rw [← bindings] at went
      exact went
    · rw [Emission.outText_append]
      exact wrote.trans wrote'

/-- If the last chunk of a course is the first one to fail, the statements of the chunks fail alike,
where the session goes on, and write what it has written. -/
theorem fails (quiet : style.echo = false) {before : List Chunk} {bad : Chunk}
    (course : Course fuel style session lines (before ++ [bad]) emissions final)
    (succeed : ∀ chunk ∈ before, chunk.Succeeds fuel) {failure : Failure}
    (failed : bad.Fails fuel failure) (past : List Event) (result : Value) :
    ∃ state, runAll fuel Console.unlimited (plainStmts ((before ++ [bad]).flatMap Chunk.stmts))
        result ⟨session.environment, past⟩ = .failed failure.plain state ∧
      state.environment = final.environment ∧ state.Wrote past (Emission.outText emissions) := by
  generalize parts : before ++ [bad] = chunks at course
  induction course generalizing before past result with
  | nil session => simp at parts
  | kept plain fed unfinished _ ih =>
    obtain ⟨bindings, -, silent⟩ := keeps plain fed unfinished
    rw [silent, List.nil_append, ← bindings]
    exact ih succeed past result parts
  | completed plain fed closed later ih =>
    cases before with
    | nil =>
      -- Behind the failing chunk the course only keeps lines.
      obtain ⟨rfl, rfl⟩ := List.cons.inj parts
      obtain ⟨state, ran, bindings, wrote⟩ :=
        Session.fails quiet plain fed closed failed past result
      obtain ⟨rfl, same⟩ := later.silent
      refine ⟨state, ?_, bindings.trans same.symm, ?_⟩
      · rw [List.flatMap_cons, List.flatMap_nil, List.append_nil]
        exact ran
      · rw [List.append_nil]
        exact wrote
    | cons chunk before =>
      obtain ⟨rfl, remaining⟩ := List.cons.inj parts
      obtain ⟨here, there⟩ := List.forall_mem_cons.1 succeed
      obtain ⟨value, state, ran, bindings, wrote⟩ :=
        succeeds quiet plain fed closed here past result
      obtain ⟨after, went, ends, wrote'⟩ := ih there state.trace value remaining
      refine ⟨after, ?_, ends, ?_⟩
      · rw [List.flatMap_cons, plainStmts_append, runAll_append, ran]
        rw [← bindings] at went
        exact went
      · rw [Emission.outText_append]
        exact wrote.trans wrote'

/-- If the chunks of a course compile, all of them succeed, or there is a first one that fails. -/
theorem succeed_or_fails (course : Course fuel style session lines chunks emissions final)
    (compiles : ∀ chunk ∈ chunks, chunk.program?.isSome) :
    (∀ chunk ∈ chunks, chunk.Succeeds fuel) ∨
      ∃ before bad after failure, chunks = before ++ bad :: after ∧
        (∀ chunk ∈ before, chunk.Succeeds fuel) ∧ bad.Fails fuel failure := by
  induction course with
  | nil => exact .inl (by simp)
  | kept _ _ _ _ ih => exact ih compiles
  | @completed session _ line _ chunks _ _ plain fed closed _ ih =>
    obtain ⟨here, there⟩ := List.forall_mem_cons.1 compiles
    rcases settles plain fed closed here with good | ⟨failure, bad⟩
    · rcases ih there with others | ⟨before, bad, after, failure, rfl, succeed, failed⟩
      · exact .inl (List.forall_mem_cons.2 ⟨good, others⟩)
      · exact .inr ⟨session.chunkOf line :: before, bad, after, failure, rfl,
          List.forall_mem_cons.2 ⟨good, succeed⟩, failed⟩
    · exact .inr ⟨[], session.chunkOf line, chunks, failure, rfl, by simp, bad⟩

/-- A course can be cut behind any chunk. -/
theorem cut {before after : List Chunk} {bad : Chunk}
    (course : Course fuel style session lines (before ++ bad :: after) emissions final) :
    ∃ early late heard rest middle, lines = early ++ late ∧ emissions = heard ++ rest ∧
      Course fuel style session early (before ++ [bad]) heard middle ∧ middle.isPending = false ∧
      Course fuel style middle late after rest final := by
  generalize parts : before ++ bad :: after = chunks at course
  induction course generalizing before with
  | nil session => simp at parts
  | @kept _ _ line _ _ _ reply plain fed unfinished _ ih =>
    obtain ⟨early, late, heard, rest, middle, rfl, rfl, first, idle, second⟩ := ih parts
    exact ⟨line :: early, late, reply.emissions ++ heard, rest, middle, rfl,
      (List.append_assoc _ _ _).symm, .kept plain fed unfinished first, idle, second⟩
  | @completed _ _ line lines _ emissions reply plain fed closed later ih =>
    cases before with
    | nil =>
      obtain ⟨rfl, rfl⟩ := List.cons.inj parts
      have alone := Course.completed plain fed closed (.nil reply.session)
      rw [List.append_nil] at alone
      exact ⟨[line], lines, reply.emissions, emissions, reply.session, rfl, rfl, alone, closed,
        later⟩
    | cons chunk before =>
      obtain ⟨rfl, remaining⟩ := List.cons.inj parts
      obtain ⟨early, late, heard, rest, middle, rfl, rfl, first, idle, second⟩ := ih remaining
      exact ⟨line :: early, late, reply.emissions ++ heard, rest, middle, rfl,
        (List.append_assoc _ _ _).symm, .completed plain fed closed first, idle, second⟩

end Course

end Session

/-! ## Agreement -/

/-- **Feeding lines to a session agrees with running their text.** Take lines without commands that
a fresh session without echo is fed and that leave no chunk unfinished, and let every chunk compile.
Then the text of the lines compiles as well, and all chunks succeed or there is a first one that
fails. If all chunks succeed, the program of the text writes what the session writes, and ends with
the same variables. Otherwise the program fails with the fault of the first failing chunk, having
written what the session has written behind that chunk, and with the variables that the session has
there. -/
theorem session_agrees_with_run {fuel : Nat} {style : SessionStyle} (quiet : style.echo = false)
    {lines : List Bytes} {chunks : List Chunk} {emissions : List Emission} {final : Session}
    (course : Session.Course fuel style .fresh lines chunks emissions final)
    (idle : final.isPending = false) (compiles : ∀ chunk ∈ chunks, chunk.program?.isSome)
    (file : Bytes) :
    ∃ program, (Compilation.compile (Bytes.unlines lines) file).program? = some program ∧
      ((∀ chunk ∈ chunks, chunk.Succeeds fuel) ∨
        ∃ before bad after failure, chunks = before ++ bad :: after ∧
          (∀ chunk ∈ before, chunk.Succeeds fuel) ∧ bad.Fails fuel failure) ∧
      ((∀ chunk ∈ chunks, chunk.Succeeds fuel) →
        ∃ value state, program.run fuel Console.unlimited (.start .empty) = .done value state ∧
          state.output = Emission.outText emissions ∧ state.environment = final.environment) ∧
      ∀ before bad after failure, chunks = before ++ bad :: after →
        (∀ chunk ∈ before, chunk.Succeeds fuel) → bad.Fails fuel failure →
        ∃ early late heard rest middle, lines = early ++ late ∧ emissions = heard ++ rest ∧
          Session.Course fuel style .fresh early (before ++ [bad]) heard middle ∧
          middle.isPending = false ∧ Session.Course fuel style middle late after rest final ∧
          ∃ reason state,
            program.run fuel Console.unlimited (.start .empty) = .failed reason state ∧
            reason.fault = failure.fault ∧ state.output = Emission.outText heard ∧
            state.environment = middle.environment := by
  have text : Bytes.unlines lines = (chunks.map Chunk.source).flatten :=
    course.source_eq (fun _ => rfl) idle
  obtain ⟨program, compiled, same⟩ := (course.holds compiles).exists_program? file
  refine ⟨program, by rw [text, compiled], course.succeed_or_fails compiles,
    fun succeed => ?_, ?_⟩
  · obtain ⟨value, state, ran, bindings, wrote⟩ := course.runs quiet succeed [] .void
    obtain ⟨state, done, rfl⟩ :=
      Outcome.eq_done_of_plain ((program.run_plain same fuel .empty).trans ran)
    exact ⟨value, state, done, (State.output_plain [] state).symm.trans wrote, bindings⟩
  · -- Behind the failing chunk the run of the text is over, whatever the later chunks hold.
    rintro before bad after failure rfl succeed failed
    obtain ⟨early, late, heard, rest, middle, parts, heards, first, closed, second⟩ := course.cut
    refine ⟨early, late, heard, rest, middle, parts, heards, first, closed, second, ?_⟩
    obtain ⟨state, ran, bindings, wrote⟩ := first.fails quiet succeed failed [] .void
    have aborted := program.run_plain same fuel .empty
    rw [List.append_cons, List.flatMap_append, plainStmts_append, runAll_append] at aborted
    have stops := aborted.trans (congrArg (Outcome.andThen · _) ran)
    obtain ⟨reason, state, failed, cause, rfl⟩ := Outcome.eq_failed_of_plain stops
    exact ⟨reason, state, failed, (Failure.mk.inj cause).1,
      (State.output_plain [] state).symm.trans wrote, bindings⟩

/-- A block over two lines, and a statement that fails. -/
def sampleLines : List Bytes :=
  [Bytes.utf8 "\x7b console true", Bytes.utf8 "\x7d", Bytes.utf8 "console y"]

/-- A session behind the first of them. -/
def sampleSession : Session :=
  ⟨.empty, Bytes.unlines (sampleLines.take 1), 1⟩

/-- The chunk of the block. -/
def sampleBlock : Chunk :=
  ⟨.empty, Bytes.unlines (sampleLines.take 2)⟩

/-- The chunk of the statement that fails. -/
def sampleFailing : Chunk :=
  ⟨.empty, Bytes.unlines (sampleLines.drop 2)⟩

/-- The session shows what the block writes and goes on behind the failure; the run of the text ends
there, having written the same. -/
theorem session_agrees_with_run_failing :
    ∃ program reason state,
      (Compilation.compile (Bytes.unlines sampleLines) []).program? = some program ∧
      program.run 0 Console.unlimited (.start .empty) = .failed reason state ∧
      reason.fault = .undeclared (Bytes.utf8 "y") ∧ state.output = Bytes.utf8 "true\n" := by
  have block : GrammaticalStmts [.block .unset [.console .unset (.boolean .unset true)]] :=
    ⟨⟨.weaken (by decide) .boolean, trivial⟩, trivial⟩
  have failing : GrammaticalStmts [.console .unset (.name .unset (Bytes.utf8 "y"))] :=
    ⟨.weaken (by decide) .name, trivial⟩
  obtain ⟨good, runs, good_plain⟩ :=
    sampleBlock.runsTo_of_rendering block (by cbv) (by cbv) 0
  obtain ⟨bad, fails, bad_plain⟩ :=
    sampleFailing.runsTo_of_rendering failing (by cbv) (by cbv) 0
  have done : good.plain [] = .done (.boolean true) ⟨.empty, [.printed (Bytes.utf8 "true")]⟩ :=
    good_plain
  have failed : bad.plain [] = .failed ⟨.undeclared (Bytes.utf8 "y"), .unset⟩ (.start .empty) :=
    bad_plain
  obtain ⟨state, rfl, state_plain⟩ := Outcome.eq_done_of_plain done
  obtain ⟨failure, stopped, rfl, cause, stopped_plain⟩ := Outcome.eq_failed_of_plain failed
  have bindings : state.environment = .empty := congrArg State.environment state_plain
  have bindings' : stopped.environment = .empty := congrArg State.environment stopped_plain
  -- The session keeps the first line, runs the block with the second, and fails with the third.
  have quiet : (SessionStyle.mk false false).echo = false := rfl
  have first : Session.fresh.feed 0 ⟨false, false⟩ (Bytes.utf8 "\x7b console true")
      = some ⟨sampleSession, [], true⟩ := by
    rw [Session.feed_eq_collect fun _ => by cbv]
    rfl
  obtain ⟨shown, second, shown_text⟩ := Session.feed_of_runsTo quiet sampleSession
    (Bytes.utf8 "\x7d") (fun idle => absurd idle (by decide)) (by decide) (by cbv) runs rfl
  obtain ⟨shown', third, shown_text'⟩ := Session.feed_of_runsTo quiet .fresh
    (Bytes.utf8 "console y") (fun _ => by cbv) (by decide) (by cbv) fails rfl
  rw [bindings] at second
  rw [bindings'] at third
  have course : Session.Course 0 ⟨false, false⟩ .fresh sampleLines [sampleBlock, sampleFailing]
      ([] ++ (shown ++ (shown' ++ []))) .fresh :=
    .kept (fun _ => by cbv) first rfl (.completed (fun idle => absurd idle (by decide)) second rfl
      (.completed (fun _ => by cbv) third rfl (.nil .fresh)))
  have compiles : ∀ chunk ∈ [sampleBlock, sampleFailing], chunk.program?.isSome := by
    simpa using ⟨runs.compiles, fails.compiles⟩
  obtain ⟨program, compiled, -, -, failing⟩ := session_agrees_with_run quiet course rfl compiles []
  obtain ⟨early, late, heard, rest, middle, -, parts, -, -, behind, reason, state', ran, same,
    output, -⟩ := failing [sampleBlock] sampleFailing [] _ rfl (by simpa using ⟨_, _, runs⟩)
      ⟨_, fails⟩
  refine ⟨program, reason, state', compiled, ran, same.trans (congrArg Failure.fault cause), ?_⟩
  obtain ⟨rfl, -⟩ := behind.silent
  have text := State.output_plain [] state
  have text' := State.output_plain [] stopped
  rw [state_plain] at text
  rw [stopped_plain] at text'
  rw [output, ← List.append_nil heard, ← parts, List.append_nil, List.nil_append,
    Emission.outText_append, shown_text, shown_text']
  exact (congrArg₂ List.append text text').symm

end ConsoleScript
