import ConsoleScript.CommandLine.Dialogue
import ConsoleScript.Proofs.AssignmentJournal

/-! # The echo of a session

A session that echoes assignments writes a line for each change of a variable, between everything
else that it writes. Which of its lines are echoes cannot be told from their texts, so a dialogue is
first told without its style:

* **`Occurrence`** — something that a session has to say, with what a session of some style writes
  about it, if anything;
* **`Dialogue.account`** — the occurrences of a dialogue;
* **`Dialogue.converse_eq`** — whatever the style, a dialogue writes about the same occurrences in
  the same order;
* **`Occurrence.emission?_quiet`** — without the echo, a session is silent about changes and says
  the same about everything else.

`assignment_journal_faithful` puts this together with the journals of runs. -/

namespace ConsoleScript

/-- Name, binding before and new value, if an event changes a variable that was bound before. -/
def Event.change? : Event → Option (Bytes × Value × Value)
  | assigned name (some previous) value => some (name, previous, value)
  | _ => none

/-- Something that a session has to say. -/
inductive Occurrence where
  /-- Something was found in a chunk. -/
  | found (finding : Finding)
  /-- Something happened in the run of a chunk. -/
  | happened (event : Event)
  /-- The run of a chunk failed. -/
  | failed (failure : Failure)
  /-- The variables were asked for. -/
  | listed (environment : Environment)
  /-- The variables were dropped. -/
  | cleared
  /-- There was an interrupt. -/
  | interrupted
  /-- The input ended. -/
  | ended

namespace Occurrence

/-- What a session of some style writes about an occurrence. -/
def emission? (style : SessionStyle) : Occurrence → Option Emission
  | found finding => some (Session.emissionOfFinding style finding)
  | happened event => Session.emissionOf style event
  | failed failure => some (Session.emissionOfFailure style failure)
  | listed environment => some (.out (Session.listing style environment))
  | cleared => some (.out (style.paint .gray (Bytes.utf8 "environment cleared") ++ [0x0a]))
  | interrupted => some (.out (Dialogue.remark style))
  | ended => some (.out [0x0a])

/-- The event of a run that an occurrence is, if it is one. -/
def event? : Occurrence → Option Event
  | happened event => some event
  | _ => none

/-- The change of a variable that an occurrence is, if it is one. -/
def change? (occurrence : Occurrence) : Option (Bytes × Value × Value) :=
  occurrence.event?.bind Event.change?

/-- How the change of a variable is echoed. -/
def echo (change : Bytes × Value × Value) : Emission :=
  .out (change.1 ++ Bytes.utf8 ": " ++ change.2.1.display ++ Bytes.utf8 " -> "
    ++ change.2.2.display ++ [0x0a])

/-- A change is written as its echo. -/
theorem emission?_of_change? {occurrence : Occurrence} {change : Bytes × Value × Value}
    (changes : occurrence.change? = some change) (color : Bool) :
    occurrence.emission? ⟨color, true⟩ = some (echo change) := by
  cases occurrence with
  | happened event =>
    cases event with
    | assigned name previous value =>
      cases previous with
      | none => cases changes
      | some previous =>
        cases changes
        rfl
    | printed | branchTaken | otherwiseTaken | loopFinished => cases changes
  | found | failed | listed | cleared | interrupted | ended => cases changes

/-- Without the echo, changes are passed over, and the rest is written in the same way. -/
theorem emission?_quiet (occurrence : Occurrence) (color : Bool) :
    occurrence.emission? ⟨color, false⟩
      = if occurrence.change?.isNone then occurrence.emission? ⟨color, true⟩ else none := by
  cases occurrence with
  | happened event =>
    cases event with
    | assigned name previous value => cases previous <;> rfl
    | printed | branchTaken | otherwiseTaken | loopFinished => rfl
  | found | failed | listed | cleared | interrupted | ended => rfl

/-- What is written without the echo is what is written with it about everything but changes. -/
theorem filterMap_emission?_quiet (occurrences : List Occurrence) (color : Bool) :
    occurrences.filterMap (emission? ⟨color, false⟩)
      = (occurrences.filter (·.change?.isNone)).filterMap (emission? ⟨color, true⟩) := by
  rw [List.filterMap_filter]
  exact List.filterMap_congr fun occurrence _ => occurrence.emission?_quiet color

/-- What is written about changes is their echoes. -/
theorem filterMap_emission?_changes (occurrences : List Occurrence) (color : Bool) :
    (occurrences.filter (·.change?.isSome)).filterMap (emission? ⟨color, true⟩)
      = ((occurrences.filterMap event?).filterMap Event.change?).map echo := by
  rw [List.filterMap_filter, List.filterMap_filterMap, List.map_filterMap]
  refine List.filterMap_congr fun occurrence _ => ?_
  show _ = occurrence.change?.map echo
  cases changes : occurrence.change? with
  | none => rfl
  | some change => exact occurrence.emission?_of_change? changes color

end Occurrence

/-! ## Dialogues without their style -/

/-- A reply that is not yet written. -/
structure Account where
  /-- The session afterwards. -/
  session : Session
  /-- What there is to say. -/
  occurrences : List Occurrence
  /-- Whether the session goes on. -/
  alive : Bool

/-- The reply, written in some style. -/
def Account.reply (style : SessionStyle) (account : Account) : Reply :=
  ⟨account.session, account.occurrences.filterMap (Occurrence.emission? style), account.alive⟩

namespace Session

/-- What there is to say about a chunk: the environment afterwards and the occurrences. -/
def accountChunk (fuel : Nat) (environment : Environment) (source : Bytes) :
    Option (Environment × List Occurrence) :=
  let compilation := Compilation.compile source sourceName
  let findings := compilation.findings.map Occurrence.found
  match compilation.program? with
  | none => some (environment, findings)
  | some program =>
    match program.run fuel Console.unlimited (.start environment) with
    | .done _ state => some (state.environment, findings ++ state.events.map .happened)
    | .failed failure state =>
      some (state.environment, findings ++ state.events.map .happened ++ [.failed failure])
    | .unfinished => none

/-- What there is to say about a line. -/
def account (fuel : Nat) (session : Session) (line : Bytes) : Option Account :=
  match if session.isPending then none else command? line with
  | some .exit => some ⟨session, [], false⟩
  | some .listVariables => some ⟨session, [.listed session.environment], true⟩
  | some .clear => some ⟨fresh, [.cleared], true⟩
  | none =>
    let source := session.pendingText ++ line ++ [0x0a]
    let depth := session.surplus line
    if 0 < depth then some ⟨⟨session.environment, source, depth.toNat⟩, [], true⟩
    else if source.trim.isEmpty then some ⟨⟨session.environment, [], 0⟩, [], true⟩
    else
      (accountChunk fuel session.environment source).map fun result =>
        ⟨⟨result.1, [], 0⟩, result.2, true⟩

theorem filterMap_found (style : SessionStyle) (findings : List Finding) :
    (findings.map Occurrence.found).filterMap (Occurrence.emission? style)
      = findings.map (emissionOfFinding style) := by
  rw [List.filterMap_map]
  exact congrFun List.filterMap_eq_map findings

theorem filterMap_happened (style : SessionStyle) (events : List Event) :
    (events.map Occurrence.happened).filterMap (Occurrence.emission? style)
      = events.filterMap (emissionOf style) := by
  rw [List.filterMap_map]
  rfl

/-- A chunk is answered by writing about its occurrences. -/
theorem runChunk_eq (fuel : Nat) (style : SessionStyle) (environment : Environment)
    (source : Bytes) :
    runChunk fuel style environment source
      = (accountChunk fuel environment source).map fun result =>
        (result.1, result.2.filterMap (Occurrence.emission? style)) := by
  rw [runChunk, accountChunk]
  cases (Compilation.compile source sourceName).program? with
  | none => simp only [Option.map_some, filterMap_found]
  | some program =>
    dsimp only
    cases program.run fuel Console.unlimited (.start environment) with
    | done value state =>
      simp only [Option.map_some, List.filterMap_append, filterMap_found, filterMap_happened]
    | failed failure state =>
      simp only [Option.map_some, List.filterMap_append, filterMap_found, filterMap_happened]
      rfl
    | unfinished => rfl

/-- A line is answered by writing about its occurrences. -/
theorem feed_eq (fuel : Nat) (style : SessionStyle) (session : Session) (line : Bytes) :
    session.feed fuel style line = (session.account fuel line).map (Account.reply style) := by
  rw [feed, account]
  cases if session.isPending then none else command? line with
  | some command => cases command <;> rfl
  | none =>
    rw [collect]
    dsimp only
    split
    · rfl
    · split
      · rfl
      · rw [runChunk_eq, Option.map_map, Option.map_map]
        rfl

end Session

namespace Dialogue

/-- What there is to say about an input. -/
def accountInput (fuel : Nat) (session : Session) : Input → Option Account
  | .line text => session.account fuel text
  | .interrupt =>
    if session.isPending then some ⟨session.cancel, [], true⟩
    else some ⟨session, [.interrupted], true⟩

/-- What there is to say in a dialogue behind the greeting. -/
def account (fuel : Nat) (session : Session) : List Input → Option (List Occurrence)
  | [] => some [.ended]
  | input :: rest => do
    let reply ← accountInput fuel session input
    if reply.alive then
      let later ← account fuel reply.session rest
      return reply.occurrences ++ later
    else return reply.occurrences

/-- An input is answered by writing about its occurrences. -/
theorem answer_eq (fuel : Nat) (style : SessionStyle) (session : Session) (input : Input) :
    answer fuel style session input
      = (accountInput fuel session input).map (Account.reply style) := by
  cases input with
  | line text => exact session.feed_eq fuel style text
  | interrupt =>
    rw [answer, accountInput]
    split <;> rfl

/-- Whatever its style, a dialogue writes about the same occurrences. -/
theorem converse_eq (fuel : Nat) (style : SessionStyle) (session : Session)
    (inputs : List Input) :
    converse fuel style session inputs
      = (account fuel session inputs).map (·.filterMap (Occurrence.emission? style)) := by
  induction inputs generalizing session with
  | nil => rfl
  | cons input rest ih =>
    rw [converse, account, answer_eq]
    cases accountInput fuel session input with
    | none => rfl
    | some reply =>
      obtain ⟨next, occurrences, alive⟩ := reply
      cases alive with
      | false => rfl
      | true =>
        simp only [Option.map_some, Account.reply, Option.bind_eq_bind, Option.bind_some, if_true,
          ih next]
        cases account fuel next rest with
        | none => rfl
        | some later => simp

end Dialogue

/-! ## Journals and echoes -/

/-- **The assignments of a run are a faithful journal.** Whatever part of a program is run in
whatever environment: at the end, with a result or a failure, replaying the assignments of the run
gives its variables, and each assignment has the binding that its name had just before it in this
replay. An assignment whose expression has no value leaves no trace and changes nothing.

So the echo of a session only adds to what it writes. For every dialogue there are occurrences, the
events of its runs among them, such that a session with the echo writes about all of them; a session
without it writes the same with what is written about changes left out; and what is written about
changes is the echoes of exactly the events with a binding before, in order. -/
theorem assignment_journal_faithful :
    (∀ (node : Node) (environment : Environment) (fuel : Nat) (console : Console) (after : State),
      (node.run fuel console (.start environment)).state? = some after →
        after.Journaled environment) ∧
    (∀ (span : Span) (name : Bytes) (expr : Expr) (fuel : Nat) (console : Console) (state : State)
      (failure : Failure), expr.evaluate state.environment = .error failure →
        (Stmt.assign span name expr).run fuel console state = .failed failure state) ∧
    ∀ (fuel : Nat) (color : Bool) (session : Session) (inputs : List Input),
      let occurrences? := Dialogue.account fuel session inputs
      let written (occurrences : List Occurrence) :=
        occurrences.filterMap (Occurrence.emission? ⟨color, true⟩)
      Dialogue.converse fuel ⟨color, true⟩ session inputs = occurrences?.map written ∧
      Dialogue.converse fuel ⟨color, false⟩ session inputs
        = occurrences?.map (fun occurrences =>
          written (occurrences.filter (·.change?.isNone))) ∧
      ∀ occurrences, occurrences? = some occurrences →
        written (occurrences.filter (·.change?.isSome))
          = ((occurrences.filterMap Occurrence.event?).filterMap Event.change?).map
            Occurrence.echo := by
  refine ⟨?_, ?_, ?_⟩
  · intro node environment fuel console after ends
    exact node.journaled ends
  · intro span name expr fuel console state failure fails
    rw [Stmt.run, State.runAssignment, fails]
  · intro fuel color session inputs occurrences? written
    refine ⟨Dialogue.converse_eq fuel _ session inputs, ?_, ?_⟩
    · rw [Dialogue.converse_eq]
      congr 1
      funext occurrences
      exact Occurrence.filterMap_emission?_quiet occurrences color
    · intro occurrences _
      exact Occurrence.filterMap_emission?_changes occurrences color

/-- `x = true` in a session. -/
def rebindingLine : Bytes :=
  Bytes.utf8 "x = true"

/-- The line is read as an assignment, and nothing is found in it. -/
theorem compile_rebindingLine : ∃ place left right,
    let compilation := Compilation.compile (rebindingLine ++ [0x0a]) Session.sourceName
    compilation.findings = [] ∧
      compilation.program? = some ⟨place, [.assign left [0x78] (.boolean right true)]⟩ := by
  obtain ⟨lexing, lexed⟩ : ∃ lexing,
      Lexing.read (rebindingLine ++ [0x0a]) Session.sourceName = lexing := ⟨_, rfl⟩
  have tokens := lexed
  rw [show Lexing.read (rebindingLine ++ [0x0a]) Session.sourceName = _ by cbv] at lexed
  subst lexed
  simp [Compilation.compile, tokens, Compilation.findings, Compilation.program?, Parsing.read,
    Cursor.ofTokens, Cursor.kind, Cursor.peek, Cursor.skipSeparators, Cursor.skipWhile,
    Cursor.skipWhile.go, Cursor.isSeparator, Cursor.statements_cons, Cursor.statement_cons,
    Cursor.assignment, Cursor.assignedValue, Cursor.requiredExpression, Cursor.expression_eq,
    Cursor.operand_cons, Cursor.continuation_cons, TokenKind.strength, Parsed.required,
    Finding.anyError]

/-- Where `x` was bound before, the line is echoed, and otherwise the dialogue is the same. -/
theorem assignment_journal_faithful_rebinding :
    let session : Session := ⟨Environment.empty.set [0x78] .nil, [], 0⟩
    Dialogue.converse 0 ⟨false, true⟩ session [.line rebindingLine]
        = some [.out (Bytes.utf8 "x: nil -> true\n"), .out [0x0a]] ∧
      Dialogue.converse 0 ⟨false, false⟩ session [.line rebindingLine] = some [.out [0x0a]] := by
  intro session
  have told : Dialogue.account 0 session [.line rebindingLine]
      = some [.happened (.assigned [0x78] (some .nil) (.boolean true)), .ended] := by
    obtain ⟨place, left, right, findings, program⟩ := compile_rebindingLine
    have plain : Session.command? rebindingLine = none := by cbv
    have complete : (rebindingLine ++ [0x0a]).trim.isEmpty = false := by cbv
    have chunk : Session.accountChunk 0 session.environment (rebindingLine ++ [0x0a])
        = some (session.environment.set [0x78] (.boolean true),
          [.happened (.assigned [0x78] (some .nil) (.boolean true))]) := by
      rw [Session.accountChunk, findings, program]
      rfl
    have fed : session.account 0 rebindingLine
        = some ⟨⟨session.environment.set [0x78] (.boolean true), [], 0⟩,
          [.happened (.assigned [0x78] (some .nil) (.boolean true))], true⟩ := by
      have source : session.pendingText ++ rebindingLine ++ [0x0a] = rebindingLine ++ [0x0a] := rfl
      rw [Session.account, plain, ite_self]
      dsimp only
      rw [if_neg (by decide), source, if_neg (Bool.eq_false_iff.1 complete), chunk]
      rfl
    rw [Dialogue.account, Dialogue.accountInput, fed]
    rfl
  obtain ⟨loud, quiet, -⟩ :=
    assignment_journal_faithful.2.2 0 false session [.line rebindingLine]
  rw [loud, quiet, told]
  exact ⟨rfl, rfl⟩

end ConsoleScript
