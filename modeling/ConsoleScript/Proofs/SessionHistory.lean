import ConsoleScript.Proofs.FrontEnds
import ConsoleScript.Proofs.SessionBraces

/-! # What a session holds back

Whatever calls lead to it, a session holds back the lines fed since it was last idle, and nothing
else.

* **`Session.History`** — the calls made to a session, the last one first, each with the session it
  led to;
* **`Session.linesSinceIdle`** — the lines fed since the session was last idle;
* **`Session.History.pendingText_eq`** — these lines are the text that is held back, by induction on
  the history, with `Session.pendingText_of_feed` for one line;
* **`Session.History.collect_eq`** — so they are what the next line completes;
* **`Session.respond_of_rejected`** — a text with an error changes nothing.

`session_invariant` puts these together. -/

namespace ConsoleScript

namespace Session

/-- A call to a session. -/
inductive Call where
  /-- A line is fed. -/
  | feed (line : Bytes)
  /-- The unfinished chunk is dropped. -/
  | cancel
  /-- The session begins anew. -/
  | reset

/-- The line that a call feeds, if it feeds one. -/
def Call.line? : Call → Option Bytes
  | feed line => some line
  | cancel | reset => none

/-- A call with the session that it led to. -/
structure Visit where
  /-- The call. -/
  call : Call
  /-- The session behind it. -/
  session : Session

/-- The calls that lead from the beginning to a session, the last one first. A line may take any
number of rounds. -/
inductive History (style : SessionStyle) : List Visit → Session → Prop where
  /-- A session begins without variables. -/
  | fresh : History style [] .fresh
  /-- A line is fed. -/
  | feed {visits : List Visit} {session : Session} {fuel : Nat} {line : Bytes} {reply : Reply}
      (earlier : History style visits session) (fed : session.feed fuel style line = some reply) :
      History style (⟨.feed line, reply.session⟩ :: visits) reply.session
  /-- The unfinished chunk is dropped. -/
  | cancel {visits : List Visit} {session : Session} (earlier : History style visits session) :
      History style (⟨.cancel, session.cancel⟩ :: visits) session.cancel
  /-- The session begins anew. -/
  | reset {visits : List Visit} {session : Session} (earlier : History style visits session) :
      History style (⟨.reset, .fresh⟩ :: visits) .fresh

/-- The lines fed since the session was last idle, in order. A session begins idle. -/
def linesSinceIdle : List Visit → List Bytes
  | [] => []
  | visit :: earlier =>
    if visit.session.isPending then linesSinceIdle earlier ++ visit.call.line?.toList else []

/-- What becomes of a whole text of lines: it is held back while it has a surplus of opening braces,
dropped if it is white space, and otherwise run. -/
def respond (fuel : Nat) (style : SessionStyle) (environment : Environment) (source : Bytes) :
    Option Reply :=
  if source.count 0x7d < source.count 0x7b then
    some ⟨⟨environment, source, source.count 0x7b - source.count 0x7d⟩, [], true⟩
  else if source.trim.isEmpty then some ⟨⟨environment, [], 0⟩, [], true⟩
  else
    (runChunk fuel style environment source).map fun result => ⟨⟨result.1, [], 0⟩, result.2, true⟩

variable {style : SessionStyle} {visits : List Visit} {session : Session}

/-- What feeding a line does: an idle session obeys a command, else the line is collected. -/
theorem feed_cases {fuel : Nat} {line : Bytes} {reply : Reply}
    (fed : session.feed fuel style line = some reply) :
    (session.isPending = false ∧ ∃ command, reply = session.obey style command) ∨
      session.collect fuel style line = some reply := by
  by_cases idle : session.isPending = false
  · cases word : command? line with
    | none => exact .inr (feed_eq_collect (fun _ => word) ▸ fed)
    | some command =>
      rw [feed, idle, word] at fed
      exact .inl ⟨idle, command, (Option.some.inj fed).symm⟩
  · exact .inr (feed_eq_collect (fun now => absurd now idle) ▸ fed)

/-- What a line leaves held back: nothing, or the line behind what was held back before. -/
theorem pendingText_of_feed {fuel : Nat} {line : Bytes} {reply : Reply} (tidy : session.Tidy)
    (fed : session.feed fuel style line = some reply) :
    reply.session.pendingText
      = if reply.session.isPending then session.pendingText ++ line ++ [0x0a] else [] := by
  rcases feed_cases fed with ⟨idle, command, rfl⟩ | collected
  · -- A command leaves the session idle, and an idle one holds nothing back.
    cases command with
    | exit | listVariables =>
      show session.pendingText = if session.isPending then _ else _
      rw [tidy idle, idle]
      rfl
    | clear => rfl
  · obtain ⟨depth, positive, rfl⟩ | ⟨blank, rfl⟩ | ⟨result, ran, rfl⟩ := collect_cases collected
    · rw [isPending, decide_eq_true positive]
      rfl
    · rfl
    · rfl

namespace History

/-- Calls lead to reachable sessions only. -/
theorem reachable (history : History style visits session) : session.Reachable := by
  induction history with
  | fresh => exact .fresh
  | feed _ fed ih => exact .feed ih fed
  | cancel _ ih => exact .cancel ih
  | reset _ _ => exact .fresh

/-- An idle session was fed no line since it was idle. -/
theorem linesSinceIdle_of_idle (history : History style visits session)
    (idle : session.isPending = false) : linesSinceIdle visits = [] := by
  cases history with
  | fresh => rfl
  | feed _ _ | cancel _ | reset _ => rw [linesSinceIdle, idle, if_neg Bool.false_ne_true]

/-- A session holds back the lines fed since it was last idle. -/
theorem pendingText_eq (history : History style visits session) :
    session.pendingText = Bytes.unlines (linesSinceIdle visits) := by
  induction history with
  | fresh => rfl
  | @feed visits session fuel line reply earlier fed ih =>
    have tidy : session.Tidy := by
      intro idle
      rw [ih, earlier.linesSinceIdle_of_idle idle]
      rfl
    -- If the session is pending, the line is the last one; else nothing is held back or counted.
    rw [pendingText_of_feed tidy fed, linesSinceIdle]
    split
    · simp [ih, Call.line?]
    · rfl
  | cancel _ _ => rfl
  | reset _ _ => rfl

/-- A session holds text back exactly if it has open braces. -/
theorem pendingText_eq_nil_iff (history : History style visits session) :
    session.pendingText = [] ↔ session.depth = 0 := by
  constructor
  · intro empty
    have consistent := history.reachable.consistent
    rw [Consistent, empty] at consistent
    simpa using consistent.symm
  · intro closed
    have idle : session.isPending = false := by
      rw [isPending, closed]
      rfl
    rw [history.pendingText_eq, history.linesSinceIdle_of_idle idle]
    rfl

/-- The next line is collected behind the lines fed since the session was last idle. -/
theorem collect_eq (history : History style visits session) (fuel : Nat) (line : Bytes) :
    session.collect fuel style line
      = respond fuel style session.environment
        (Bytes.unlines (linesSinceIdle visits ++ [line])) := by
  have source : (session.chunkOf line).source
      = Bytes.unlines (linesSinceIdle visits ++ [line]) := by
    simp [chunkOf, history.pendingText_eq]
  rw [history.reachable.consistent.collect_eq, source]
  rfl

end History

/-- A text with a finding of the lexer or an error of the parser is not run: no variable changes,
and nothing is written to the output. -/
theorem runChunk_of_rejected {source : Bytes}
    (rejected : (Lexing.read source sourceName).findings ≠ [] ∨
      Finding.anyError (Parsing.read (Lexing.read source sourceName).tokens).findings = true)
    (fuel : Nat) (style : SessionStyle) (environment : Environment) :
    ∃ emissions, runChunk fuel style environment source = some (environment, emissions) ∧
      Emission.outText emissions = [] := by
  have found : Finding.anyError (Analysis.analyze source sourceName).findings = true := by
    rw [Analysis.analyze, Finding.anyError_append, Lexing.anyError_findings, Bool.or_eq_true]
    refine rejected.imp_left fun some_finding => ?_
    simpa using some_finding
  have no_program : (Compilation.compile source sourceName).program? = none := by
    rw [Compilation.program?_eq_analyze, if_pos found]
  obtain ⟨findings, -, refuses⟩ := refuses_of_program? no_program
  exact ⟨_, refuses fuel style environment, outText_findings style findings⟩

/-- Whatever becomes of such a text, no variable changes and nothing is written to the output. -/
theorem respond_of_rejected {source : Bytes}
    (rejected : (Lexing.read source sourceName).findings ≠ [] ∨
      Finding.anyError (Parsing.read (Lexing.read source sourceName).tokens).findings = true)
    (fuel : Nat) (style : SessionStyle) (environment : Environment) :
    ∃ reply, respond fuel style environment source = some reply ∧
      reply.session.environment = environment ∧ Emission.outText reply.emissions = [] := by
  obtain ⟨emissions, ran, silent⟩ := runChunk_of_rejected rejected fuel style environment
  -- Held back, dropped or refused: the variables are the same in each case.
  rw [respond]
  split
  · exact ⟨_, rfl, rfl, rfl⟩
  · split
    · exact ⟨_, rfl, rfl, rfl⟩
    · rw [ran]
      exact ⟨_, rfl, rfl, silent⟩

end Session

/-- **A session holds back the lines since it was last idle, and runs nothing else.** In every
session that lines, cancellations and resets lead to, the text held back is those lines, each with
its newline; its opening braces exceed its closing ones by the depth, which is zero exactly if the
text is empty. A further line is a command to an idle session, or it is put behind those lines, and
what is run is their text. If that text has a finding of the lexer or an error of the parser, no
variable changes and nothing is written to the output. Cancelling never changes a variable. -/
theorem session_invariant {style : SessionStyle} {visits : List Session.Visit} {session : Session}
    (history : Session.History style visits session) :
    let lines := Session.linesSinceIdle visits
    session.pendingText = Bytes.unlines lines ∧
      (session.depth : Int)
        = session.pendingText.count 0x7b - session.pendingText.count 0x7d ∧
      (session.pendingText = [] ↔ session.depth = 0) ∧
      session.cancel = ⟨session.environment, [], 0⟩ ∧
      ∀ fuel line,
        let source := Bytes.unlines (lines ++ [line])
        let lexing := Lexing.read source Session.sourceName
        (session.feed fuel style line =
          match if session.isPending then none else Session.command? line with
          | some command => some (session.obey style command)
          | none => Session.respond fuel style session.environment source) ∧
        ((session.isPending = false → Session.command? line = none) →
          (lexing.findings ≠ [] ∨
            Finding.anyError (Parsing.read lexing.tokens).findings = true) →
          ∃ reply, session.feed fuel style line = some reply ∧
            reply.session.environment = session.environment ∧
            Emission.outText reply.emissions = []) := by
  intro lines
  have consistent := history.reachable.consistent
  rw [Session.Consistent] at consistent
  refine ⟨history.pendingText_eq, by omega, history.pendingText_eq_nil_iff, rfl, ?_⟩
  intro fuel line source lexing
  have collected := history.collect_eq fuel line
  constructor
  · rw [Session.feed]
    cases if session.isPending then none else Session.command? line with
    | some command => rfl
    | none => exact collected
  · intro plain rejected
    rw [Session.feed_eq_collect plain, collected]
    exact Session.respond_of_rejected rejected fuel style session.environment

/-- An open block is held back, and completing it with an illegal character changes nothing. -/
theorem session_invariant_rejected :
    let opening := Bytes.utf8 "\x7b console true"
    Session.History ⟨false, false⟩ [⟨.feed opening, sampleSession⟩] sampleSession ∧
      sampleSession.pendingText = Bytes.unlines [opening] ∧ sampleSession.depth = 1 ∧
      ∃ reply, sampleSession.feed 0 ⟨false, false⟩ (Bytes.utf8 "\x7d @") = some reply ∧
        reply.session.environment = .empty ∧ Emission.outText reply.emissions = [] := by
  intro opening
  have first : Session.fresh.feed 0 ⟨false, false⟩ (Bytes.utf8 "\x7b console true")
      = some ⟨sampleSession, [], true⟩ := by
    rw [Session.feed_eq_collect fun _ => by cbv]
    rfl
  have history : Session.History ⟨false, false⟩ [⟨.feed opening, sampleSession⟩] sampleSession :=
    .feed .fresh first
  obtain ⟨held, -, -, -, next⟩ := session_invariant history
  have flawed : (Lexing.read (Bytes.unlines [Bytes.utf8 "\x7b console true",
      Bytes.utf8 "\x7d @"]) Session.sourceName).findings ≠ [] := by
    cbv
    simp
  have pending : sampleSession.isPending = true := rfl
  have plain : sampleSession.isPending = false
      → Session.command? (Bytes.utf8 "\x7d @") = none := by
    intro idle
    rw [pending] at idle
    cases idle
  exact ⟨history, held, rfl, (next 0 (Bytes.utf8 "\x7d @")).2 plain (.inl flawed)⟩

end ConsoleScript
