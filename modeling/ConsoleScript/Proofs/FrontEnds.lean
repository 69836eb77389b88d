import ConsoleScript.CommandLine.Execution
import ConsoleScript.Proofs.Relocation
import ConsoleScript.Proofs.SourcePositions
import ConsoleScript.Proofs.TextJoining

/-! # The front ends agree on what is accepted

A source is read in three ways. Running a file stops behind the lexer as soon as it has a finding;
showing a tree always parses, and looks for an error among all findings; a session goes the first
way under a file name of its own. They accept the same sources, because the lexer finds nothing but
errors.

* **`Lexing.findings_match_illegal`** — one error for each illegal token, in order and at its place;
* **`Relocation.inFile`** — the name of another file, of which **`Analysis.analyze_inFile`** shows
  that it does not matter to reading;
* **`Session.Runs`**, **`Session.Refuses`** — what a session does with a text, whatever its
  variables: it runs a program, or it changes nothing. `Session.Refuses.not_runs` tells them apart
  by what is written.

`front_ends_agree` puts these together. -/

namespace ConsoleScript

/-! ## Illegal tokens and findings of the lexer -/

/-- A finding reports a token: it is an error, shown at the place of the token. -/
structure Finding.Reports (finding : Finding) (token : Token) : Prop where
  /-- What is shown is an error. -/
  severity : finding.diagnostic.severity = .error
  /-- It is shown at the place of the token. -/
  span : finding.diagnostic.span = token.span

namespace Piece

/-- Every complaint about a piece is an error. -/
theorem severity_of_complaint? {piece : Piece} {complaint : Complaint}
    (complained : piece.complaint? = some complaint) : complaint.severity = .error := by
  rw [complaint?] at complained
  split at complained <;> cases complained <;> rfl

/-- The piece at the front of a text makes an illegal token exactly if there is a complaint. -/
theorem kind?_first_eq_illegal_iff (lead : UInt8) (rest : Bytes) :
    (first lead rest).kind? = some .illegal ↔ (first lead rest).complaint?.isSome := by
  rw [kind?, complaint?]
  cases sort : (first lead rest).sort with
  | gap => simp
  | mark kind => simpa using (isOrdinary_of_mark_first sort).2
  | flaw reason => cases reason <;> simp

end Piece

/-- A piece of a text makes an illegal token exactly if there is a complaint about it. -/
theorem kind?_eq_illegal_iff {source : Bytes} {piece : Piece} (member : piece ∈ pieces source) :
    piece.kind? = some .illegal ↔ piece.complaint?.isSome := by
  obtain ⟨lead, rest, rfl⟩ := exists_first_of_mem_pieces member
  exact Piece.kind?_first_eq_illegal_iff lead rest

namespace Lexing

/-- Wherever pieces are laid out, their findings report the illegal ones of their tokens. -/
theorem reports_layOut {parts : List Piece}
    (sorted : ∀ piece ∈ parts, piece.kind? = some .illegal ↔ piece.complaint?.isSome)
    (start : Position) :
    List.Forall₂ Finding.Reports ((layOut start parts).filterMap PlacedPiece.finding?)
      (((layOut start parts).filterMap PlacedPiece.token?).filter (·.kind = .illegal)) := by
  induction parts generalizing start with
  | nil => exact .nil
  | cons piece parts ih =>
    obtain ⟨here, others⟩ := List.forall_mem_cons.1 sorted
    have rest := ih others (start.after piece.text)
    rw [layOut_cons, List.filterMap_cons, List.filterMap_cons]
    cases complained : piece.complaint? with
    | none =>
      -- Without a complaint the piece makes no illegal token.
      have legal : piece.kind? ≠ some .illegal := by
        rw [complained] at here
        simpa using here
      cases kind : piece.kind? with
      | none => simpa [PlacedPiece.finding?, PlacedPiece.token?, complained, kind] using rest
      | some other =>
        have ordinary : other ≠ .illegal := by
          rintro rfl
          exact legal kind
        simpa [PlacedPiece.finding?, PlacedPiece.token?, complained, kind, ordinary] using rest
    | some complaint =>
      have illegal : piece.kind? = some .illegal := here.2 (by rw [complained]; rfl)
      have reports : Finding.Reports ⟨complaint, start, start.after piece.text⟩
          ⟨.illegal, piece.lexeme, start, start.after piece.text⟩ :=
        ⟨Piece.severity_of_complaint? complained, rfl⟩
      simpa [PlacedPiece.finding?, PlacedPiece.token?, complained, illegal] using
        List.Forall₂.cons reports rest

/-- The findings of the lexer report the illegal tokens, one each and in order. -/
theorem findings_match_illegal (source file : Bytes) :
    List.Forall₂ Finding.Reports (read source file).findings
      ((read source file).tokens.filter (·.kind = .illegal)) := by
  have sorted : ∀ piece ∈ pieces source, piece.kind? = some .illegal ↔ piece.complaint?.isSome :=
    fun _ => kind?_eq_illegal_iff
  have laid_out := reports_layOut sorted (.start file)
  rw [read, readFrom, List.filter_append]
  simpa using laid_out

/-- The findings of the lexer hold an error as soon as there are any. -/
theorem anyError_findings (source file : Bytes) :
    Finding.anyError (read source file).findings = !(read source file).findings.isEmpty := by
  have matched := findings_match_illegal source file
  cases found : (read source file).findings with
  | nil => rfl
  | cons finding findings =>
    rw [found] at matched
    obtain ⟨token, tokens, reports, -, -⟩ := List.forall₂_cons_left_iff.1 matched
    have is_error : finding.isError = true := beq_iff_eq.2 reports.severity
    simp [Finding.anyError, is_error]

end Lexing

/-! ## The same source under another name -/

namespace Relocation

/-- Moves every known position to another file, at the same offset, line and column. -/
def inFile (file : Bytes) : Relocation where
  move position := if position.isKnown then { position with file } else position
  move_unset := rfl
  offset_lt first second := by
    split <;> split <;> rfl

end Relocation

namespace Position

/-- Reading leads to the same place in every file. -/
theorem after_withFile (position : Position) (file text : Bytes) :
    { position with file := file }.after text = { position.after text with file := file } := by
  induction text generalizing position with
  | nil => rfl
  | cons byte text ih =>
    have step : { position with file := file }.step byte
        = { position.step byte with file := file } := by
      unfold Position.step
      split <;> rfl
    rw [after_cons, after_cons, step, ih]

/-- Reading on from a known position, every position is known. -/
theorem isKnown_after {position : Position} (known : position.isKnown = true) (text : Bytes) :
    (position.after text).isKnown = true := by
  rw [isKnown, decide_eq_true_eq] at known ⊢
  rw [line_after]
  omega

theorem move_inFile {position : Position} (known : position.isKnown = true) (file : Bytes) :
    (Relocation.inFile file).move position = { position with file := file } :=
  if_pos known

end Position

namespace Lexing

/-- What the lexer gives, moved. -/
def relocate (places : Relocation) (lexing : Lexing) : Lexing :=
  ⟨lexing.tokens.map (Token.relocate places), lexing.findings.map (Finding.relocate places)⟩

/-- Pieces laid out in another file have their tokens and findings there. -/
theorem layOut_inFile {start : Position} (known : start.isKnown = true) (file : Bytes)
    (parts : List Piece) :
    (layOut { start with file := file } parts).filterMap PlacedPiece.token?
        = ((layOut start parts).filterMap PlacedPiece.token?).map (Token.relocate (.inFile file)) ∧
      (layOut { start with file := file } parts).filterMap PlacedPiece.finding?
        = ((layOut start parts).filterMap PlacedPiece.finding?).map
          (Finding.relocate (.inFile file)) := by
  induction parts generalizing start with
  | nil => exact ⟨rfl, rfl⟩
  | cons piece parts ih =>
    have later := Position.isKnown_after known piece.text
    obtain ⟨tokens, findings⟩ := ih later
    have span : Span.relocate (.inFile file) ⟨start, start.after piece.text⟩
        = ⟨{ start with file := file }, { start.after piece.text with file := file }⟩ := by
      rw [Span.relocate, Position.move_inFile known, Position.move_inFile later]
    rw [layOut_cons, layOut_cons, Position.after_withFile, ← span]
    simp only [List.filterMap_cons]
    -- A gap makes no token and a piece without a flaw no finding, in either file.
    constructor
    · cases kind : piece.kind? with
      | none => simpa [PlacedPiece.token?, kind] using tokens
      | some kind => simpa [PlacedPiece.token?, kind, Token.relocate] using tokens
    · cases complaint : piece.complaint? with
      | none => simpa [PlacedPiece.finding?, complaint] using findings
      | some complaint => simpa [PlacedPiece.finding?, complaint, Finding.relocate] using findings

/-- The name of the file does not matter to the lexer, but for the places. -/
theorem read_inFile (source file other : Bytes) :
    read source other = (read source file).relocate (.inFile other) := by
  have known : (Position.start file).isKnown = true := rfl
  obtain ⟨tokens, findings⟩ := layOut_inFile known other (pieces source)
  have start : { Position.start file with file := other } = Position.start other := rfl
  have stop : (Relocation.inFile other).move ((Position.start file).after source)
      = (Position.start other).after source := by
    have later := Position.isKnown_after known source
    rw [Position.move_inFile later, ← Position.after_withFile, start]
  rw [start] at tokens findings
  simp [read, readFrom, relocate, tokens, findings, Token.relocate, Span.relocate, stop]

end Lexing

namespace Analysis

/-- A source read as far as it goes, moved. -/
def relocate (places : Relocation) (analysis : Analysis) : Analysis :=
  ⟨analysis.program.relocate places, analysis.findings.map (Finding.relocate places)⟩

/-- The name of the file does not matter to what is read, but for the places. -/
theorem analyze_inFile (source file other : Bytes) :
    analyze source other = (analyze source file).relocate (.inFile other) := by
  simp [analyze, relocate, Lexing.read_inFile source file other, Lexing.relocate,
    Parsing.read_relocate, Parsing.relocate]

end Analysis

namespace Compilation

variable (source file : Bytes)

/-- A source compiles exactly if reading it as far as it goes finds no error, and then to the
program read there. -/
theorem program?_eq_analyze :
    (compile source file).program? =
      if Finding.anyError (Analysis.analyze source file).findings then none
      else some (Analysis.analyze source file).program := by
  have lexed := Lexing.anyError_findings source file
  rw [Analysis.analyze, Finding.anyError_append, lexed, compile, program?]
  cases (Lexing.read source file).findings.isEmpty with
  | true => rfl
  | false => rfl

/-- Compiling a source finds an error exactly if reading it as far as it goes does. -/
theorem anyError_findings :
    Finding.anyError (compile source file).findings
      = Finding.anyError (Analysis.analyze source file).findings := by
  have lexed := Lexing.anyError_findings source file
  rw [Analysis.analyze, Finding.anyError_append, lexed, compile, findings]
  cases empty : (Lexing.read source file).findings.isEmpty with
  | true => rfl
  | false =>
    rw [empty] at lexed
    exact lexed

/-- A source compiles exactly if what it finds is no error. -/
theorem isSome_program?_iff :
    (compile source file).program?.isSome ↔
      Finding.anyError (compile source file).findings = false := by
  rw [program?_eq_analyze, anyError_findings]
  cases Finding.anyError (Analysis.analyze source file).findings with
  | true => simp
  | false => simp

variable {source file}

/-- Without an error, compiling a source finds what reading it as far as it goes finds. -/
theorem findings_eq_analyze
    (clean : Finding.anyError (Analysis.analyze source file).findings = false) :
    (compile source file).findings = (Analysis.analyze source file).findings := by
  have lexed := Lexing.anyError_findings source file
  rw [Analysis.analyze, Finding.anyError_append, lexed] at clean
  have empty : (Lexing.read source file).findings = [] := by simp_all
  rw [Analysis.analyze, compile, findings]
  simp [empty]

/-- A source that compiles is read as far as it goes, to the same program with the same findings. -/
theorem analyze_eq {program : Program} (compiled : (compile source file).program? = some program) :
    Analysis.analyze source file = ⟨program, (compile source file).findings⟩ := by
  rw [program?_eq_analyze] at compiled
  split at compiled
  · cases compiled
  · rename_i clean
    obtain rfl := Option.some.inj compiled
    rw [findings_eq_analyze (Bool.eq_false_of_not_eq_true clean)]

/-- The name of the file does not matter to a program, but for the places. -/
theorem program?_inFile (source file other : Bytes) :
    (compile source other).program?
      = (compile source file).program?.map (Program.relocate (.inFile other)) := by
  rw [program?_eq_analyze, program?_eq_analyze, Analysis.analyze_inFile source file other,
    Analysis.relocate, Finding.anyError_relocate]
  split <;> rfl

end Compilation

/-! ## What running a file does -/

namespace Execution

/-- What is written about a source file before it is run. -/
def announcements (source file : Bytes) : List Emission :=
  let compilation := Compilation.compile source file
  (compilation.logEntries file).map .note ++ [.err (Finding.renderLines compilation.findings)]

/-- What running a source file gives for the outcome of its program, behind what was written
before. -/
def ofOutcome (before : List Emission) : Outcome Value → Option Execution
  | .done _ state => some ⟨before ++ emissionsOf state, 0⟩
  | .failed failure state =>
    some ⟨before ++ emissionsOf state ++ [.err (failure.message ++ [0x0a])], 1⟩
  | .unfinished => none

/-- A source file that compiles is run as its program. -/
theorem runSource_of_program? {source file : Bytes} {program : Program}
    (compiled : (Compilation.compile source file).program? = some program) (fuel : Nat) :
    runSource fuel source file
      = ofOutcome (announcements source file)
        (program.run fuel Console.unlimited (.start .empty)) := by
  simp only [runSource, compiled]
  cases program.run fuel Console.unlimited (.start .empty) <;> rfl

end Execution

/-! ## What a session does with a text -/

/-- One code is that of the complaints that are no errors. -/
theorem Complaint.code_eq_iff (complaint : Complaint) :
    complaint.code = Bytes.utf8 "P0004" ↔ complaint.severity ≠ .error := by
  cases complaint <;> simp only [code, severity] <;> decide

namespace Finding

/-- What is shown begins with the code of the complaint, in brackets. -/
theorem take_render (finding : Finding) :
    finding.diagnostic.render.take 6 = 0x5b :: finding.complaint.code := by
  have five : finding.complaint.code.length = 5 := by
    cases finding.complaint <;> rfl
  simp [Diagnostic.render, diagnostic, five]

/-- An error is never shown like what is no error, since their codes differ. -/
theorem render_ne {error warning : Finding} (is_error : error.isError = true)
    (is_warning : warning.isError = false) :
    error.diagnostic.render ≠ warning.diagnostic.render := by
  intro same
  have starts := congrArg (List.take 6) same
  rw [take_render, take_render, List.cons.injEq] at starts
  have is_loop : warning.complaint.code = Bytes.utf8 "P0004" :=
    (Complaint.code_eq_iff _).2 (beq_eq_false_iff_ne.1 is_warning)
  have no_error := (Complaint.code_eq_iff _).1 (starts.2.trans is_loop)
  exact no_error (beq_iff_eq.1 is_error)

end Finding

namespace Session

/-- What a session makes of the outcome of a run: the variables at its end, and what was written. -/
def report (style : SessionStyle) : Outcome Value → Option (Environment × List Emission)
  | .done _ state => some (state.environment, state.events.filterMap (emissionOf style))
  | .failed failure state =>
    some (state.environment,
      state.events.filterMap (emissionOf style) ++ [emissionOfFailure style failure])
  | .unfinished => none

/-- A session runs a text as a program, on any variables: it writes warnings at most, and then what
the run of the program gives. -/
def Runs (source : Bytes) (program : Program) : Prop :=
  ∃ warnings, Finding.anyError warnings = false ∧
    ∀ fuel style environment,
      runChunk fuel style environment source
        = (report style (program.run fuel Console.unlimited (.start environment))).map fun result =>
            (result.1, warnings.map (emissionOfFinding style) ++ result.2)

/-- A session refuses a text: it writes findings with an error among them, and changes nothing. -/
def Refuses (source : Bytes) : Prop :=
  ∃ findings, Finding.anyError findings = true ∧
    ∀ fuel style environment,
      runChunk fuel style environment source
        = some (environment, findings.map (emissionOfFinding style))

/-- A text that compiles is run as its program. -/
theorem runs_of_program? {source : Bytes} {program : Program}
    (compiled : (Compilation.compile source sourceName).program? = some program) :
    Runs source program := by
  have clean : Finding.anyError (Compilation.compile source sourceName).findings = false := by
    apply (Compilation.isSome_program?_iff source sourceName).1
    rw [compiled]
    rfl
  refine ⟨_, clean, ?_⟩
  intro fuel style environment
  simp only [runChunk, compiled]
  cases program.run fuel Console.unlimited (.start environment) with
  | done value state => rfl
  | failed failure state => simp [report]
  | unfinished => rfl

/-- A text that does not compile is refused. -/
theorem refuses_of_program? {source : Bytes}
    (rejected : (Compilation.compile source sourceName).program? = none) : Refuses source := by
  have found : Finding.anyError (Compilation.compile source sourceName).findings = true := by
    by_contra clean
    have accepted := (Compilation.isSome_program?_iff source sourceName).2
      (Bool.eq_false_of_not_eq_true clean)
    rw [rejected] at accepted
    cases accepted
  refine ⟨_, found, ?_⟩
  intro fuel style environment
  simp only [runChunk, rejected]

/-- What is written about an event is no error message. -/
theorem emissionOf_ne_err (style : SessionStyle) (event : Event) (text : Bytes) :
    emissionOf style event ≠ some (.err text) := by
  intro written
  cases event with
  | assigned name previous value =>
    cases previous with
    | none => simp [emissionOf] at written
    | some before =>
      simp only [emissionOf] at written
      split at written <;> cases written
  | _ => simp [emissionOf] at written

/-- No message about a finding is among what is written about a run. -/
theorem finding_not_mem_report {outcome : Outcome Value} {result : Environment × List Emission}
    (reported : report ⟨false, false⟩ outcome = some result) (finding : Finding) :
    emissionOfFinding ⟨false, false⟩ finding ∉ result.2 := by
  have events (state : State) : emissionOfFinding ⟨false, false⟩ finding
      ∉ state.events.filterMap (emissionOf ⟨false, false⟩) := by
    intro member
    obtain ⟨event, -, written⟩ := List.mem_filterMap.1 member
    exact emissionOf_ne_err _ event _ written
  cases outcome with
  | done value state =>
    obtain rfl := Option.some.inj reported
    exact events state
  | failed failure state =>
    obtain rfl := Option.some.inj reported
    intro member
    rcases List.mem_append.1 member with earlier | last
    · exact events state earlier
    · -- The message about a failure begins with a letter, not with a bracket.
      have same := List.mem_singleton.1 last
      have heads : some (0x5b : UInt8) = some 0x65 :=
        congrArg (fun emission => (Emission.errText [emission]).head?) same
      exact absurd heads (by decide)
  | unfinished => cases reported

/-- A text that a session refuses is not run: the error is written, which no run does. -/
theorem Refuses.not_runs {source : Bytes} (refused : Refuses source) (program : Program) :
    ¬Runs source program := by
  rintro ⟨warnings, harmless, runs⟩
  obtain ⟨findings, found, refuses⟩ := refused
  -- A session without colours is enough to tell the two apart.
  let style : SessionStyle := ⟨false, false⟩
  have same := (refuses 0 style .empty).symm.trans (runs 0 style .empty)
  obtain ⟨result, reported, equal⟩ := Option.map_eq_some_iff.1 same.symm
  obtain ⟨error, member, is_error⟩ := List.any_eq_true.1 found
  have written : emissionOfFinding style error ∈ findings.map (emissionOfFinding style) :=
    List.mem_map_of_mem member
  rw [← (Prod.mk.inj equal).2] at written
  rcases List.mem_append.1 written with warned | told
  · obtain ⟨warning, inside, shown⟩ := List.mem_map.1 warned
    have is_warning : warning.isError = false := by
      simpa using List.any_eq_false.1 harmless warning inside
    simp only [emissionOfFinding, style, SessionStyle.paint, Bool.false_eq_true, if_false,
      Emission.err.injEq, List.append_cancel_right_eq] at shown
    exact Finding.render_ne is_error is_warning shown.symm
  · exact finding_not_mem_report reported error told

end Session

/-- **The front ends agree on what is accepted.** For every source, the findings of the lexer are
errors at the illegal tokens, one each and in order. So compiling the file gives a program exactly
if the findings shown with the tree, under whatever name, hold no error, exactly if a session runs
the text, and exactly if compiling finds nothing but warnings. Then program and findings are those
shown with the tree, but for the name of the file; a session runs that program under its own name;
and running the file runs it, whatever the warnings. -/
theorem front_ends_agree (source file other : Bytes) :
    let lexing := Lexing.read source file
    let compilation := Compilation.compile source file
    let analysis := Analysis.analyze source other
    List.Forall₂ Finding.Reports lexing.findings (lexing.tokens.filter (·.kind = .illegal)) ∧
      (compilation.program?.isSome ↔ Finding.anyError analysis.findings = false) ∧
      (compilation.program?.isSome ↔ ∃ program, Session.Runs source program) ∧
      (compilation.program?.isSome ↔ Finding.anyError compilation.findings = false) ∧
      ∀ program, compilation.program? = some program →
        analysis = Analysis.relocate (.inFile other) ⟨program, compilation.findings⟩ ∧
        Session.Runs source (program.relocate (.inFile Session.sourceName)) ∧
        ∀ fuel, Execution.runSource fuel source file
          = Execution.ofOutcome (Execution.announcements source file)
            (program.run fuel Console.unlimited (.start .empty)) := by
  intro lexing compilation analysis
  have moved : analysis = (Analysis.analyze source file).relocate (.inFile other) :=
    Analysis.analyze_inFile source file other
  have errors : Finding.anyError analysis.findings = Finding.anyError compilation.findings := by
    rw [moved, Analysis.relocate, Finding.anyError_relocate, Compilation.anyError_findings]
  have accepted := Compilation.isSome_program?_iff source file
  have named : (Compilation.compile source Session.sourceName).program?
      = compilation.program?.map (Program.relocate (.inFile Session.sourceName)) :=
    Compilation.program?_inFile source file Session.sourceName
  refine ⟨Lexing.findings_match_illegal source file, ?_, ?_, accepted, ?_⟩
  · rw [errors]
    exact accepted
  · constructor
    · intro found
      obtain ⟨program, compiled⟩ := Option.isSome_iff_exists.1 found
      rw [compiled] at named
      exact ⟨_, Session.runs_of_program? named⟩
    · -- A text that does not compile is refused under every name.
      rintro ⟨program, runs⟩
      by_contra rejected
      rw [Option.not_isSome_iff_eq_none.1 rejected] at named
      exact (Session.refuses_of_program? named).not_runs program runs
  · intro program compiled
    rw [compiled] at named
    refine ⟨?_, Session.runs_of_program? named, Execution.runSource_of_program? compiled⟩
    rw [moved, Compilation.analyze_eq compiled]

/-- The program of the source `while true {}`. -/
def endlessProgram : Program :=
  ⟨⟨⟨[], 0, 1, 1⟩, ⟨[], 13, 1, 14⟩⟩,
    [.loop ⟨⟨[], 0, 1, 1⟩, ⟨[], 13, 1, 14⟩⟩
      (.boolean ⟨⟨[], 6, 1, 7⟩, ⟨[], 10, 1, 11⟩⟩ true)
      (.present ⟨⟨[], 11, 1, 12⟩, ⟨[], 13, 1, 14⟩⟩ [])]⟩

/-- An endless loop is only warned about: a session and running the file run it. -/
theorem front_ends_agree_endless :
    let source := Bytes.utf8 "while true \x7b\x7d"
    (Compilation.compile source []).findings
        = [⟨.endlessLoop, ⟨⟨[], 0, 1, 1⟩, ⟨[], 10, 1, 11⟩⟩⟩] ∧
      Session.Runs source (endlessProgram.relocate (.inFile Session.sourceName)) ∧
      ∀ fuel, Execution.runSource fuel source []
        = Execution.ofOutcome (Execution.announcements source [])
          (endlessProgram.run fuel Console.unlimited (.start .empty)) := by
  intro source
  have lexing : Lexing.read source []
      = ⟨[⟨.whileWord, Bytes.utf8 "while", ⟨⟨[], 0, 1, 1⟩, ⟨[], 5, 1, 6⟩⟩⟩,
        ⟨.trueWord, Bytes.utf8 "true", ⟨⟨[], 6, 1, 7⟩, ⟨[], 10, 1, 11⟩⟩⟩,
        ⟨.leftBrace, [0x7b], ⟨⟨[], 11, 1, 12⟩, ⟨[], 12, 1, 13⟩⟩⟩,
        ⟨.rightBrace, [0x7d], ⟨⟨[], 12, 1, 13⟩, ⟨[], 13, 1, 14⟩⟩⟩,
        ⟨.endOfInput, [], ⟨⟨[], 13, 1, 14⟩, ⟨[], 13, 1, 14⟩⟩⟩], []⟩ := by
    cbv
  have parsing : Parsing.read (Lexing.read source []).tokens
      = ⟨endlessProgram, [⟨.endlessLoop, ⟨⟨[], 0, 1, 1⟩, ⟨[], 10, 1, 11⟩⟩⟩]⟩ := by
    rw [lexing]
    simp [Parsing.read, Cursor.ofTokens, Cursor.skipSeparators, Cursor.skipWhile,
      Cursor.skipWhile.go, Cursor.isSeparator, Cursor.statements_cons, Cursor.statement_cons,
      Cursor.requiredExpression, Cursor.expression_eq, Cursor.operand_cons,
      Cursor.continuation_cons, Parsed.required, TokenKind.strength, Cursor.body_cons,
      Cursor.braced_eq, Cursor.expect, Cursor.kind, Cursor.peek, Cursor.spanFrom,
      Cursor.loopWarnings, Span.join, endlessProgram]
  have found : (Compilation.compile source []).findings
      = [⟨.endlessLoop, ⟨⟨[], 0, 1, 1⟩, ⟨[], 10, 1, 11⟩⟩⟩] := by
    rw [Compilation.compile, parsing, lexing]
    rfl
  have compiled : (Compilation.compile source []).program? = some endlessProgram := by
    rw [Compilation.compile, parsing, lexing]
    rfl
  exact ⟨found, ((front_ends_agree source [] []).2.2.2.2 _ compiled).2⟩

end ConsoleScript
