import ConsoleScript.Evaluation.Statement
import ConsoleScript.Report.Log

/-! # Interactive sessions

A session takes lines of input one by one. Lines are collected until their braces are balanced, then
the collected chunk is read and run on the variables of the session. Between chunks a line may also
be a command: `exit`, `:env` or `:reset`.

A session is a value: `Session.feed` gives the session after a line together with what it wrote, as
emissions in the order in which they were made. -/

namespace ConsoleScript

/-- How a session presents its output. -/
structure SessionStyle where
  /-- Whether texts are coloured. -/
  color : Bool
  /-- Whether the change of a variable is shown. -/
  echo : Bool

/-- The colours of a terminal. -/
inductive Ink where
  /-- For errors. -/
  | red
  /-- For the prompt. -/
  | green
  /-- For remarks. -/
  | gray
  /-- For the title. -/
  | boldCyan

namespace Ink

/-- The control sequence that begins a colour. -/
def sequence : Ink → Bytes
  | red => Bytes.utf8 "\x1b[31m"
  | green => Bytes.utf8 "\x1b[32m"
  | gray => Bytes.utf8 "\x1b[90m"
  | boldCyan => Bytes.utf8 "\x1b[1m\x1b[36m"

/-- The control sequence that ends all colours. -/
def reset : Bytes :=
  Bytes.utf8 "\x1b[0m"

end Ink

namespace SessionStyle

/-- A text in a colour, if the session is coloured. -/
def paint (style : SessionStyle) (ink : Ink) (text : Bytes) : Bytes :=
  if style.color then ink.sequence ++ text ++ Ink.reset else text

end SessionStyle

/-- Something that a session writes. -/
inductive Emission where
  /-- Text on the standard output. -/
  | out (text : Bytes)
  /-- Text on the standard error. -/
  | err (text : Bytes)
  /-- An entry for the log. -/
  | note (entry : LogEntry)
  deriving DecidableEq

namespace Emission

/-- The text that emissions put on the standard output. -/
def outText (emissions : List Emission) : Bytes :=
  emissions.flatMap fun emission =>
    match emission with
    | out text => text
    | _ => []

/-- The text that emissions put on the standard error, the log apart. -/
def errText (emissions : List Emission) : Bytes :=
  emissions.flatMap fun emission =>
    match emission with
    | err text => text
    | _ => []

/-- The text on the standard error with the lines of the log entries that are shown at a level. -/
def diagnosticText (threshold : LogLevel) (emissions : List Emission) : Bytes :=
  emissions.flatMap fun emission =>
    match emission with
    | out _ => []
    | err text => text
    | note entry => LogEntry.renderLines threshold [entry]

/-- The log entries among emissions. -/
def logEntries (emissions : List Emission) : List LogEntry :=
  emissions.filterMap fun emission =>
    match emission with
    | note entry => some entry
    | _ => none

end Emission

/-- The state of a session. -/
@[ext] structure Session where
  /-- The variables. -/
  environment : Environment
  /-- The lines of an unfinished chunk, each with its newline. -/
  pendingText : Bytes
  /-- The number of open braces in the unfinished chunk. -/
  depth : Nat

/-- What a session does with a line. -/
structure Reply where
  /-- The session afterwards. -/
  session : Session
  /-- What was written. -/
  emissions : List Emission
  /-- Whether the session goes on. -/
  alive : Bool

namespace Session

/-- A session without variables and without an unfinished chunk. -/
def fresh : Session :=
  ⟨.empty, [], 0⟩

/-- Whether a chunk is unfinished. -/
def isPending (session : Session) : Bool :=
  0 < session.depth

/-- Drops an unfinished chunk. -/
def cancel (session : Session) : Session :=
  ⟨session.environment, [], 0⟩

/-- The name of the source in messages about a chunk. -/
def sourceName : Bytes :=
  Bytes.utf8 "<repl>"

/-- What a session writes about an event of a run. -/
def emissionOf (style : SessionStyle) (event : Event) : Option Emission :=
  match event with
  | .printed line => some (.out (line ++ [0x0a]))
  | .assigned name (some previous) value =>
    if style.echo then
      some (.out (name ++ Bytes.utf8 ": " ++ previous.display ++ Bytes.utf8 " -> " ++ value.display
        ++ [0x0a]))
    else none
  | other => other.logEntry?.map .note

/-- What a session writes about a finding. -/
def emissionOfFinding (style : SessionStyle) (finding : Finding) : Emission :=
  .err (style.paint .red finding.diagnostic.render ++ [0x0a])

/-- What a session writes about a failure. -/
def emissionOfFailure (style : SessionStyle) (failure : Failure) : Emission :=
  .err (style.paint .red (Bytes.utf8 "error: " ++ failure.message) ++ [0x0a])

/-- Reads and runs a chunk: the environment afterwards and what was written. There is no result if a
loop needs more than `fuel` rounds. -/
def runChunk (fuel : Nat) (style : SessionStyle) (environment : Environment) (source : Bytes) :
    Option (Environment × List Emission) :=
  let compilation := Compilation.compile source sourceName
  let complaints := compilation.findings.map (emissionOfFinding style)
  match compilation.program? with
  | none => some (environment, complaints)
  | some program =>
    match program.run fuel Console.unlimited (.start environment) with
    | .done _ state =>
      some (state.environment, complaints ++ state.events.filterMap (emissionOf style))
    | .failed failure state =>
      some (state.environment, complaints ++ state.events.filterMap (emissionOf style)
        ++ [emissionOfFailure style failure])
    | .unfinished => none

/-- The listing of the variables, one on a line. -/
def listing (style : SessionStyle) (environment : Environment) : Bytes :=
  if environment.entries.isEmpty then style.paint .gray (Bytes.utf8 "(no bindings)") ++ [0x0a]
  else Bytes.unlines (environment.entries.map fun entry =>
    entry.1 ++ Bytes.utf8 " = " ++ entry.2.display ++ 0x20
      :: style.paint .gray (Bytes.utf8 "(" ++ entry.2.kind.label ++ Bytes.utf8 ")"))

/-- A command between chunks. -/
inductive Command where
  /-- Ends the session. -/
  | exit
  /-- Lists the variables. -/
  | listVariables
  /-- Drops all variables. -/
  | clear
  deriving DecidableEq

/-- The command that a line is, white space around it apart. -/
def command? (line : Bytes) : Option Command :=
  let word := line.trim
  if word = Bytes.utf8 "exit" then some .exit
  else if word = Bytes.utf8 ":env" then some .listVariables
  else if word = Bytes.utf8 ":reset" then some .clear
  else none

/-- Carries out a command. -/
def obey (style : SessionStyle) (session : Session) : Command → Reply
  | .exit => ⟨session, [], false⟩
  | .listVariables => ⟨session, [.out (listing style session.environment)], true⟩
  | .clear =>
    ⟨fresh, [.out (style.paint .gray (Bytes.utf8 "environment cleared") ++ [0x0a])], true⟩

/-- The number of braces that are open behind a line, below zero if more were closed than opened.
Every brace counts, also one inside a text literal or a comment. -/
def surplus (session : Session) (line : Bytes) : Int :=
  session.depth + line.count 0x7b - line.count 0x7d

/-- Adds a line to the chunk, and runs the chunk unless braces are open behind the line. A chunk of
white space is dropped. -/
def collect (fuel : Nat) (style : SessionStyle) (session : Session) (line : Bytes) : Option Reply :=
  let source := session.pendingText ++ line ++ [0x0a]
  let depth := session.surplus line
  if 0 < depth then some ⟨⟨session.environment, source, depth.toNat⟩, [], true⟩
  -- Closing braces too many are forgotten: behind a chunk the depth is zero again.
  else if source.trim.isEmpty then some ⟨⟨session.environment, [], 0⟩, [], true⟩
  else
    (runChunk fuel style session.environment source).map fun result =>
      ⟨⟨result.1, [], 0⟩, result.2, true⟩

/-- Takes a line of input. There is no reply if a loop needs more than `fuel` rounds. -/
def feed (fuel : Nat) (style : SessionStyle) (session : Session) (line : Bytes) : Option Reply :=
  match if session.isPending then none else command? line with
  | some command => some (session.obey style command)
  | none => session.collect fuel style line

end Session

end ConsoleScript
