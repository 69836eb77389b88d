import ConsoleScript.CommandLine.Dialogue
import ConsoleScript.CommandLine.Invocation
import ConsoleScript.Report.Listing
import ConsoleScript.Settings.Loading

/-! # Carrying out a command line

A command line is either carried out at once, or it opens a dialogue: `Opening.ofWords` tells which.
The commands list the tokens of a source file, show its tree, or run it; each writes to the standard
output and to the standard error and ends with an exit code, which is zero if nothing was wrong.

Everything that depends on the system comes through a `Host`. -/

namespace ConsoleScript

/-- What a command did. -/
structure Execution where
  /-- What was written. -/
  emissions : List Emission
  /-- The exit code. -/
  exitCode : Nat

namespace Execution

/-- How the program is called. -/
def usage : Bytes :=
  Bytes.unlines <| [
    "Usage:",
    "  xen tokens <file> [--json]   Tokenize and print tokens",
    "  xen parse  <file>            Parse and print AST (JSON)",
    "  xen run    <file>            Run a source file",
    "  xen repl                     Start interactive REPL",
    "Flags:",
    "  --config <path>              Configuration file (default $XEN_CONFIG or ~/.xen.yml)",
    "  --verbose                    Debug logging to stderr"].map Bytes.utf8

/-- The line about an error. -/
def errorLine (text : Bytes) : Bytes :=
  Bytes.utf8 "error: " ++ text ++ [0x0a]

/-- A command that could not be carried out. -/
def refused (text : Bytes) : Execution :=
  ⟨[.err (errorLine text)], 1⟩

/-- A command line that is not understood. -/
def misused (text : Bytes) : Execution :=
  ⟨[.err (errorLine text), .err usage], 1⟩

/-- The exit code for findings. -/
def codeFor (findings : List Finding) : Nat :=
  if Finding.anyError findings then 1 else 0

/-- Writes data as JSON, if there is JSON for it. -/
def ofData (data : Data) (exitCode : Nat) : Execution :=
  match data.document with
  | .ok text => ⟨[.out text], exitCode⟩
  | .error number =>
    refused (Bytes.utf8 "JSON encoding failed: " ++ Data.unsupportedMessage number)

/-- Lists the tokens of a source text. -/
def listTokens (source file : Bytes) (json : Bool) : Execution :=
  let lexing := Lexing.read source file
  if json then ofData lexing.data (codeFor lexing.findings)
  else ⟨[.out (Token.table lexing.tokens), .err (Finding.renderLines lexing.findings)],
    codeFor lexing.findings⟩

/-- Shows the tree of a source text. -/
def showTree (source file : Bytes) : Execution :=
  let analysis := Analysis.analyze source file
  ofData analysis.data (codeFor analysis.findings)

/-- What a run writes: its output, its log, and an entry on the number of variables at its end. -/
def emissionsOf (state : State) : List Emission :=
  .out state.output :: state.logEntries.map .note
    ++ [.note (.detail "evaluate" [("bindings", .integer state.environment.entries.length)])]

/-- Runs a source text. There is no result if a loop needs more than `fuel` rounds. -/
def runSource (fuel : Nat) (source file : Bytes) : Option Execution :=
  let compilation := Compilation.compile source file
  let before := (compilation.logEntries file).map .note
    ++ [.err (Finding.renderLines compilation.findings)]
  match compilation.program? with
  | none => some ⟨before, 1⟩
  | some program =>
    -- Warnings have been written by now; they do not keep the program from running.
    match program.run fuel Console.unlimited (.start .empty) with
    | .done _ state => some ⟨before ++ emissionsOf state, 0⟩
    | .failed failure state =>
      some ⟨before ++ emissionsOf state ++ [.err (failure.message ++ [0x0a])], 1⟩
    | .unfinished => none

end Execution

/-- The commands. -/
inductive Command where
  /-- Lists the tokens of a source file. -/
  | tokens
  /-- Shows the tree of a source file. -/
  | parse
  /-- Runs a source file. -/
  | run
  /-- Opens a dialogue. -/
  | dialogue
  deriving DecidableEq

namespace Command

/-- The command with a name. -/
def ofName? (name : Bytes) : Option Command :=
  if name = Bytes.utf8 "tokens" then some tokens
  else if name = Bytes.utf8 "parse" then some parse
  else if name = Bytes.utf8 "run" then some run
  else if name = Bytes.utf8 "repl" then some dialogue
  else none

end Command

/-- How a command line is answered. -/
inductive Opening where
  /-- At once. -/
  | finished (threshold : LogLevel) (execution : Execution)
  /-- By a dialogue under settings. -/
  | dialogue (threshold : LogLevel) (settings : Settings) (emissions : List Emission)

namespace Settings

/-- The style of sessions under settings. -/
def style (settings : Settings) : SessionStyle :=
  ⟨settings.color, settings.echoAssignments⟩

/-- The log entry about the file that settings were read from. -/
def loadedNotes (settings : Settings) : List Emission :=
  if settings.path = [] then []
  else [.note (.detail "config loaded" [("path", .text settings.path)])]

end Settings

namespace Invocation

/-- Carries out a command on the source file that is the first argument of an invocation. -/
def onFile (host : Host) (invocation : Invocation) (carryOut : Bytes → Bytes → Option Execution) :
    Option Execution :=
  match invocation.arguments with
  | [] => some (.refused (Bytes.utf8 "missing file argument"))
  | file :: _ =>
    match (host.look file).read file with
    | .ok source => carryOut source file
    | .error reason =>
      some (.refused (Bytes.utf8 "cannot read file " ++ file ++ Bytes.utf8 ": " ++ reason))

/-- Answers an invocation under settings. There is no answer if a loop needs more than `fuel`
rounds. -/
def answer (fuel : Nat) (host : Host) (invocation : Invocation) (settings : Settings) :
    Option Opening :=
  let threshold := settings.threshold invocation.verbose
  let finish (execution : Option Execution) : Option Opening :=
    execution.map fun done =>
      .finished threshold ⟨settings.loadedNotes ++ done.emissions, done.exitCode⟩
  match Command.ofName? invocation.command with
  | some .tokens =>
    finish (invocation.onFile host fun source file =>
      some (.listTokens source file invocation.json))
  | some .parse => finish (invocation.onFile host fun source file => some (.showTree source file))
  | some .run => finish (invocation.onFile host (Execution.runSource fuel))
  | some .dialogue =>
    some (.dialogue threshold settings (settings.loadedNotes
      ++ [.note (.detail "repl started" [("history", .text settings.historyFile)]),
        .out (Dialogue.greeting settings.style)]))
  | none =>
    finish (some (.misused (Bytes.utf8 "unknown command '" ++ invocation.command ++ [0x27])))

/-- The paths of the files that answering an invocation may look at. -/
def paths (host : Host) (invocation : Invocation) : List Bytes :=
  (Settings.choose host invocation.settingsPath).path :: invocation.arguments.take 1

end Invocation

namespace Opening

/-- Answers the words of a command line. There is no answer if a loop needs more than `fuel`
rounds. -/
def ofWords (fuel : Nat) (host : Host) (words : List Bytes) : Option Opening :=
  match Invocation.parse words with
  | .error fault => some (.finished .info (.misused fault.message))
  | .ok invocation =>
    match Settings.load host invocation.settingsPath with
    | .error fault => some (.finished .info (.refused fault.message))
    | .ok settings => invocation.answer fuel host settings

end Opening

/-- What the streams of the program hold at its end. -/
structure Transcript where
  /-- The standard output. -/
  out : Bytes
  /-- The standard error. -/
  err : Bytes
  /-- The exit code. -/
  exitCode : Nat
  deriving DecidableEq

namespace Transcript

/-- The streams behind emissions of which the log is shown from a level on. -/
def ofEmissions (threshold : LogLevel) (emissions : List Emission) (exitCode : Nat) : Transcript :=
  ⟨Emission.outText emissions, Emission.diagnosticText threshold emissions, exitCode⟩

/-- Carries out a command line with a standard input. There is no result if a loop needs more than
`fuel` rounds. -/
def ofWords (fuel : Nat) (host : Host) (words : List Bytes) (input : Bytes) :
    Option Transcript := do
  match ← Opening.ofWords fuel host words with
  | .finished threshold execution =>
    return ofEmissions threshold execution.emissions execution.exitCode
  | .dialogue threshold settings emissions =>
    let later ← Dialogue.converse fuel settings.style .fresh (Input.readAll [] input)
    return ofEmissions threshold (emissions ++ later) 0

end Transcript

end ConsoleScript
