import ConsoleScript.Evaluation.Trace
import ConsoleScript.Parsing.Program
import ConsoleScript.Text.Blank
import ConsoleScript.Text.Quoted

/-! # Log entries

What the program tells about its own work: reading a source, the control flow of a run, the start of
a session. An entry is a level, a message and named attributes; as text it is a line of `key=value`
pairs, a value being quoted where it would not be read back as one word. -/

namespace ConsoleScript

/-- The levels of log entries, in increasing order. -/
inductive LogLevel where
  /-- Details of the work. -/
  | debug
  /-- Ordinary news. -/
  | info
  /-- Something suspicious. -/
  | warn
  /-- Something that failed. -/
  | error
  deriving DecidableEq, Repr

namespace LogLevel

/-- The rank of a level. -/
def rank : LogLevel → Nat
  | debug => 0
  | info => 1
  | warn => 2
  | error => 3

/-- Whether entries of a level are shown when `threshold` is the least level to be shown. -/
def isShownAt (level threshold : LogLevel) : Bool :=
  threshold.rank ≤ level.rank

/-- The word for a level. -/
def label : LogLevel → Bytes
  | debug => Bytes.utf8 "DEBUG"
  | info => Bytes.utf8 "INFO"
  | warn => Bytes.utf8 "WARN"
  | error => Bytes.utf8 "ERROR"

end LogLevel

/-- The value of an attribute. -/
inductive LogValue where
  /-- An integer. -/
  | integer (value : Int)
  /-- A text. -/
  | text (value : Bytes)
  deriving DecidableEq, Repr

/-- An entry of the log. -/
structure LogEntry where
  /-- How important the entry is. -/
  level : LogLevel
  /-- What it is about. -/
  message : Bytes
  /-- Named details in order. -/
  attributes : List (Bytes × LogValue)
  deriving DecidableEq, Repr

namespace LogEntry

/-- A text can stand in a log line without quotes if it is not empty and holds neither white space,
equality signs, quotes, control characters nor anything that cannot be printed. -/
def isPlain (text : Bytes) : Bool :=
  !text.isEmpty && (Bytes.characters text).all fun unit =>
    match unit.scalar? with
    | none => false
    | some scalar =>
      if scalar < 0x80 then 0x20 < scalar && scalar ≠ 0x3d && scalar ≠ 0x22
      else scalar ≠ 0xfffd && !Character.isBlank scalar && Character.isPrintable scalar

/-- A text as it stands in a log line. -/
def renderText (text : Bytes) : Bytes :=
  if isPlain text then text else text.quoted

/-- An attribute as it stands in a log line. -/
def renderAttribute (pair : Bytes × LogValue) : Bytes :=
  renderText pair.1 ++ 0x3d :: match pair.2 with
    | .integer value => Bytes.signedDecimal value
    | .text value => renderText value

/-- An entry as a line, without a newline. -/
def render (entry : LogEntry) : Bytes :=
  Bytes.joinWith [0x20] <|
    (Bytes.utf8 "level=" ++ entry.level.label) :: (Bytes.utf8 "msg=" ++ renderText entry.message)
      :: entry.attributes.map renderAttribute

/-- The lines for the entries that are shown at a level. -/
def renderLines (threshold : LogLevel) (entries : List LogEntry) : Bytes :=
  Bytes.unlines ((entries.filter fun entry => entry.level.isShownAt threshold).map render)

/-- An entry about a detail of the work. -/
def detail (message : String) (attributes : List (String × LogValue)) : LogEntry where
  level := .debug
  message := Bytes.utf8 message
  attributes := attributes.map fun pair => (Bytes.utf8 pair.1, pair.2)

end LogEntry

namespace Event

/-- The log entry about an event of a run, if it is one of the control flow. -/
def logEntry? : Event → Option LogEntry
  | branchTaken index position =>
    some (.detail "if branch taken"
      [("branch", .integer index), ("at", .text position.render)])
  | otherwiseTaken position =>
    some (.detail "else branch taken" [("at", .text position.render)])
  | loopFinished rounds position =>
    some (.detail "while loop finished"
      [("iterations", .integer rounds), ("at", .text position.render)])
  | _ => none

end Event

namespace State

/-- The log entries of a run, in order. -/
def logEntries (state : State) : List LogEntry :=
  state.events.filterMap Event.logEntry?

end State

namespace Compilation

/-- The log entries about reading a source file. -/
def logEntries (file : Bytes) (compilation : Compilation) : List LogEntry :=
  LogEntry.detail "tokenize"
      [("file", .text file), ("tokens", .integer compilation.lexing.tokens.length),
        ("diagnostics", .integer compilation.lexing.findings.length)]
    :: match compilation.parsing? with
      | some parsing =>
        [.detail "parse" [("statements", .integer parsing.program.stmts.length),
          ("diagnostics", .integer parsing.findings.length)]]
      | none => []

end Compilation

end ConsoleScript
