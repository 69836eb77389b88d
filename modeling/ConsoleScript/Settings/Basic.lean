import ConsoleScript.Report.Log
import ConsoleScript.Settings.Path
import ConsoleScript.Text.Lowercase

/-! # Settings

Five settings govern sessions and the log. Each has a value of its own that holds unless a settings
file gives another: `SettingsFile` is such a file, in which every section and every setting may be
left out, and `Settings.override` lays it over the values that hold without it.

* **`Settings.initial`** — the values that hold without a file;
* **`Settings.override`** — a file laid over settings;
* **`Settings.violations`** — the rules that settings break;
* **`Settings.ofFile`** — the settings of a file, or the rules that it breaks. -/

namespace ConsoleScript

/-- The settings that govern sessions and the log. -/
@[ext] structure Settings where
  /-- The file that the settings were read from; empty if there was none. -/
  path : Bytes
  /-- What a session shows before a line of input. -/
  prompt : Bytes
  /-- The file that keeps the lines of sessions; empty if there is none. -/
  historyFile : Bytes
  /-- Whether sessions are coloured. -/
  color : Bool
  /-- Whether sessions show the change of a variable. -/
  echoAssignments : Bool
  /-- The name of the least level of log entries that are shown. -/
  level : Bytes
  deriving DecidableEq

/-- The settings of a file about sessions. -/
structure SessionSection where
  /-- What to show before a line of input. -/
  prompt : Option Bytes := none
  /-- The file that keeps the lines of sessions. -/
  historyFile : Option Bytes := none
  /-- Whether to use colours. -/
  color : Option Bool := none
  /-- Whether to show the change of a variable. -/
  echoAssignments : Option Bool := none
  deriving DecidableEq

/-- The settings of a file about the log. -/
structure LogSection where
  /-- The name of the least level to show. -/
  level : Option Bytes := none
  deriving DecidableEq

/-- The content of a settings file. -/
structure SettingsFile where
  /-- What it says about sessions. -/
  session : Option SessionSection := none
  /-- What it says about the log. -/
  log : Option LogSection := none
  deriving DecidableEq

namespace LogLevel

/-- The level with a name; no name at all means the ordinary level. -/
def ofName? (name : Bytes) : Option LogLevel :=
  if name = Bytes.utf8 "debug" then some debug
  else if name = Bytes.utf8 "info" ∨ name = [] then some info
  else if name = Bytes.utf8 "warn" then some warn
  else if name = Bytes.utf8 "error" then some error
  else none

end LogLevel

/-- A rule that settings break. -/
inductive Violation where
  /-- The prompt is empty. -/
  | emptyPrompt
  /-- There is no level of that name. -/
  | unknownLevel (name : Bytes)
  deriving DecidableEq

namespace Violation

/-- What is wrong, in words. -/
def message : Violation → Bytes
  | emptyPrompt => Bytes.utf8 "repl.prompt must not be empty"
  | unknownLevel name =>
    Bytes.utf8 "log.level " ++ name.quoted
      ++ Bytes.utf8 " is not one of debug, info, warn, error"

/-- What is wrong with settings of a path in words, given each wrong thing in words. -/
def summary (path : Bytes) (issues : List Bytes) : Bytes :=
  Bytes.utf8 "config: "
    ++ (if path = [] then [] else path ++ Bytes.utf8 ": ")
    ++ Bytes.utf8 "validation failed:"
    ++ issues.flatMap fun issue => Bytes.utf8 "\n- " ++ issue

end Violation

namespace Settings

/-- The name of the file in the home directory that keeps the lines of sessions. -/
def historyName : Bytes :=
  Bytes.utf8 ".xen_history"

/-- The settings that hold without a file. -/
def initial (home : Option Bytes) : Settings where
  path := []
  prompt := Bytes.utf8 "xen> "
  historyFile := (home.map fun directory => Path.join directory historyName).getD []
  color := true
  echoAssignments := false
  level := Bytes.utf8 "info"

/-- The path with a tilde as its first component replaced by the home directory, if that is known.
-/
def expandHome (home : Option Bytes) (path : Bytes) : Bytes :=
  match home, path with
  | some directory, [0x7e] => Path.join directory []
  | some directory, 0x7e :: 0x2f :: rest => Path.join directory (0x2f :: rest)
  | _, _ => path

/-- The settings with those of a section about sessions laid over them. -/
def overrideSession (home : Option Bytes) (settings : Settings) (given : SessionSection) :
    Settings :=
  { settings with
    prompt := given.prompt.getD settings.prompt
    historyFile := (given.historyFile.map (expandHome home)).getD settings.historyFile
    color := given.color.getD settings.color
    echoAssignments := given.echoAssignments.getD settings.echoAssignments }

/-- The settings with those of a section about the log laid over them; an empty name says nothing,
and the case of letters does not matter. -/
def overrideLog (settings : Settings) (given : LogSection) : Settings :=
  { settings with
    level := match given.level with
      | some (first :: rest) => Bytes.toLowercase (first :: rest)
      | _ => settings.level }

/-- The settings with those of a file laid over them. -/
def override (home : Option Bytes) (settings : Settings) (file : SettingsFile) : Settings :=
  (settings.overrideSession home (file.session.getD {})).overrideLog (file.log.getD {})

/-- The rules that settings break. -/
def violations (settings : Settings) : List Violation :=
  (if settings.prompt = [] then [.emptyPrompt] else [])
    ++ if LogLevel.ofName? settings.level = none then [.unknownLevel settings.level] else []

/-- The settings of a file, or all the rules that they break. -/
def ofFile (home : Option Bytes) (file : SettingsFile) : Except (List Violation) Settings :=
  let settings := (initial home).override home file
  if settings.violations = [] then .ok settings else .error settings.violations

/-- The least level of log entries that are shown; `verbose` shows all. -/
def threshold (settings : Settings) (verbose : Bool) : LogLevel :=
  if verbose then .debug else (LogLevel.ofName? settings.level).getD .info

end Settings

end ConsoleScript
