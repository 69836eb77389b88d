import ConsoleScript.Text.Bytes

/-! # Command lines

The arguments of a command line are flags and positional arguments in any order. The flag for a
settings file takes the argument behind it, whatever that is. The first positional argument that is
not empty is the command; those behind it belong to the command. -/

namespace ConsoleScript

/-- An argument of a command line. -/
inductive Argument where
  /-- The flag for a settings file, with its path. -/
  | settings (path : Bytes)
  /-- The flag for a log with all details. -/
  | verbose
  /-- The flag for output as JSON. -/
  | json
  /-- Anything else. -/
  | positional (text : Bytes)
  deriving DecidableEq

namespace Argument

/-- The flag for a settings file. -/
def settingsFlag : Bytes :=
  Bytes.utf8 "--config"

/-- The argument that a word is, flags with a value of their own apart. -/
def ofWord (word : Bytes) : Argument :=
  if word = Bytes.utf8 "--verbose" then verbose
  else if word = Bytes.utf8 "--json" then json
  else positional word

/-- Reads the words of a command line; there is no reading if the last is a flag without its value.
-/
def readAll : List Bytes → Option (List Argument)
  | [] => some []
  | [word] => if word = settingsFlag then none else some [ofWord word]
  | word :: next :: rest =>
    if word = settingsFlag then (readAll rest).map (settings next :: ·)
    else (readAll (next :: rest)).map (ofWord word :: ·)

/-- The text of a positional argument. -/
def text? : Argument → Option Bytes
  | positional text => some text
  | _ => none

/-- The path of a settings file. -/
def settingsPath? : Argument → Option Bytes
  | settings path => some path
  | _ => none

end Argument

/-- What a command line asks for. -/
@[ext] structure Invocation where
  /-- The command. -/
  command : Bytes
  /-- The arguments of the command. -/
  arguments : List Bytes
  /-- The path of a settings file; empty if none is named. -/
  settingsPath : Bytes
  /-- Whether the log shows all details. -/
  verbose : Bool
  /-- Whether output is JSON. -/
  json : Bool
  deriving DecidableEq

/-- What is wrong with a command line. -/
inductive UsageFault where
  /-- The flag for a settings file is last. -/
  | missingPath
  /-- There is no command. -/
  | missingCommand
  deriving DecidableEq

namespace UsageFault

/-- The fault in words. -/
def message : UsageFault → Bytes
  | missingPath => Bytes.utf8 "--config requires a path"
  | missingCommand => Bytes.utf8 "missing command"

end UsageFault

namespace Invocation

/-- What arguments ask for: of several settings files the last counts. -/
def ofArguments (arguments : List Argument) : Except UsageFault Invocation :=
  match (arguments.filterMap Argument.text?).dropWhile List.isEmpty with
  | [] => .error .missingCommand
  | command :: rest => .ok
    { command
      arguments := rest
      settingsPath := (arguments.filterMap Argument.settingsPath?).getLast?.getD []
      verbose := arguments.contains .verbose
      json := arguments.contains .json }

/-- What the words of a command line ask for. -/
def parse (words : List Bytes) : Except UsageFault Invocation :=
  match Argument.readAll words with
  | none => .error .missingPath
  | some arguments => ofArguments arguments

end Invocation

end ConsoleScript
