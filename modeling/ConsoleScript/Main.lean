import ConsoleScript.CommandLine.Execution

/-! # The program

Reads the arguments, the environment and the files that they name, carries out the command line, and
writes what that gives. Only a dialogue is carried on here step by step, since its input arrives
while it runs. -/

namespace ConsoleScript

namespace Terminal

/-- More rounds than any loop can make. -/
def endless : Nat :=
  Nat.pow 2 64

/-- The bytes as the string that they encode. -/
def stringOf (text : Bytes) : String :=
  (String.fromUTF8? ⟨text.toArray⟩).getD ""

/-- Why a file could not be opened, in words. -/
def reasonOf : IO.Error → String
  | .alreadyExists _ _ reason | .interrupted _ _ reason | .noFileOrDirectory _ _ reason
  | .invalidArgument _ _ reason | .permissionDenied _ _ reason | .resourceExhausted _ _ reason
  | .inappropriateType _ _ reason | .noSuchThing _ _ reason | .otherError _ reason
  | .resourceBusy _ reason | .resourceVanished _ reason | .unsupportedOperation _ reason
  | .hardwareFault _ reason | .unsatisfiedConstraints _ reason | .illegalOperation _ reason
  | .protocolError _ reason | .timeExpired _ reason | .userError reason => reason
  | .unexpectedEof => "unexpected end of file"

/-- Looks at the file with a path. -/
def viewFile (path : Bytes) : IO FileView := do
  try
    let content ← IO.FS.readBinFile (stringOf path)
    return .content content.toList
  catch
    | .inappropriateType _ 21 _ => return .directory
    | .inappropriateType .. => return .closed .notDirectory
    | .noFileOrDirectory .. => return .closed .missing
    | fault => return .closed (.other (Bytes.utf8 (reasonOf fault)))

/-- The host of a command line: the environment, and the files that the command line may look at. -/
def hostFor (words : List Bytes) : IO Host := do
  let home := (← IO.getEnv "HOME").getD ""
  let named := (← IO.getEnv "XEN_CONFIG").getD ""
  let blind : Host :=
    { home := if home.isEmpty then none else some (Bytes.utf8 home)
      settingsPath := Bytes.utf8 named
      look := fun _ => .closed .missing }
  let paths := match Invocation.parse words with
    | .ok invocation => invocation.paths blind
    | .error _ => []
  let views ← paths.mapM fun path => return (path, ← viewFile path)
  return { blind with look := fun path => (views.lookup path).getD (.closed .missing) }

/-- Writes bytes to a stream at once. -/
def put (stream : IO.FS.Stream) (text : Bytes) : IO Unit := do
  unless text.isEmpty do
    stream.write ⟨text.toArray⟩
    stream.flush

/-- Writes emissions, with the log entries that are shown at a level. -/
def emit (threshold : LogLevel) (emissions : List Emission) : IO Unit := do
  let out ← IO.getStdout
  let err ← IO.getStderr
  for emission in emissions do
    put out (Emission.outText [emission])
    put err (Emission.diagnosticText threshold [emission])

/-- Reads the next input behind the unfinished line `buffer`; there is none at the end. -/
partial def nextInput (stream : IO.FS.Stream) (buffer : Bytes) : IO (Option Input) := do
  let bytes ← stream.read 1
  match bytes.toList with
  | [] => return Input.last? buffer
  | byte :: _ =>
    match Input.accept buffer byte with
    | (_, some input) => return some input
    | (rest, none) => nextInput stream rest

/-- Carries a dialogue on to its end. The prompt is only shown to a user at a terminal. -/
partial def carryOn (threshold : LogLevel) (settings : Settings) (session : Session) : IO Unit := do
  let input ← IO.getStdin
  if ← input.isTty then
    put (← IO.getStdout) (Dialogue.prompt settings.style settings.prompt session)
  match ← nextInput input [] with
  | none => emit threshold Dialogue.farewell
  | some entered =>
    match Dialogue.answer endless settings.style session entered with
    | none => return ()
    | some reply =>
      emit threshold reply.emissions
      if reply.alive then carryOn threshold settings reply.session

/-- Carries out a command line and gives the exit code. -/
def perform (words : List Bytes) : IO UInt32 := do
  let host ← hostFor words
  match Opening.ofWords endless host words with
  | none => return 1
  | some (.finished threshold execution) =>
    emit threshold execution.emissions
    return execution.exitCode.toUInt32
  | some (.dialogue threshold settings emissions) =>
    emit threshold emissions
    carryOn threshold settings .fresh
    return 0

end Terminal

end ConsoleScript

/-- Carries out the command line. -/
def main (arguments : List String) : IO UInt32 :=
  ConsoleScript.Terminal.perform (arguments.map ConsoleScript.Bytes.utf8)
