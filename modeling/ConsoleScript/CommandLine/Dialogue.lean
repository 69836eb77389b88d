import ConsoleScript.Session

/-! # Dialogues

A dialogue is a session whose lines come from the standard input: a greeting, an answer to each
input, and an empty line at the end of the input. An interrupt drops what was typed: an unfinished
chunk without a word, and otherwise with a remark on how to leave. -/

namespace ConsoleScript

/-- Something that a user enters. -/
inductive Input where
  /-- A line, without its end. -/
  | line (text : Bytes)
  /-- An interrupt. -/
  | interrupt
  deriving DecidableEq

namespace Input

/-- Takes a byte behind the unfinished line `buffer`: the unfinished line afterwards, and the input
that the byte completes. -/
def accept (buffer : Bytes) (byte : UInt8) : Bytes × Option Input :=
  if byte = 0x03 then ([], some interrupt)
  else if byte = 0x0a ∨ byte = 0x0d then ([], some (line buffer))
  else (buffer ++ [byte], none)

/-- The line that the end of the input completes. -/
def last? (buffer : Bytes) : Option Input :=
  if buffer = [] then none else some (line buffer)

/-- The inputs in a text behind the unfinished line `buffer`. -/
def readAll (buffer : Bytes) : Bytes → List Input
  | [] => (last? buffer).toList
  | byte :: rest =>
    let (next, input?) := accept buffer byte
    input?.toList ++ readAll next rest

end Input

namespace Dialogue

/-- The greeting. -/
def greeting (style : SessionStyle) : Bytes :=
  style.paint .boldCyan (Bytes.utf8 "xen REPL") ++ 0x20
    :: style.paint .gray (Bytes.utf8
      "(type 'exit' or Ctrl+D to quit, ':env' to list variables, ':reset' to clear them)")
    ++ Bytes.utf8 "\n\n"

/-- The remark on how to leave. -/
def remark (style : SessionStyle) : Bytes :=
  0x0a :: style.paint .gray (Bytes.utf8 "(use 'exit' or Ctrl+D to quit)") ++ [0x0a]

/-- What is written at the end of the input. -/
def farewell : List Emission :=
  [.out [0x0a]]

/-- What is shown before a line. -/
def prompt (style : SessionStyle) (text : Bytes) (session : Session) : Bytes :=
  if session.isPending then style.paint .gray (Bytes.utf8 "...   ") else style.paint .green text

/-- The reply to an input. There is none if a loop needs more than `fuel` rounds. -/
def answer (fuel : Nat) (style : SessionStyle) (session : Session) : Input → Option Reply
  | .line text => session.feed fuel style text
  | .interrupt =>
    if session.isPending then some ⟨session.cancel, [], true⟩
    else some ⟨session, [.out (remark style)], true⟩

/-- What is written in a dialogue behind the greeting. -/
def converse (fuel : Nat) (style : SessionStyle) (session : Session) :
    List Input → Option (List Emission)
  | [] => some farewell
  | input :: rest => do
    let reply ← answer fuel style session input
    if reply.alive then
      let later ← converse fuel style reply.session rest
      return reply.emissions ++ later
    else return reply.emissions

end Dialogue

end ConsoleScript
