import ConsoleScript.Parsing.Statement
import ConsoleScript.Token.Lexing

/-! # Reading programs

`Parsing.read` reads every statement of a token list; the program it gives is usable even when there
are findings, with the erroneous statements left out. `Compilation.compile` is the way from a source
text to a program that may be run: the parser only sees token lists without illegal tokens, and
there is a program only if no finding is an error. -/

namespace ConsoleScript

/-- What reading a list of tokens into a program gives. -/
structure Parsing where
  /-- The program, without its erroneous statements. -/
  program : Program
  /-- The findings in the order in which they were made. -/
  findings : List Finding

namespace Parsing

/-- Reads all statements of a list of tokens, up to its end of input. -/
def read (tokens : List Token) : Parsing :=
  let start := Cursor.ofTokens tokens
  let stmts := start.skipSeparators.statements false
  { program := ⟨⟨start.peek.span.start, stmts.cursor.peek.span.stop⟩, stmts.value⟩
    findings := stmts.findings }

end Parsing

/-- A source text made ready to run. -/
structure Compilation where
  /-- What the lexer gave. -/
  lexing : Lexing
  /-- What the parser gave, absent if the lexer had findings. -/
  parsing? : Option Parsing

namespace Compilation

/-- Reads a source text; the parser is not tried on illegal tokens. -/
def compile (source file : Bytes) : Compilation :=
  let lexing := Lexing.read source file
  { lexing
    parsing? := if lexing.findings.isEmpty then some (Parsing.read lexing.tokens) else none }

/-- The findings of the lexer, or those of the parser if there are none. -/
def findings (compilation : Compilation) : List Finding :=
  match compilation.parsing? with
  | some parsing => parsing.findings
  | none => compilation.lexing.findings

/-- The program, if no finding is an error. -/
def program? (compilation : Compilation) : Option Program :=
  match compilation.parsing? with
  | some parsing => if Finding.anyError parsing.findings then none else some parsing.program
  | none => none

end Compilation

end ConsoleScript
