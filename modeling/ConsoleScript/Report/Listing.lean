import ConsoleScript.Parsing.Program
import ConsoleScript.Report.TreeData

/-! # Listings of tokens and trees

The reports on a source file: its tokens as a table, its tokens as JSON, its tree as JSON. -/

namespace ConsoleScript

namespace Token

/-- A token as a line of a table: kind, lexeme, line and column. -/
def tableLine (token : Token) : Bytes :=
  token.kind.label.padTo 12 ++ 0x20 :: token.lexeme.padTo 20 ++ 0x20
    :: Bytes.signedDecimal token.span.start.line ++ 0x3a
    :: Bytes.signedDecimal token.span.start.column

/-- Tokens as a table. -/
def table (tokens : List Token) : Bytes :=
  Bytes.unlines (tokens.map tableLine)

/-- A token as data. -/
def data (token : Token) : Data :=
  .record [("kind", .text token.kind.label), ("lexeme", .text token.lexeme),
    ("line", .integer token.span.start.line), ("column", .integer token.span.start.column),
    ("offset", .integer token.span.start.offset)]

end Token

namespace Finding

/-- A finding as data, the hint only if there is one. -/
def data (finding : Finding) : Data :=
  let diagnostic := finding.diagnostic
  .record <|
    [("code", .text diagnostic.code), ("column", .integer diagnostic.span.start.column)]
      ++ (if diagnostic.hint.isEmpty then [] else [("hint", .text diagnostic.hint)])
      ++ [("line", .integer diagnostic.span.start.line), ("message", .text diagnostic.message),
        ("offset", .integer diagnostic.span.start.offset),
        ("severity", .text diagnostic.severity.label)]

end Finding

namespace Lexing

/-- Tokens and findings as data. -/
def data (lexing : Lexing) : Data :=
  .record [("diagnostics", .list (lexing.findings.map Finding.data)),
    ("tokens", .list (lexing.tokens.map Token.data))]

end Lexing

/-- A source file read as far as it goes: the parser also sees illegal tokens. -/
structure Analysis where
  /-- The program, without its erroneous statements. -/
  program : Program
  /-- The findings of the lexer, then those of the parser. -/
  findings : List Finding

namespace Analysis

/-- Reads a source file as far as it goes. -/
def analyze (source file : Bytes) : Analysis :=
  let lexing := Lexing.read source file
  let parsing := Parsing.read lexing.tokens
  { program := parsing.program
    findings := lexing.findings ++ parsing.findings }

/-- Tree and findings as data. -/
def data (analysis : Analysis) : Data :=
  .record [("ast", analysis.program.data),
    ("diagnostics", .list (analysis.findings.map Finding.data))]

end Analysis

end ConsoleScript
