import ConsoleScript.Source.Position
import ConsoleScript.Text.Quoted
import ConsoleScript.Token.Kind

/-! # Tokens

A token is a kind, the text it was read from and the place where it stands. The lexeme of a line
break is its display form, a backslash and the letter n; the lexeme of the end of the source is
empty. -/

namespace ConsoleScript

/-- A token of the source. -/
structure Token where
  /-- What the token is. -/
  kind : TokenKind
  /-- The text of the token. -/
  lexeme : Bytes
  /-- Where the token stands. -/
  span : Span
  deriving DecidableEq, Repr, Inhabited

namespace Token

/-- The lexeme of a line break: a backslash and the letter n. -/
def newlineLexeme : Bytes :=
  [0x5c, 0x6e]

/-- What a reader sees behind the last token of a list: an end without a place. -/
def pastEnd : Token :=
  ⟨.endOfInput, [], .unset⟩

/-- How a message names a token that was found. -/
def description (token : Token) : Bytes :=
  match token.kind with
  | .endOfInput => Bytes.utf8 "end of input"
  | .newline => Bytes.utf8 "newline"
  | _ => token.lexeme

/-- Kind, quoted lexeme and beginning, separated by blanks. -/
def render (token : Token) : Bytes :=
  token.kind.label ++ 0x20 :: token.lexeme.quoted ++ 0x20 :: token.span.start.render

end Token

end ConsoleScript
