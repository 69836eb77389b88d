import ConsoleScript.Text.Bytes

/-! # Kinds of tokens

The closed set of token kinds, their display names, and the reserved words. Three reserved words
spell operators: `and`, `or` and `not` have the kinds of `&&`, `||` and `!`. -/

namespace ConsoleScript

/-- What a token is. -/
inductive TokenKind where
  /-- A piece of text that is no token of the language. -/
  | illegal
  /-- The end of the source. -/
  | endOfInput
  /-- A line break. -/
  | newline
  /-- The name of a variable. -/
  | name
  /-- A number literal. -/
  | number
  /-- A text literal, with its quotes. -/
  | text
  /-- The assignment sign. -/
  | assign
  /-- Addition or concatenation. -/
  | plus
  /-- Subtraction or negation. -/
  | minus
  /-- Multiplication. -/
  | star
  /-- Division. -/
  | slash
  /-- Remainder. -/
  | percent
  /-- Power. -/
  | caret
  /-- Logical negation. -/
  | bang
  /-- Equality. -/
  | equal
  /-- Inequality. -/
  | notEqual
  /-- Strictly less. -/
  | less
  /-- Less or equal. -/
  | lessEqual
  /-- Strictly greater. -/
  | greater
  /-- Greater or equal. -/
  | greaterEqual
  /-- Conjunction. -/
  | both
  /-- Disjunction. -/
  | either
  /-- An opening parenthesis. -/
  | leftParen
  /-- A closing parenthesis. -/
  | rightParen
  /-- An opening brace. -/
  | leftBrace
  /-- A closing brace. -/
  | rightBrace
  /-- A semicolon between statements. -/
  | semicolon
  /-- The word that opens a conditional. -/
  | ifWord
  /-- The word that adds a branch to a conditional. -/
  | elseifWord
  /-- The word that opens the last block of a conditional. -/
  | elseWord
  /-- The word that opens a loop. -/
  | whileWord
  /-- The word that opens a console statement. -/
  | consoleWord
  /-- The literal for truth. -/
  | trueWord
  /-- The literal for falsehood. -/
  | falseWord
  /-- The literal for the nil value. -/
  | nilWord
  deriving DecidableEq, Repr, Inhabited

namespace TokenKind

/-- All kinds in their fixed order, in which they are numbered from zero. -/
def all : List TokenKind :=
  [illegal, endOfInput, newline, name, number, text, assign, plus, minus, star, slash, percent,
    caret, bang, equal, notEqual, less, lessEqual, greater, greaterEqual, both, either, leftParen,
    rightParen, leftBrace, rightBrace, semicolon, ifWord, elseifWord, elseWord, whileWord,
    consoleWord, trueWord, falseWord, nilWord]

/-- The kind with the given number, if there is one. -/
def ofNumber? : Int → Option TokenKind
  | .ofNat index => all[index]?
  | .negSucc _ => none

/-- The display name of a kind: a word for a class of tokens, else the token itself. -/
def label : TokenKind → Bytes
  | illegal => Bytes.utf8 "ILLEGAL"
  | endOfInput => Bytes.utf8 "EOF"
  | newline => Bytes.utf8 "NEWLINE"
  | name => Bytes.utf8 "IDENT"
  | number => Bytes.utf8 "NUMBER"
  | text => Bytes.utf8 "STRING"
  | assign => Bytes.utf8 "="
  | plus => Bytes.utf8 "+"
  | minus => Bytes.utf8 "-"
  | star => Bytes.utf8 "*"
  | slash => Bytes.utf8 "/"
  | percent => Bytes.utf8 "%"
  | caret => Bytes.utf8 "^"
  | bang => Bytes.utf8 "!"
  | equal => Bytes.utf8 "=="
  | notEqual => Bytes.utf8 "!="
  | less => Bytes.utf8 "<"
  | lessEqual => Bytes.utf8 "<="
  | greater => Bytes.utf8 ">"
  | greaterEqual => Bytes.utf8 ">="
  | both => Bytes.utf8 "&&"
  | either => Bytes.utf8 "||"
  | leftParen => Bytes.utf8 "("
  | rightParen => Bytes.utf8 ")"
  | leftBrace => [0x7b]
  | rightBrace => [0x7d]
  | semicolon => Bytes.utf8 ";"
  | ifWord => Bytes.utf8 "if"
  | elseifWord => Bytes.utf8 "elseif"
  | elseWord => Bytes.utf8 "else"
  | whileWord => Bytes.utf8 "while"
  | consoleWord => Bytes.utf8 "console"
  | trueWord => Bytes.utf8 "true"
  | falseWord => Bytes.utf8 "false"
  | nilWord => Bytes.utf8 "nil"

/-- The display name for any number: a number that stands for no kind is shown itself. -/
def labelOfNumber (number : Int) : Bytes :=
  match ofNumber? number with
  | some kind => kind.label
  | none => Bytes.utf8 "Kind(" ++ Bytes.signedDecimal number ++ Bytes.utf8 ")"

/-- Whether a kind is one of the words of the language that are no operators. -/
def isKeyword : TokenKind → Bool
  | ifWord | elseifWord | elseWord | whileWord | consoleWord | trueWord | falseWord | nilWord =>
    true
  | _ => false

/-- Whether a kind has many spellings: names, numbers and texts. -/
def isLiteral : TokenKind → Bool
  | name | number | text => true
  | _ => false

/-- The reserved words with their kinds. -/
def reservedWords : List (Bytes × TokenKind) :=
  [(Bytes.utf8 "if", ifWord), (Bytes.utf8 "elseif", elseifWord), (Bytes.utf8 "else", elseWord),
    (Bytes.utf8 "while", whileWord), (Bytes.utf8 "console", consoleWord),
    (Bytes.utf8 "true", trueWord), (Bytes.utf8 "false", falseWord), (Bytes.utf8 "nil", nilWord),
    (Bytes.utf8 "and", both), (Bytes.utf8 "or", either), (Bytes.utf8 "not", bang)]

/-- The kind of a word: its reserved kind, or a name. -/
def ofWord (word : Bytes) : TokenKind :=
  (reservedWords.lookup word).getD name

end TokenKind

end ConsoleScript
