import ConsoleScript.Diagnostic
import ConsoleScript.Token.Basic

/-! # Moving through a list of tokens

A `Cursor` is what is left of a list of tokens, with the place where the last consumed token ended.
A parsing step gives a value, the cursor behind it and the findings made on the way. Steps only ever
drop tokens from the front, so the number of tokens left (`Cursor.size`) is the measure by which
parsing ends. -/

namespace ConsoleScript

/-- A place in a list of tokens. -/
structure Cursor where
  /-- The tokens that are left. -/
  rest : List Token
  /-- The end of the last consumed token; the beginning of the first one if none was consumed. -/
  last : Position
  deriving DecidableEq, Repr

namespace Cursor

/-- The cursor before a list of tokens. -/
def ofTokens (tokens : List Token) : Cursor :=
  ⟨tokens, (tokens.head?.getD Token.pastEnd).span.start⟩

/-- The number of tokens that are left. -/
def size (cursor : Cursor) : Nat :=
  cursor.rest.length

/-- The token at the cursor; behind the last one stands an end without a place. -/
def peek (cursor : Cursor) : Token :=
  cursor.rest.head?.getD Token.pastEnd

/-- The kind of the token at the cursor. -/
def kind (cursor : Cursor) : TokenKind :=
  cursor.peek.kind

/-- The cursor behind the token at it; behind the last token it stays. -/
def advance (cursor : Cursor) : Cursor :=
  match cursor.rest with
  | [] => cursor
  | token :: rest => ⟨rest, token.span.stop⟩

/-- The cursor behind all tokens at it whose kinds are skipped. -/
def skipWhile (skips : TokenKind → Bool) (cursor : Cursor) : Cursor :=
  go cursor.rest cursor.last
where
  /-- Skips tokens of a list, the last consumed one having ended at `last`. -/
  go : List Token → Position → Cursor
    | [], last => ⟨[], last⟩
    | token :: rest, last =>
      if skips token.kind then go rest token.span.stop else ⟨token :: rest, last⟩

/-- The cursor behind the line breaks at it. -/
def skipNewlines (cursor : Cursor) : Cursor :=
  cursor.skipWhile (· == .newline)

/-- Whether a kind separates statements. -/
def isSeparator (kind : TokenKind) : Bool :=
  kind == .newline || kind == .semicolon

/-- The cursor behind the separators at it. -/
def skipSeparators (cursor : Cursor) : Cursor :=
  cursor.skipWhile isSeparator

/-- Whether an error is left behind before a token of this kind: a statement starts with it, a block
ends with it, or the input does. -/
def isRestart (kind : TokenKind) : Bool :=
  kind == .endOfInput || kind == .rightBrace || kind == .ifWord || kind == .whileWord
    || kind == .consoleWord

/-- Leaves the remains of an erroneous statement: the cursor goes behind the next separator or
before the next token at which reading can start again, whichever comes first. -/
def synchronize (cursor : Cursor) : Cursor :=
  let stop := cursor.skipWhile fun kind => !isSeparator kind && !isRestart kind
  -- A separator still belongs to the erroneous statement, a restart does not.
  if isSeparator stop.kind then stop.advance else stop

@[simp] theorem advance_nil (last : Position) : advance ⟨[], last⟩ = ⟨[], last⟩ := rfl

@[simp] theorem advance_cons (token : Token) (rest : List Token) (last : Position) :
    advance ⟨token :: rest, last⟩ = ⟨rest, token.span.stop⟩ := rfl

@[simp] theorem size_mk (rest : List Token) (last : Position) :
    size ⟨rest, last⟩ = rest.length := rfl

theorem size_advance_le (cursor : Cursor) : cursor.advance.size ≤ cursor.size := by
  obtain ⟨rest, last⟩ := cursor
  cases rest <;> simp

theorem size_skipWhile_go_le (skips : TokenKind → Bool) (tokens : List Token) (last : Position) :
    (skipWhile.go skips tokens last).size ≤ tokens.length := by
  induction tokens generalizing last with
  | nil => simp [skipWhile.go]
  | cons token rest ih =>
    rw [skipWhile.go]
    split
    · exact Nat.le_succ_of_le (ih token.span.stop)
    · simp

theorem size_skipWhile_le (skips : TokenKind → Bool) (cursor : Cursor) :
    (cursor.skipWhile skips).size ≤ cursor.size :=
  size_skipWhile_go_le skips cursor.rest cursor.last

theorem size_skipNewlines_le (cursor : Cursor) : cursor.skipNewlines.size ≤ cursor.size :=
  size_skipWhile_le _ cursor

theorem size_skipSeparators_le (cursor : Cursor) : cursor.skipSeparators.size ≤ cursor.size :=
  size_skipWhile_le _ cursor

theorem size_synchronize_le (cursor : Cursor) : cursor.synchronize.size ≤ cursor.size := by
  unfold synchronize
  dsimp only
  split
  · exact Nat.le_trans (size_advance_le _) (size_skipWhile_le _ cursor)
  · exact size_skipWhile_le _ cursor

end Cursor

/-- What a parsing step gives. -/
structure Parsed (α : Type) where
  /-- What was read. -/
  value : α
  /-- The cursor behind it. -/
  cursor : Cursor
  /-- The findings made while reading. -/
  findings : List Finding

namespace Cursor

/-- Steps over a token of the given kind, or reports that it is missing and stays. -/
def expect (wanted : TokenKind) (cursor : Cursor) : Parsed Unit :=
  if cursor.kind = wanted then ⟨(), cursor.advance, []⟩
  else
    ⟨(), cursor, [⟨.expectedToken wanted cursor.peek.description, cursor.peek.span⟩]⟩

theorem size_expect_le (wanted : TokenKind) (cursor : Cursor) :
    (cursor.expect wanted).cursor.size ≤ cursor.size := by
  unfold expect
  split
  · exact size_advance_le cursor
  · exact Nat.le_refl _

end Cursor

end ConsoleScript
