import ConsoleScript.Token.Piece

/-! # The tokens of a source text

Laying the pieces of a source text out from its beginning gives each a span. The tokens are the
pieces that are no gaps, followed by one token for the end of the source; the findings are the
complaints about the flawed pieces, so there is one finding for each illegal token, in the same
order and at the same place. -/

namespace ConsoleScript

/-- A piece of source text with its place. -/
structure PlacedPiece where
  /-- The piece. -/
  piece : Piece
  /-- Where it stands. -/
  span : Span
  deriving DecidableEq, Repr

namespace PlacedPiece

/-- The token that a placed piece makes, if it makes one. -/
def token? (placed : PlacedPiece) : Option Token :=
  placed.piece.kind?.map fun kind => ⟨kind, placed.piece.lexeme, placed.span⟩

/-- The finding about a placed piece, if there is one. -/
def finding? (placed : PlacedPiece) : Option Finding :=
  placed.piece.complaint?.map fun complaint => ⟨complaint, placed.span⟩

end PlacedPiece

/-- Pieces laid out one behind the other, the first at `start`. -/
def layOut (start : Position) : List Piece → List PlacedPiece
  | [] => []
  | piece :: rest =>
    ⟨piece, ⟨start, start.after piece.text⟩⟩ :: layOut (start.after piece.text) rest

/-- What reading a source text into tokens gives. -/
structure Lexing where
  /-- The tokens, with exactly one end of input, the last. -/
  tokens : List Token
  /-- The findings about illegal tokens, in source order. -/
  findings : List Finding
  deriving DecidableEq, Repr

namespace Lexing

/-- Reads a text whose first byte stands at `start`. -/
def readFrom (start : Position) (source : Bytes) : Lexing :=
  let placed := layOut start (pieces source)
  let stop := start.after source
  { tokens := placed.filterMap PlacedPiece.token? ++ [⟨.endOfInput, [], ⟨stop, stop⟩⟩]
    findings := placed.filterMap PlacedPiece.finding? }

/-- Reads a source file. -/
def read (source file : Bytes) : Lexing :=
  readFrom (.start file) source

end Lexing

@[simp] theorem layOut_nil (start : Position) : layOut start [] = [] := rfl

@[simp] theorem layOut_cons (start : Position) (piece : Piece) (rest : List Piece) :
    layOut start (piece :: rest)
      = ⟨piece, ⟨start, start.after piece.text⟩⟩ :: layOut (start.after piece.text) rest := rfl

/-- Laying out two lists of pieces puts the second behind the text of the first. -/
theorem layOut_append (start : Position) (first second : List Piece) :
    layOut start (first ++ second)
      = layOut start first ++ layOut (start.after (first.flatMap Piece.text)) second := by
  induction first generalizing start with
  | nil => rfl
  | cons piece rest ih => simp [ih]

end ConsoleScript
