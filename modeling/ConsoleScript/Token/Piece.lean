import ConsoleScript.Diagnostic
import ConsoleScript.Text.Character
import ConsoleScript.Text.Letter
import ConsoleScript.Token.Basic

/-! # Pieces of source text

Reading a source text cuts it into pieces, each with at least one byte: gaps (blanks and comments),
marks (the tokens of the language) and flaws (text that is no token). Cutting knows nothing of
positions, and no byte is lost: the pieces of a text concatenate to it (`flatMap_text_pieces`).

* **`Piece.first`** — the piece at the front of a text that is not empty;
* **`pieces`** — all pieces of a text.

The piece at the front is always as long as its class allows: a word takes every name character, a
number takes every digit, a text literal pairs its quotes from left to right. -/

namespace ConsoleScript

/-! ## Classes of bytes -/

namespace Bytes

/-- The blanks between tokens: space, tab and carriage return. -/
def isSpacing (byte : UInt8) : Bool :=
  byte == 0x20 || byte == 0x09 || byte == 0x0d

/-- A decimal digit. -/
def isDigit (byte : UInt8) : Bool :=
  0x30 ≤ byte && byte ≤ 0x39

/-- An ASCII letter or the underscore. -/
def isPlainLetter (byte : UInt8) : Bool :=
  byte == 0x5f || (0x61 ≤ byte && byte ≤ 0x7a) || (0x41 ≤ byte && byte ≤ 0x5a)

/-- The width in bytes of the letter or underscore at the front of a text, zero if there is none. -/
def letterWidth : Bytes → Nat
  | [] => 0
  | lead :: rest =>
    if isPlainLetter lead then 1
    else if lead < 0x80 then 0
    else match scalar? (lead :: rest) with
      | some (scalar, width) => if Character.isLetter scalar then width else 0
      | none => 0

/-- Whether a text starts like a name. -/
def startsName (text : Bytes) : Bool :=
  0 < letterWidth text

/-- The width in bytes of the name character (letter, underscore or digit) at the front of a text,
zero if there is none. -/
def nameCharWidth : Bytes → Nat
  | [] => 0
  | lead :: rest => if isDigit lead then 1 else letterWidth (lead :: rest)

/-- The longest run of name characters at the front of a text. -/
def nameRun : Bytes → Bytes
  | [] => []
  | lead :: rest =>
    match nameCharWidth (lead :: rest) with
    | 0 => []
    | width + 1 => lead :: rest.take width ++ nameRun (rest.drop width)
termination_by text => text.length
decreasing_by simp only [List.length_drop, List.length_cons]; omega

/-- The digits at the front of a text, then a point with the digits behind it, if there is one. -/
def numeral (text : Bytes) : Bytes :=
  let whole := text.takeWhile isDigit
  match text.dropWhile isDigit with
  | 0x2e :: rest => whole ++ 0x2e :: rest.takeWhile isDigit
  | _ => whole

/-- Whether a number literal cannot end before `text`: a letter or a further point follows. -/
def runsOn (text : Bytes) : Bool :=
  startsName text || text.head? == some 0x2e

/-- The part of a malformed number behind its numeral, taken byte by byte as long as a name
character or a point stands at the front. -/
def numeralTail : Bytes → Bytes
  | [] => []
  | lead :: rest =>
    if 0 < nameCharWidth (lead :: rest) ∨ lead = 0x2e then lead :: numeralTail rest else []

/-- The part of a text literal behind its opening quote, up to and with the closing quote, and
whether there is a closing quote on the line. Two quotes in a row are part of the text. -/
def quotedTail : Bytes → Bytes × Bool
  | [] => ([], false)
  | 0x22 :: 0x22 :: rest => (0x22 :: 0x22 :: (quotedTail rest).1, (quotedTail rest).2)
  | 0x22 :: _ => ([0x22], true)
  | byte :: rest =>
    if byte = 0x0a then ([], false) else (byte :: (quotedTail rest).1, (quotedTail rest).2)

theorem nameRun_isPrefix (text : Bytes) : nameRun text <+: text := by
  induction text using nameRun.induct with
  | case1 => simp [nameRun]
  | case2 lead rest no_width => simp [nameRun, no_width]
  | case3 lead rest width has_width ih =>
    rw [nameRun, has_width]
    obtain ⟨behind, parts⟩ := ih
    exact ⟨behind, by simp [parts]⟩

theorem numeral_isPrefix (text : Bytes) : numeral text <+: text := by
  unfold numeral
  split
  · rename_i rest behind
    have whole : text = text.takeWhile isDigit ++ 0x2e :: rest := by
      rw [← behind, List.takeWhile_append_dropWhile]
    obtain ⟨tail, parts⟩ := List.takeWhile_prefix (l := rest) isDigit
    refine ⟨tail, ?_⟩
    conv => rhs; rw [whole, ← parts]
    simp
  · exact List.takeWhile_prefix isDigit

theorem numeralTail_isPrefix (text : Bytes) : numeralTail text <+: text := by
  induction text with
  | nil => simp [numeralTail]
  | cons lead rest ih =>
    unfold numeralTail
    split
    · exact List.cons_prefix_cons.mpr ⟨rfl, ih⟩
    · exact List.nil_prefix

theorem quotedTail_isPrefix (text : Bytes) : (quotedTail text).1 <+: text := by
  induction text using quotedTail.induct with
  | case1 => simp [quotedTail]
  | case2 rest ih =>
    rw [quotedTail]
    exact List.cons_prefix_cons.mpr ⟨rfl, List.cons_prefix_cons.mpr ⟨rfl, ih⟩⟩
  | case3 rest not_doubled =>
    rw [quotedTail]
    · exact List.cons_prefix_cons.mpr ⟨rfl, List.nil_prefix⟩
    · exact not_doubled
  | case4 rest not_quote =>
    rw [quotedTail]
    · simp
    all_goals simp
  | case5 byte rest not_doubled not_quote not_newline ih =>
    rw [quotedTail]
    · simpa [not_newline] using ih
    all_goals assumption

theorem nameRun_ne_nil {lead : UInt8} {rest : Bytes} (starts : startsName (lead :: rest) = true) :
    nameRun (lead :: rest) ≠ [] := by
  have wide : 0 < nameCharWidth (lead :: rest) := by
    simp only [nameCharWidth]
    split
    · exact Nat.one_pos
    · simpa [startsName] using starts
  rw [nameRun]
  split
  · omega
  · simp

theorem numeral_ne_nil {lead : UInt8} {rest : Bytes} (starts : isDigit lead = true ∨ lead = 0x2e) :
    numeral (lead :: rest) ≠ [] := by
  cases digit : isDigit lead with
  | true =>
    unfold numeral
    split <;> simp [digit]
  | false =>
    have point : lead = 0x2e := by simpa [digit] using starts
    simp [numeral, point, isDigit]

end Bytes

/-! ## Operators and delimiters -/

namespace TokenKind

/-- The operators that are spelled with two bytes. -/
def ofPair? : UInt8 → UInt8 → Option TokenKind
  | 0x21, 0x3d => some notEqual
  | 0x3d, 0x3d => some equal
  | 0x3c, 0x3d => some lessEqual
  | 0x3e, 0x3d => some greaterEqual
  | 0x26, 0x26 => some both
  | 0x7c, 0x7c => some either
  | _, _ => none

/-- The operators and delimiters that are spelled with one byte. -/
def ofByte? : UInt8 → Option TokenKind
  | 0x28 => some leftParen
  | 0x29 => some rightParen
  | 0x7b => some leftBrace
  | 0x7d => some rightBrace
  | 0x3b => some semicolon
  | 0x2b => some plus
  | 0x2d => some minus
  | 0x2a => some star
  | 0x2f => some slash
  | 0x25 => some percent
  | 0x5e => some caret
  | 0x21 => some bang
  | 0x3d => some assign
  | 0x3c => some less
  | 0x3e => some greater
  | _ => none

end TokenKind

/-! ## Pieces -/

/-- Why a piece is no token. -/
inductive Flaw where
  /-- A text literal without a closing quote on its line. -/
  | unterminatedText
  /-- A number literal that runs on into letters or further points. -/
  | malformedNumber
  /-- A character that no token starts with. -/
  | unexpectedCharacter
  deriving DecidableEq, Repr

/-- What a piece of source text is. -/
inductive PieceClass where
  /-- Blanks or a comment between tokens. -/
  | gap
  /-- A token of the language. -/
  | mark (kind : TokenKind)
  /-- Text that is no token. -/
  | flaw (reason : Flaw)
  deriving DecidableEq, Repr

/-- A piece of source text. -/
structure Piece where
  /-- What the piece is. -/
  sort : PieceClass
  /-- The bytes of the piece. -/
  text : Bytes
  deriving DecidableEq, Repr

namespace Piece

/-- The text literal whose opening quote stands before `rest`. -/
def ofQuoted (rest : Bytes) : Piece :=
  let tail := Bytes.quotedTail rest
  ⟨if tail.2 then .mark .text else .flaw .unterminatedText, 0x22 :: tail.1⟩

/-- The number literal at the front of a text that starts with a numeral. -/
def ofNumeral (text : Bytes) : Piece :=
  let numeral := Bytes.numeral text
  let rest := text.drop numeral.length
  if Bytes.runsOn rest then ⟨.flaw .malformedNumber, numeral ++ Bytes.numeralTail rest⟩
  else ⟨.mark .number, numeral⟩

/-- The name or reserved word at the front of a text that starts like a name. -/
def ofName (text : Bytes) : Piece :=
  let word := Bytes.nameRun text
  ⟨.mark (.ofWord word), word⟩

/-- The operator, delimiter or unexpected character at the front of the text `lead :: rest`. An
unexpected character takes the continuation bytes behind it along. -/
def ofSign (lead : UInt8) (rest : Bytes) : Piece :=
  match rest.head?.bind (TokenKind.ofPair? lead) with
  | some kind => ⟨.mark kind, lead :: rest.take 1⟩
  | none =>
    match TokenKind.ofByte? lead with
    | some kind => ⟨.mark kind, [lead]⟩
    | none =>
      ⟨.flaw .unexpectedCharacter, lead :: if lead < 0x80 then [] else rest.takeWhile Bytes.isTrail⟩

/-- The piece at the front of the text `lead :: rest`. -/
def first (lead : UInt8) (rest : Bytes) : Piece :=
  if Bytes.isSpacing lead then ⟨.gap, [lead]⟩
  else if lead = 0x23 ∨ (lead = 0x2f ∧ rest.head? = some 0x2f) then
    ⟨.gap, lead :: rest.takeWhile (· ≠ 0x0a)⟩
  else if lead = 0x0a then ⟨.mark .newline, [lead]⟩
  else if lead = 0x22 then ofQuoted rest
  else if Bytes.isDigit lead ∨ (lead = 0x2e ∧ (rest.head?.any Bytes.isDigit) = true) then
    ofNumeral (lead :: rest)
  else if Bytes.startsName (lead :: rest) then ofName (lead :: rest)
  else ofSign lead rest

/-- The kind of token that a piece makes, if it makes one. -/
def kind? (piece : Piece) : Option TokenKind :=
  match piece.sort with
  | .gap => none
  | .mark kind => some kind
  | .flaw _ => some .illegal

/-- The lexeme of the token that a piece makes. -/
def lexeme (piece : Piece) : Bytes :=
  if piece.sort = .mark .newline then Token.newlineLexeme else piece.text

/-- What there is to complain about a piece, if anything. -/
def complaint? (piece : Piece) : Option Complaint :=
  match piece.sort with
  | .flaw .unterminatedText => some .unterminatedText
  | .flaw .malformedNumber => some (.malformedNumber piece.text)
  | .flaw .unexpectedCharacter => some (.unexpectedCharacter piece.text)
  | _ => none

/-- The piece at the front of a text is the front of the text. -/
theorem text_first_isPrefix (lead : UInt8) (rest : Bytes) :
    (first lead rest).text <+: lead :: rest := by
  unfold first
  split
  · exact List.cons_prefix_cons.mpr ⟨rfl, List.nil_prefix⟩
  split
  · exact List.cons_prefix_cons.mpr ⟨rfl, List.takeWhile_prefix _⟩
  split
  · exact List.cons_prefix_cons.mpr ⟨rfl, List.nil_prefix⟩
  split
  · rename_i quote
    exact List.cons_prefix_cons.mpr ⟨quote.symm, Bytes.quotedTail_isPrefix rest⟩
  split
  · have whole := Bytes.numeral_isPrefix (lead :: rest)
    simp only [ofNumeral]
    split
    · obtain ⟨more, tail⟩ := Bytes.numeralTail_isPrefix
        ((lead :: rest).drop (Bytes.numeral (lead :: rest)).length)
      refine ⟨more, ?_⟩
      rw [List.append_assoc, tail]
      exact List.prefix_iff_eq_append.mp whole
    · exact whole
  split
  · exact Bytes.nameRun_isPrefix (lead :: rest)
  · unfold ofSign
    split
    · exact List.cons_prefix_cons.mpr ⟨rfl, List.take_prefix 1 rest⟩
    · split
      · exact List.cons_prefix_cons.mpr ⟨rfl, List.nil_prefix⟩
      · refine List.cons_prefix_cons.mpr ⟨rfl, ?_⟩
        split
        · exact List.nil_prefix
        · exact List.takeWhile_prefix _

/-- The piece at the front of a text is not empty. -/
theorem text_first_ne_nil (lead : UInt8) (rest : Bytes) : (first lead rest).text ≠ [] := by
  unfold first
  split
  · simp
  split
  · simp
  split
  · simp
  split
  · simp [ofQuoted]
  split
  · rename_i starts
    have not_empty : Bytes.numeral (lead :: rest) ≠ [] :=
      Bytes.numeral_ne_nil (starts.imp_right And.left)
    simp only [ofNumeral]
    split <;> simp [not_empty]
  split
  · rename_i starts
    exact Bytes.nameRun_ne_nil starts
  · unfold ofSign
    split
    · simp
    · split <;> simp

theorem text_first_append_drop (lead : UInt8) (rest : Bytes) :
    (first lead rest).text ++ rest.drop ((first lead rest).text.length - 1) = lead :: rest := by
  obtain ⟨behind, whole⟩ := text_first_isPrefix lead rest
  cases text : (first lead rest).text with
  | nil => exact absurd text (text_first_ne_nil lead rest)
  | cons head tail =>
    rw [text, List.cons_append, List.cons.injEq] at whole
    rw [List.cons_append, List.cons.injEq, ← whole.2]
    exact ⟨whole.1, by simp⟩

end Piece

/-- The pieces of a source text, in order. -/
def pieces : Bytes → List Piece
  | [] => []
  | lead :: rest =>
    Piece.first lead rest :: pieces (rest.drop ((Piece.first lead rest).text.length - 1))
termination_by source => source.length
decreasing_by simp only [List.length_drop, List.length_cons]; omega

@[simp] theorem pieces_nil : pieces [] = [] := by
  rw [pieces]

/-- No byte is lost in cutting: the pieces of a source text concatenate to it. -/
theorem flatMap_text_pieces (source : Bytes) : (pieces source).flatMap Piece.text = source := by
  induction source using pieces.induct with
  | case1 => simp
  | case2 lead rest ih =>
    rw [pieces, List.flatMap_cons, ih]
    exact Piece.text_first_append_drop lead rest

end ConsoleScript
