import ConsoleScript.Proofs.LineCutting
import ConsoleScript.Proofs.SourcePositions

/-! # Reading line by line

Where a text is cut at a newline, its tokens are those of the two parts, and so are the findings:
nothing on one line has an effect on another.

* **`Position.shift`** — a position that many bytes and lines further on, in the same column;
* **`Lexing.readFrom_shift`** — what is read from a text moves with the text;
* **`Lexing.readFrom_newline`** — what is read around a newline, the second part where it stands;
* **`Position.start_after_newline`** — behind a newline the second part stands as at the beginning,
  shifted by the first part and the newline. -/

namespace ConsoleScript

/-! ## Moving on -/

/-- The position that many bytes and lines further on, in the same column. -/
def Position.shift (bytes lines : Int) (position : Position) : Position :=
  { position with offset := position.offset + bytes, line := position.line + lines }

/-- A span with both ends moved on. -/
def Span.shift (bytes lines : Int) (span : Span) : Span :=
  ⟨span.start.shift bytes lines, span.stop.shift bytes lines⟩

/-- A token moved on. -/
def Token.shift (bytes lines : Int) (token : Token) : Token :=
  { token with span := token.span.shift bytes lines }

/-- A finding about the place moved on. -/
def Finding.shift (bytes lines : Int) (finding : Finding) : Finding :=
  { finding with span := finding.span.shift bytes lines }

/-- A placed piece moved on. -/
def PlacedPiece.shift (bytes lines : Int) (placed : PlacedPiece) : PlacedPiece :=
  { placed with span := placed.span.shift bytes lines }

variable (bytes lines : Int)

namespace Position

theorem step_shift (position : Position) (byte : UInt8) :
    (position.shift bytes lines).step byte = (position.step byte).shift bytes lines := by
  unfold step shift
  split
  · simp only [Position.mk.injEq, true_and, and_true]
    omega
  · simp only [Position.mk.injEq, true_and, and_true]
    omega

/-- Reading a text leads from a position moved on to where it leads otherwise, moved on. -/
theorem after_shift (position : Position) (text : Bytes) :
    (position.shift bytes lines).after text = (position.after text).shift bytes lines := by
  induction text generalizing position with
  | nil => rfl
  | cons byte text ih => rw [after_cons, after_cons, step_shift, ih]

/-- Behind a newline stands the beginning of the file, shifted by the text and the newline. -/
theorem start_after_newline (file front : Bytes) :
    (start file).after (front ++ [0x0a])
      = (start file).shift (front.length + 1) (1 + front.count 0x0a) := by
  rw [after_append, start_after]
  -- A newline leads to the first column, whatever the text before it was.
  simp only [after_cons, after_nil, step, if_true, shift, start, Position.mk.injEq, true_and,
    and_true]
  omega

end Position

/-! ## What is read moves with the text -/

/-- Pieces that are laid out from a position moved on are moved on. -/
theorem layOut_shift (start : Position) (parts : List Piece) :
    layOut (start.shift bytes lines) parts
      = (layOut start parts).map (PlacedPiece.shift bytes lines) := by
  induction parts generalizing start with
  | nil => rfl
  | cons piece parts ih =>
    rw [layOut_cons, layOut_cons, Position.after_shift, ih]
    rfl

theorem PlacedPiece.token?_shift (placed : PlacedPiece) :
    (placed.shift bytes lines).token? = placed.token?.map (Token.shift bytes lines) := by
  rw [token?, token?, Option.map_map]
  rfl

theorem PlacedPiece.finding?_shift (placed : PlacedPiece) :
    (placed.shift bytes lines).finding? = placed.finding?.map (Finding.shift bytes lines) := by
  rw [finding?, finding?, Option.map_map]
  rfl

namespace Lexing

/-- What is read from a text that stands further on is moved on. -/
theorem readFrom_shift (start : Position) (source : Bytes) :
    (readFrom (start.shift bytes lines) source).tokens
        = (readFrom start source).tokens.map (Token.shift bytes lines) ∧
      (readFrom (start.shift bytes lines) source).findings
        = (readFrom start source).findings.map (Finding.shift bytes lines) := by
  have token : PlacedPiece.token? ∘ PlacedPiece.shift bytes lines
      = fun placed => placed.token?.map (Token.shift bytes lines) :=
    funext (PlacedPiece.token?_shift bytes lines)
  have finding : PlacedPiece.finding? ∘ PlacedPiece.shift bytes lines
      = fun placed => placed.finding?.map (Finding.shift bytes lines) :=
    funext (PlacedPiece.finding?_shift bytes lines)
  constructor
  · simp only [readFrom, layOut_shift, Position.after_shift, List.filterMap_map, token,
      List.map_append, List.map_filterMap]
    rfl
  · simp only [readFrom, layOut_shift, List.filterMap_map, finding, List.map_filterMap]

/-- What is read around a newline: the tokens before it, the newline and the tokens behind it. -/
theorem readFrom_newline (start : Position) (front back : Bytes) :
    (readFrom start (front ++ 0x0a :: back)).tokens
        = marks start front
          ++ ⟨.newline, Token.newlineLexeme, ⟨start.after front, start.after (front ++ [0x0a])⟩⟩
          :: (readFrom (start.after (front ++ [0x0a])) back).tokens ∧
      (readFrom start (front ++ 0x0a :: back)).findings
        = (readFrom start front).findings
          ++ (readFrom (start.after (front ++ [0x0a])) back).findings := by
  have stop : start.after (front ++ 0x0a :: back)
      = (start.after (front ++ [0x0a])).after back := by
    rw [← Position.after_append, List.append_assoc, List.singleton_append]
  have behind : (start.after front).after [0x0a] = start.after (front ++ [0x0a]) := by
    rw [Position.after_append]
  have placed : layOut start (pieces (front ++ 0x0a :: back)) = layOut start (pieces front)
      ++ ⟨⟨.mark .newline, [0x0a]⟩, ⟨start.after front, start.after (front ++ [0x0a])⟩⟩
      :: layOut (start.after (front ++ [0x0a])) (pieces back) := by
    rw [pieces_newline, layOut_append, flatMap_text_pieces, layOut_cons, behind]
  constructor
  · simp only [readFrom, placed, stop, List.filterMap_append, List.append_assoc]
    rfl
  · simp only [readFrom, placed, List.filterMap_append]
    rfl

end Lexing

/-- **A text is read line by line.** Where a text is cut at a newline, its tokens are those of the
first part without the end of input, the newline, and those of the second part, moved on by the
bytes and lines before them; and the findings are those of the first part and those of the second,
moved on in the same way. -/
theorem lexing_splits_at_newline (front back file : Bytes) :
    let bytes : Int := front.length + 1
    let lines : Int := 1 + front.count 0x0a
    let first := Lexing.read front file
    let second := Lexing.read back file
    let whole := Lexing.read (front ++ 0x0a :: back) file
    let here : Position := ⟨file, front.length, lines, 1 + (Bytes.lastLine front).length⟩
    let newline : Token := ⟨.newline, Token.newlineLexeme, ⟨here, ⟨file, bytes, lines + 1, 1⟩⟩⟩
    (∃ marks, first.tokens = marks ++ [⟨.endOfInput, [], ⟨here, here⟩⟩] ∧
      whole.tokens = marks ++ newline :: second.tokens.map (Token.shift bytes lines)) ∧
    whole.findings = first.findings ++ second.findings.map (Finding.shift bytes lines) := by
  intro bytes lines first second whole here newline
  have stop : (Position.start file).after front = here := Position.start_after file front
  have behind : (Position.start file).after (front ++ [0x0a])
      = (Position.start file).shift bytes lines := Position.start_after_newline file front
  have below : (Position.start file).shift bytes lines = ⟨file, bytes, lines + 1, 1⟩ := by
    simp only [Position.shift, Position.start, Position.mk.injEq, true_and, and_true]
    omega
  obtain ⟨tokens, findings⟩ := Lexing.readFrom_newline (.start file) front back
  obtain ⟨moved_tokens, moved_findings⟩ := Lexing.readFrom_shift bytes lines (.start file) back
  rw [behind, moved_tokens, stop, below] at tokens
  rw [behind, moved_findings] at findings
  have ends : first.tokens = Lexing.marks (.start file) front
      ++ [⟨.endOfInput, [], ⟨here, here⟩⟩] := by
    rw [← stop]
    rfl
  exact ⟨⟨Lexing.marks (.start file) front, ends, tokens⟩, findings⟩

end ConsoleScript
