import ConsoleScript.Text.Bytes

/-! # Positions and spans

A `Position` is a point of a source file: byte offset, line and column. A `Span` is the half-open
range between two positions. Both are plain data: a span may also be made by hand, so the numbers
are integers and nothing is required of them.

`Position.after` says where reading a text leads from a position; `Span.join` is the smallest span
that covers two. -/

namespace ConsoleScript

/-- A point of a source file. -/
structure Position where
  /-- The name of the file, empty if it has none. -/
  file : Bytes
  /-- The number of bytes before the point. -/
  offset : Int
  /-- The line, counted from one. -/
  line : Int
  /-- The column in bytes, counted from one. -/
  column : Int
  deriving DecidableEq, Repr, Inhabited

namespace Position

/-- The position that was never set: no file, and zero for every number. -/
def unset : Position :=
  ⟨[], 0, 0, 0⟩

/-- The beginning of a file. -/
def start (file : Bytes) : Position :=
  ⟨file, 0, 1, 1⟩

/-- A position is known if its line was ever set. -/
def isKnown (position : Position) : Bool :=
  0 < position.line

/-- The position behind one byte: a newline starts the next line. -/
def step (position : Position) (byte : UInt8) : Position :=
  if byte = 0x0a then
    { position with offset := position.offset + 1, line := position.line + 1, column := 1 }
  else
    { position with offset := position.offset + 1, column := position.column + 1 }

/-- The position behind a text that begins at `position`. -/
def after (position : Position) (text : Bytes) : Position :=
  text.foldl step position

@[simp] theorem after_nil (position : Position) : position.after [] = position := rfl

@[simp] theorem after_cons (position : Position) (byte : UInt8) (text : Bytes) :
    position.after (byte :: text) = (position.step byte).after text := rfl

@[simp] theorem after_append (position : Position) (text more : Bytes) :
    position.after (text ++ more) = (position.after text).after more :=
  List.foldl_append

@[simp] theorem file_step (position : Position) (byte : UInt8) :
    (position.step byte).file = position.file := by
  unfold step
  split <;> rfl

@[simp] theorem offset_step (position : Position) (byte : UInt8) :
    (position.step byte).offset = position.offset + 1 := by
  unfold step
  split <;> rfl

/-- Reading does not leave the file. -/
@[simp] theorem file_after (position : Position) (text : Bytes) :
    (position.after text).file = position.file := by
  induction text generalizing position with
  | nil => rfl
  | cons byte text ih => rw [after_cons, ih, file_step]

/-- Reading a text leads as many bytes further as the text has. -/
@[simp] theorem offset_after (position : Position) (text : Bytes) :
    (position.after text).offset = position.offset + text.length := by
  induction text generalizing position with
  | nil => simp
  | cons byte text ih =>
    rw [after_cons, ih, offset_step, List.length_cons]
    omega

/-- Line and column, with the file name in front if there is one. -/
def render (position : Position) : Bytes :=
  let place := Bytes.signedDecimal position.line ++ 0x3a :: Bytes.signedDecimal position.column
  if position.file.isEmpty then place else position.file ++ 0x3a :: place

end Position

/-- The half-open range between two positions. -/
structure Span where
  /-- The first position of the range. -/
  start : Position
  /-- The position behind the range. -/
  stop : Position
  deriving DecidableEq, Repr, Inhabited

namespace Span

/-- The span that was never set. -/
def unset : Span :=
  ⟨.unset, .unset⟩

/-- The smallest span that covers both; on equal offsets the ends of the first are kept. -/
def join (first second : Span) : Span where
  start := if second.start.offset < first.start.offset then second.start else first.start
  stop := if first.stop.offset < second.stop.offset then second.stop else first.stop

/-- The beginning in full, then line and column of the end. -/
def render (span : Span) : Bytes :=
  span.start.render ++ Bytes.utf8 ".." ++ Bytes.signedDecimal span.stop.line
    ++ 0x3a :: Bytes.signedDecimal span.stop.column

end Span

end ConsoleScript
