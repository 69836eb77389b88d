import ConsoleScript.Proofs.SourcePositions

/-! # Offsets, lines and columns

The positions that the lexer reports are determined by their offsets, and in the same order whether
they are compared by offset or by line and column.

* **`Bytes.LineStartsAt`** — where the line of an offset begins. `Position.RealIn.lineStartsAt`
  finds that columns are counted from there;
* **`Position.Precedes`** — the order by line and column. `Position.precedes_after` is the step:
  reading on leads forward in this order;
* **`Position.RealIn.offset_lt_iff`** — for positions of one source it is the order by offset. -/

namespace ConsoleScript

/-! ## The beginning of a line -/

namespace Bytes

/-- The line that holds an offset of a text begins at `start`: behind a newline or at the beginning
of the text, and without a newline from there up to the offset. -/
structure LineStartsAt (text : Bytes) (offset start : Nat) : Prop where
  /-- The line begins not behind the offset. -/
  le : start ≤ offset
  /-- A newline stands before it, unless it is the first line. -/
  begins : start = 0 ∨ text[start - 1]? = some 0x0a
  /-- No further newline follows before the offset. -/
  unbroken : ∀ index, start ≤ index → index < offset → text[index]? ≠ some 0x0a

/-- What stands before the last line of a text is nothing, or ends with a newline. -/
theorem exists_append_lastLine (text : Bytes) :
    ∃ front, text = front ++ lastLine text ∧ 0x0a ∉ lastLine text ∧
      (front = [] ∨ ∃ before, front = before ++ [0x0a]) := by
  have parts : text.reverse
      = text.reverse.takeWhile (· ≠ 0x0a) ++ text.reverse.dropWhile (· ≠ 0x0a) :=
    List.takeWhile_append_dropWhile.symm
  refine ⟨(text.reverse.dropWhile (· ≠ 0x0a)).reverse, ?_, ?_, ?_⟩
  · rw [lastLine, ← List.reverse_append, ← parts, List.reverse_reverse]
  · intro member
    have inside := List.mem_reverse.1 member
    simpa using forall_mem_takeWhile text.reverse _ inside
  · cases behind : text.reverse.dropWhile (· ≠ 0x0a) with
    | nil => exact .inl rfl
    | cons byte rest =>
      have head : (text.reverse.dropWhile (· ≠ 0x0a)).head? = some byte := by
        rw [behind]
        rfl
      have newline : byte = 0x0a := by simpa using head?_dropWhile_eq_some head
      exact .inr ⟨rest.reverse, by rw [newline, List.reverse_cons]⟩

/-- The last line of the text before an offset is the line of the offset. -/
theorem exists_lineStartsAt (before behind : Bytes) :
    ∃ start, LineStartsAt (before ++ behind) before.length start ∧
      before.length = start + (lastLine before).length := by
  obtain ⟨front, parts, unbroken, begins⟩ := exists_append_lastLine before
  generalize lastLine before = line at parts unbroken
  subst parts
  refine ⟨front.length, ⟨by simp, ?_, ?_⟩, List.length_append⟩
  · rcases begins with rfl | ⟨earlier, rfl⟩
    · exact .inl rfl
    · exact .inr (by simp)
  · intro index above below newline
    rw [List.length_append] at below
    have inside : index - front.length < line.length := by omega
    rw [List.append_assoc, List.getElem?_append_right above,
      List.getElem?_append_left inside] at newline
    exact unbroken (List.mem_of_getElem? newline)

end Bytes

/-! ## Order -/

namespace Position

/-- A position stands before another: on an earlier line, or on the same line in an earlier
column. -/
def Precedes (first second : Position) : Prop :=
  first.line < second.line ∨ (first.line = second.line ∧ first.column < second.column)

/-- A position does not stand before and behind another. -/
theorem Precedes.asymm {first second : Position} (before : first.Precedes second) :
    ¬second.Precedes first := by
  unfold Precedes at *
  omega

/-- Reading a text that is not empty leads to a position further on. -/
theorem precedes_after (position : Position) {text : Bytes} (not_empty : text ≠ []) :
    position.Precedes (position.after text) := by
  rw [Precedes, line_after, column_after]
  by_cases newline : 0x0a ∈ text
  · have positive : 0 < text.count 0x0a := List.count_pos_iff.2 newline
    omega
  · -- On the same line, the whole text stands between the two.
    have positive := List.length_pos_iff.2 not_empty
    rw [List.count_eq_zero.2 newline, if_neg newline, Bytes.lastLine_of_not_mem newline]
    omega

namespace RealIn

variable {source file : Bytes} {first second position : Position}

/-- The text before a position of a source has as many bytes as its offset says. -/
theorem length_take (real : position.RealIn source file) :
    ((source.take position.offset.toNat).length : Int) = position.offset := by
  have nonneg := real.nonneg
  have le := real.le_length
  rw [List.length_take]
  omega

/-- A position of a source is where reading the text before it leads to. -/
theorem eq_after (real : position.RealIn source file) :
    position = (Position.start file).after (source.take position.offset.toNat) := by
  rw [start_after, real.length_take, ← real.line_eq, ← real.column_eq, ← real.file_eq]

/-- The column of a position is counted from the beginning of its line. -/
theorem lineStartsAt (real : position.RealIn source file) :
    ∃ start, source.LineStartsAt position.offset.toNat start ∧
      position.column = 1 + position.offset - start := by
  obtain ⟨start, starts, parts⟩ := Bytes.exists_lineStartsAt
    (source.take position.offset.toNat) (source.drop position.offset.toNat)
  have length := real.length_take
  have column := real.column_eq
  have offset : (source.take position.offset.toNat).length = position.offset.toNat := by omega
  rw [List.take_append_drop, offset] at starts
  exact ⟨start, starts, by omega⟩

/-- Offsets determine positions. -/
theorem eq_of_offset_eq (one : first.RealIn source file) (two : second.RealIn source file)
    (same : first.offset = second.offset) : first = second := by
  rw [one.eq_after, two.eq_after, same]

/-- A larger offset is further on. -/
theorem precedes_of_offset_lt (one : first.RealIn source file) (two : second.RealIn source file)
    (less : first.offset < second.offset) : first.Precedes second := by
  -- The text before the second position is the one before the first and what is between them.
  let between := (source.take second.offset.toNat).drop first.offset.toNat
  have nonneg := one.nonneg
  have parts : source.take second.offset.toNat
      = source.take first.offset.toNat ++ between := by
    have shorter : first.offset.toNat ≤ second.offset.toNat := by omega
    rw [← List.take_append_drop first.offset.toNat (source.take second.offset.toNat),
      List.take_take, Nat.min_eq_left shorter]
  have not_empty : between ≠ [] := by
    have length := two.length_take
    rw [parts, List.length_append] at length
    have before := one.length_take
    exact List.length_pos_iff.1 (by omega)
  have reached : second = first.after between := by
    rw [two.eq_after, parts, after_append, ← one.eq_after]
  rw [reached]
  exact first.precedes_after not_empty

/-- Positions of a source are in the same order by offset as by line and column. -/
theorem offset_lt_iff (one : first.RealIn source file) (two : second.RealIn source file) :
    first.offset < second.offset ↔ first.Precedes second := by
  refine ⟨one.precedes_of_offset_lt two, fun before => ?_⟩
  rcases Int.lt_trichotomy first.offset second.offset with less | same | greater
  · exact less
  · obtain rfl := one.eq_of_offset_eq two same
    exact absurd before before.asymm
  · exact absurd (two.precedes_of_offset_lt one greater) before.asymm

end RealIn

end Position

/-! ## The positions of the lexer -/

/-- Where the tokens and findings of the lexer begin and end. -/
def Lexing.positions (lexing : Lexing) : List Position :=
  (lexing.tokens.map Token.span ++ lexing.findings.map Finding.span).flatMap
    fun span => [span.start, span.stop]

/-- Every position that the lexer reports is one of the source. -/
theorem Lexing.realIn_positions {source file : Bytes} {position : Position}
    (member : position ∈ (read source file).positions) : position.RealIn source file := by
  obtain ⟨span, inside, ends⟩ := List.mem_flatMap.1 member
  have within : span.Within (Position.RealIn source file) := by
    rcases List.mem_append.1 inside with token | finding
    · obtain ⟨token, among, rfl⟩ := List.mem_map.1 token
      exact within_tokens among
    · obtain ⟨finding, among, rfl⟩ := List.mem_map.1 finding
      exact within_findings among
  simp only [List.mem_cons, List.not_mem_nil, or_false] at ends
  rcases ends with rfl | rfl
  · exact within.start
  · exact within.stop

/-- **Positions are exact.** Every position at which a token or a finding of the lexer begins or
ends carries the name of the file and lies in the source. Its line is the number of newlines before
it, counted from one, and its column the number of bytes since the beginning of the line, counted
from one. So the offset determines the position, and of two positions the one with the smaller
offset is on an earlier line, or on the same line in an earlier column. -/
theorem lexer_positions_exact (source file : Bytes) :
    let positions := (Lexing.read source file).positions
    (∀ position ∈ positions, position.file = file ∧
      0 ≤ position.offset ∧ position.offset ≤ source.length ∧
      position.line = 1 + (source.take position.offset.toNat).count 0x0a ∧
      ∃ start, source.LineStartsAt position.offset.toNat start ∧
        position.column = 1 + position.offset - start) ∧
    (∀ first ∈ positions, ∀ second ∈ positions,
      (first.offset = second.offset → first = second) ∧
        (first.offset < second.offset ↔ first.Precedes second)) := by
  intro positions
  constructor
  · intro position member
    have real := Lexing.realIn_positions member
    exact ⟨real.file_eq, real.nonneg, real.le_length, real.line_eq, real.lineStartsAt⟩
  · intro first one second two
    have first_real := Lexing.realIn_positions one
    have second_real := Lexing.realIn_positions two
    exact ⟨first_real.eq_of_offset_eq second_real, first_real.offset_lt_iff second_real⟩

end ConsoleScript
