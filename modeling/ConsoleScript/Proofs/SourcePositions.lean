import ConsoleScript.Proofs.SourceTiling

/-! # Positions of a source

What it means that a position is one of a source, and that the lexer gives no other.

* **`Position.RealIn`** — file, offset, line and column fit the source: the line is the number of
  newlines before the offset, the column the number of bytes since the last of them, both counted
  from one. `Position.realIn_after` finds this for every position that reading leads to;
* **`Span.Within`** — both ends of a span are such positions, the first not behind the second;
* **`Lexing.within_tokens`**, **`Lexing.within_findings`** — tokens and findings of the lexer. -/

namespace ConsoleScript

namespace Bytes

/-- The bytes of a text behind its last newline. -/
def lastLine (text : Bytes) : Bytes :=
  (text.reverse.takeWhile (· ≠ 0x0a)).reverse

/-- A byte before a text with a newline does not change the last line. -/
theorem lastLine_cons_of_mem {rest : Bytes} (inside : 0x0a ∈ rest) (byte : UInt8) :
    lastLine (byte :: rest) = lastLine rest := by
  -- Read backwards, the last line stops at the newline, before it reaches the byte.
  have stops : (rest.reverse.takeWhile (· ≠ 0x0a)).length ≠ rest.reverse.length := by
    intro same
    have all : rest.reverse.takeWhile (· ≠ 0x0a) = rest.reverse :=
      (List.takeWhile_prefix _).eq_of_length same
    have member : 0x0a ∈ rest.reverse := List.mem_reverse.2 inside
    rw [← all] at member
    simpa using forall_mem_takeWhile rest.reverse _ member
  rw [lastLine, lastLine, List.reverse_cons, List.takeWhile_append, if_neg stops]

/-- Before more text, a run without a newline is part of the line. -/
theorem takeWhile_reverse_append {text : Bytes} (none : 0x0a ∉ text) (more : Bytes) :
    (text.reverse ++ more).takeWhile (· ≠ 0x0a) = text.reverse ++ more.takeWhile (· ≠ 0x0a) := by
  apply List.takeWhile_append_of_pos
  intro byte member
  have other : byte ≠ 0x0a := by
    rintro rfl
    exact none (List.mem_reverse.1 member)
  simpa using other

/-- Without a newline, a text is its own last line. -/
theorem lastLine_of_not_mem {text : Bytes} (none : 0x0a ∉ text) : lastLine text = text := by
  have all := takeWhile_reverse_append none []
  rw [List.append_nil, List.takeWhile_nil, List.append_nil] at all
  rw [lastLine, all, List.reverse_reverse]

/-- Behind the only newline stands the last line. -/
theorem lastLine_newline {rest : Bytes} (none : 0x0a ∉ rest) : lastLine (0x0a :: rest) = rest := by
  rw [lastLine, List.reverse_cons, takeWhile_reverse_append none]
  simp

end Bytes

namespace Position

/-- A position of a source file. -/
structure RealIn (source file : Bytes) (position : Position) : Prop where
  /-- The position carries the name of the file. -/
  file_eq : position.file = file
  /-- The offset is not negative. -/
  nonneg : 0 ≤ position.offset
  /-- The offset does not lead out of the source. -/
  le_length : position.offset ≤ source.length
  /-- One line for each newline before the offset, and one more. -/
  line_eq : position.line = 1 + (source.take position.offset.toNat).count 0x0a
  /-- One column for each byte since the last newline, and one more. -/
  column_eq : position.column = 1 + (Bytes.lastLine (source.take position.offset.toNat)).length

/-- Reading a text leads down one line for each of its newlines. -/
theorem line_after (position : Position) (text : Bytes) :
    (position.after text).line = position.line + text.count 0x0a := by
  induction text generalizing position with
  | nil => simp
  | cons byte text ih =>
    rw [after_cons, ih, step, List.count_cons]
    by_cases newline : byte = 0x0a
    · simp [newline]
      omega
    · simp [newline]

/-- Reading a text leads as many columns further as its last line has bytes, from the first column
if there is a newline. -/
theorem column_after (position : Position) (text : Bytes) :
    (position.after text).column
      = (if 0x0a ∈ text then 1 else position.column) + (Bytes.lastLine text).length := by
  induction text generalizing position with
  | nil => simp [Bytes.lastLine]
  | cons byte text ih =>
    rw [after_cons, ih, step]
    -- The last newline decides: one in the rest, else one in front of it, else none.
    by_cases inside : 0x0a ∈ text
    · rw [Bytes.lastLine_cons_of_mem inside]
      simp [inside]
    · rw [if_neg inside, Bytes.lastLine_of_not_mem inside]
      by_cases newline : byte = 0x0a
      · rw [newline, Bytes.lastLine_newline inside]
        simp
      · have none : 0x0a ∉ byte :: text := by simp [inside, Ne.symm newline]
        rw [if_neg newline, if_neg none, Bytes.lastLine_of_not_mem none, List.length_cons]
        dsimp only
        omega

/-- Where reading a text leads to from the beginning of a file. -/
theorem start_after (file text : Bytes) :
    (start file).after text
      = ⟨file, text.length, 1 + text.count 0x0a, 1 + (Bytes.lastLine text).length⟩ := by
  have file_eq := file_after (start file) text
  have offset := offset_after (start file) text
  have line := line_after (start file) text
  have column := column_after (start file) text
  generalize (start file).after text = reached at file_eq offset line column
  obtain ⟨_, _, _, _⟩ := reached
  simp only [start, Int.zero_add, ite_self] at file_eq offset line column
  rw [file_eq, offset, line, column]

/-- Every position that reading a source leads to is one of the source. -/
theorem realIn_after (file before behind : Bytes) :
    ((Position.start file).after before).RealIn (before ++ behind) file := by
  have front : (before ++ behind).take (before.length : Int).toNat = before := by
    rw [Int.toNat_natCast, List.take_left]
  rw [start_after]
  refine ⟨rfl, Int.natCast_nonneg _, ?_, ?_, ?_⟩
  · show (before.length : Int) ≤ _
    rw [List.length_append]
    omega
  · rw [front]
  · rw [front]

end Position

/-- A span between two positions with a property, the first not behind the second. -/
structure Span.Within (real : Position → Prop) (span : Span) : Prop where
  /-- The beginning has the property. -/
  start : real span.start
  /-- The end has the property. -/
  stop : real span.stop
  /-- The end is not before the beginning. -/
  le : span.start.offset ≤ span.stop.offset

/-- What covers two such spans is one as well. -/
theorem Span.Within.join {real : Position → Prop} {first second : Span} (one : first.Within real)
    (two : second.Within real) : (first.join second).Within real := by
  have start_real : real (first.join second).start := by
    rw [Span.join]
    dsimp only
    split
    · exact two.start
    · exact one.start
  have stop_real : real (first.join second).stop := by
    rw [Span.join]
    dsimp only
    split
    · exact two.stop
    · exact one.stop
  refine ⟨start_real, stop_real, ?_⟩
  -- Either end comes from either span, so there are four orders to compare.
  have one_le := one.le
  have two_le := two.le
  rw [Span.join]
  dsimp only
  split
  · split <;> omega
  · split <;> omega

namespace Lexing

variable {source file : Bytes}

/-- Every token of a source stands between two of its positions. -/
theorem within_tokens {token : Token} (member : token ∈ (read source file).tokens) :
    token.span.Within (Position.RealIn source file) := by
  obtain ⟨before, own, behind, stands⟩ := Lexing.stands member
  have parts := stands.parts
  have first := Position.realIn_after file before (own ++ behind)
  have second := Position.realIn_after file (before ++ own) behind
  rw [← List.append_assoc, ← parts] at first
  rw [← parts] at second
  rw [stands.span]
  refine ⟨first, second, ?_⟩
  simp only [Position.offset_after, List.length_append]
  omega

/-- Every finding of the lexer stands at an illegal token. -/
theorem exists_token_of_finding {finding : Finding}
    (member : finding ∈ (read source file).findings) :
    ∃ token ∈ (read source file).tokens, token.kind = .illegal ∧ token.span = finding.span := by
  obtain ⟨placed, inside, found⟩ := List.mem_filterMap.1 member
  obtain ⟨complaint, complained, rfl⟩ := Option.map_eq_some_iff.1 found
  have illegal : placed.piece.kind? = some .illegal := by
    rw [Piece.complaint?] at complained
    rw [Piece.kind?]
    split at complained
    all_goals simp_all
  have token : placed.token? = some ⟨.illegal, placed.piece.lexeme, placed.span⟩ := by
    rw [PlacedPiece.token?, illegal, Option.map_some]
  have among : (⟨.illegal, placed.piece.lexeme, placed.span⟩ : Token) ∈ (read source file).tokens :=
    List.mem_append_left _ (List.mem_filterMap.2 ⟨placed, inside, token⟩)
  exact ⟨_, among, rfl, rfl⟩

/-- Every finding of the lexer stands between two positions of the source. -/
theorem within_findings {finding : Finding} (member : finding ∈ (read source file).findings) :
    finding.span.Within (Position.RealIn source file) := by
  obtain ⟨token, inside, -, same⟩ := exists_token_of_finding member
  rw [← same]
  exact within_tokens inside

end Lexing

end ConsoleScript
