import ConsoleScript.Proofs.LineCutting
import ConsoleScript.Proofs.Respelling

/-! # Compiling texts one behind the other

Texts that end with a newline and compile each on its own compile together, to their statements one
behind the other.

* **`Lexing.tokens_read`** — the tokens of a text are its marks, none of them the end of input, and
  the end of input; their kinds and lexemes come from the pieces of the text only;
* **`Compilation.program?_eq_some_iff`** — a text compiles to a program exactly if its pieces are no
  flaws and its marks spell the statements of the program;
* **`Holds`** — the statements that a text holds wherever it stands; a text that compiles holds
  those of its program, and `Holds.append` joins texts. -/

namespace ConsoleScript

namespace TokenKind

/-- A kind that pieces of text have if they are no flaws. -/
def IsOrdinary (kind : TokenKind) : Prop :=
  kind ≠ .endOfInput ∧ kind ≠ .illegal
  deriving Decidable

/-- Every word is of an ordinary kind. -/
theorem isOrdinary_ofWord (word : Bytes) : (ofWord word).IsOrdinary := by
  rw [ofWord]
  cases found : reservedWords.lookup word with
  | none => decide
  | some kind =>
    obtain ⟨before, behind, parts, -⟩ := List.lookup_eq_some_iff.1 found
    have member : (word, kind) ∈ reservedWords := by simp [parts]
    have reserved : ∀ entry ∈ reservedWords, entry.2.IsOrdinary := by decide
    exact reserved _ member

/-- Every operator of two bytes is of an ordinary kind. -/
theorem isOrdinary_of_ofPair? {lead next : UInt8} {kind : TokenKind}
    (spelled : ofPair? lead next = some kind) : kind.IsOrdinary := by
  unfold ofPair? at spelled
  split at spelled <;> cases spelled <;> decide

/-- Every operator or delimiter of one byte is of an ordinary kind. -/
theorem isOrdinary_of_ofByte? {lead : UInt8} {kind : TokenKind}
    (spelled : ofByte? lead = some kind) : kind.IsOrdinary := by
  unfold ofByte? at spelled
  split at spelled <;> cases spelled <;> decide

end TokenKind

namespace Piece

/-- What a token keeps of a piece, if the piece makes a token. -/
def content? (piece : Piece) : Option (TokenKind × Bytes) :=
  piece.kind?.map fun kind => (kind, piece.lexeme)

/-- A piece that is a token of the language is of an ordinary kind. -/
theorem isOrdinary_of_mark_first {lead : UInt8} {rest : Bytes} {kind : TokenKind}
    (mark : (first lead rest).sort = .mark kind) : kind.IsOrdinary := by
  unfold first at mark
  repeat' split at mark
  · cases mark
  · cases mark
  · cases mark
    decide
  · rw [ofQuoted] at mark
    split at mark <;> cases mark
    decide
  · rw [ofNumeral] at mark
    split at mark <;> cases mark
    decide
  · cases mark
    exact TokenKind.isOrdinary_ofWord _
  · unfold ofSign at mark
    split at mark
    · rename_i found
      obtain ⟨next, -, spelled⟩ := Option.bind_eq_some_iff.1 found
      cases mark
      exact TokenKind.isOrdinary_of_ofPair? spelled
    · split at mark
      · rename_i spelled
        cases mark
        exact TokenKind.isOrdinary_of_ofByte? spelled
      · cases mark

/-- No piece is the end of input. -/
theorem kind?_first_ne_endOfInput (lead : UInt8) (rest : Bytes) :
    (first lead rest).kind? ≠ some .endOfInput := by
  rw [kind?]
  cases sort : (first lead rest).sort with
  | gap => simp
  | mark kind => simpa using (isOrdinary_of_mark_first sort).1
  | flaw reason => simp

end Piece

/-- Every piece of a text is the one at the front of some text. -/
theorem exists_first_of_mem_pieces {source : Bytes} {piece : Piece}
    (member : piece ∈ pieces source) : ∃ lead rest, piece = Piece.first lead rest := by
  induction source using pieces.induct with
  | case1 => simp at member
  | case2 lead rest ih =>
    rw [pieces] at member
    rcases List.mem_cons.1 member with here | there
    · exact ⟨lead, rest, here⟩
    · exact ih there

/-- No piece of a text is the end of input. -/
theorem kind?_ne_endOfInput {source : Bytes} {piece : Piece} (member : piece ∈ pieces source) :
    piece.kind? ≠ some .endOfInput := by
  obtain ⟨lead, rest, rfl⟩ := exists_first_of_mem_pieces member
  exact Piece.kind?_first_ne_endOfInput lead rest

namespace Lexing

/-- The tokens of a text whose first byte stands at `start`, the end of input apart. -/
def marks (start : Position) (source : Bytes) : List Token :=
  (layOut start (pieces source)).filterMap PlacedPiece.token?

/-- The tokens of a text are its marks and the end of input. -/
theorem tokens_read (source file : Bytes) :
    ∃ final : Token, final.kind = .endOfInput ∧
      (read source file).tokens = marks (.start file) source ++ [final] :=
  ⟨_, rfl, rfl⟩

/-- What is laid out makes the tokens that its pieces make, wherever it stands. -/
theorem map_content_layOut (start : Position) (parts : List Piece) :
    ((layOut start parts).filterMap PlacedPiece.token?).map Token.content
      = parts.filterMap Piece.content? := by
  induction parts generalizing start with
  | nil => rfl
  | cons piece parts ih =>
    rw [layOut_cons, List.filterMap_cons, List.filterMap_cons]
    cases kind : piece.kind? with
    | none => simp [PlacedPiece.token?, Piece.content?, kind, ih]
    | some found => simp [PlacedPiece.token?, Piece.content?, kind, ih, Token.content]

/-- Kinds and lexemes of the marks of a text come from its pieces. -/
theorem map_content_marks (start : Position) (source : Bytes) :
    (marks start source).map Token.content = (pieces source).filterMap Piece.content? :=
  map_content_layOut start (pieces source)

/-- Every mark is made by a piece of its kind. -/
theorem exists_piece_of_mem_marks {start : Position} {source : Bytes} {token : Token}
    (member : token ∈ marks start source) :
    ∃ piece ∈ pieces source, piece.kind? = some token.kind := by
  have here : token.content ∈ (pieces source).filterMap Piece.content? := by
    rw [← map_content_marks start]
    exact List.mem_map_of_mem member
  obtain ⟨piece, inside, same⟩ := List.mem_filterMap.1 here
  obtain ⟨kind, found, content⟩ := Option.map_eq_some_iff.1 same
  exact ⟨piece, inside, found.trans (congrArg some (congrArg Prod.fst content))⟩

/-- No mark is the end of input. -/
theorem ongoing_marks (start : Position) (source : Bytes) : Token.Ongoing (marks start source) := by
  intro token member final
  obtain ⟨piece, inside, found⟩ := exists_piece_of_mem_marks member
  rw [final] at found
  exact kind?_ne_endOfInput inside found

/-- A text has no finding exactly if there is nothing to complain about its pieces. -/
theorem findings_read_eq_nil_iff (source file : Bytes) :
    (read source file).findings = [] ↔ ∀ piece ∈ pieces source, piece.complaint? = none := by
  have laidOut (start : Position) (parts : List Piece) :
      (layOut start parts).filterMap PlacedPiece.finding? = []
        ↔ ∀ piece ∈ parts, piece.complaint? = none := by
    induction parts generalizing start with
    | nil => simp
    | cons piece parts ih =>
      rw [List.forall_mem_cons, ← ih (start.after piece.text), layOut_cons, List.filterMap_cons]
      cases complaint : piece.complaint? <;> simp [PlacedPiece.finding?, complaint]
  exact laidOut (.start file) (pieces source)

end Lexing

namespace Compilation

/-- A text compiles to a program exactly if nothing is to be complained about its pieces, its marks
spell the statements of the program, and the program is what is read. -/
theorem program?_eq_some_iff {source file : Bytes} {program : Program} :
    (compile source file).program? = some program ↔
      (∀ piece ∈ pieces source, piece.complaint? = none) ∧
        SpellsRun (Lexing.marks (.start file) source) program.stmts ∧
        program = (Parsing.read (Lexing.read source file).tokens).program := by
  obtain ⟨final, final_kind, tokens⟩ := Lexing.tokens_read source file
  rw [← Lexing.findings_read_eq_nil_iff source file]
  constructor
  · intro compiled
    by_cases clean : (Lexing.read source file).findings = []
    · have read : (if Finding.anyError (Parsing.read (Lexing.read source file).tokens).findings
          then none else some (Parsing.read (Lexing.read source file).tokens).program)
            = some program := by
        simpa [compile, program?, clean] using compiled
      split at read
      · cases read
      · rename_i sound
        obtain rfl := Option.some.inj read
        rw [Bool.not_eq_true, tokens] at sound
        rw [tokens]
        exact ⟨clean, Parsing.spells_of_read (Lexing.ongoing_marks _ source) final_kind sound, rfl⟩
    · simp [compile, program?, clean] at compiled
  · rintro ⟨clean, spelled, rfl⟩
    obtain ⟨sound, -⟩ := spelled.read final_kind
    rw [← tokens] at sound
    simp [compile, program?, clean, sound]

/-- A text whose marks spell statements compiles to them. -/
theorem exists_program?_of_spells {source file : Bytes} {stmts : List Stmt}
    (sound : ∀ piece ∈ pieces source, piece.complaint? = none)
    (spelled : SpellsRun (Lexing.marks (.start file) source) stmts) :
    ∃ program, (compile source file).program? = some program ∧ program.stmts = stmts := by
  obtain ⟨final, final_kind, tokens⟩ := Lexing.tokens_read source file
  obtain ⟨-, reads⟩ := spelled.read final_kind
  rw [← tokens] at reads
  rw [← reads] at spelled
  exact ⟨_, program?_eq_some_iff.2 ⟨sound, spelled, rfl⟩, reads⟩

/-- A text whose marks are the canonical rendering of statements compiles to them, up to places. -/
theorem exists_program?_of_rendering {source file : Bytes} {stmts : List Stmt}
    (grammatical : GrammaticalStmts stmts)
    (sound : ∀ piece ∈ pieces source, piece.complaint? = none)
    (renders : (Lexing.marks (.start file) source).map Token.symbol = renderStmts stmts) :
    ∃ program, (compile source file).program? = some program ∧
      bareStmts program.stmts = bareStmts stmts := by
  obtain ⟨placed, spelled, same⟩ := spellsRun_of_rendering _ grammatical _ renders
  obtain ⟨program, compiled, rfl⟩ := exists_program?_of_spells sound spelled
  exact ⟨program, compiled, same⟩

end Compilation

/-! ## Joining texts -/

/-- A text holds statements: there is nothing to complain about its pieces, and its marks spell the
statements wherever the text stands, up to places. -/
structure Holds (text : Bytes) (stmts : List Stmt) : Prop where
  /-- No piece is a flaw. -/
  sound : ∀ piece ∈ pieces text, piece.complaint? = none
  /-- The marks are a spelling. -/
  spelled : ∀ start, ∃ placed, SpellsRun (Lexing.marks start text) placed ∧
    bareStmts placed = bareStmts stmts

namespace Compilation

/-- A text that compiles holds the statements of its program. -/
theorem holds_of_program? {source file : Bytes} {program : Program}
    (compiled : (compile source file).program? = some program) : Holds source program.stmts := by
  obtain ⟨sound, spelled, -⟩ := program?_eq_some_iff.1 compiled
  refine ⟨sound, fun start => spelled.respell _ ?_⟩
  rw [Token.Alike, Lexing.map_content_marks, Lexing.map_content_marks]

end Compilation

theorem bareStmts_append (stmts more : List Stmt) :
    bareStmts (stmts ++ more) = bareStmts stmts ++ bareStmts more := by
  induction stmts with
  | nil => rfl
  | cons stmt stmts ih => simp only [List.cons_append, bareStmts, ih]

namespace Holds

/-- The empty text holds no statement. -/
theorem nil : Holds [] [] where
  sound := by simp
  spelled start := ⟨[], .done (by simp [Token.AllSeparators, Lexing.marks]), rfl⟩

/-- A text that holds statements compiles to them, up to places. -/
theorem exists_program? {text : Bytes} {stmts : List Stmt} (holds : Holds text stmts)
    (file : Bytes) :
    ∃ program, (Compilation.compile text file).program? = some program ∧
      bareStmts program.stmts = bareStmts stmts := by
  obtain ⟨placed, spelled, same⟩ := holds.spelled (.start file)
  obtain ⟨program, compiled, rfl⟩ := Compilation.exists_program?_of_spells holds.sound spelled
  exact ⟨program, compiled, same⟩

/-- A text that ends with a newline and another text hold their statements together. -/
theorem append {text more : Bytes} {stmts others : List Stmt} (first : Holds text stmts)
    (ends : ∃ front, text = front ++ [0x0a]) (second : Holds more others) :
    Holds (text ++ more) (stmts ++ others) where
  sound := by
    rw [pieces_append (.inr ends)]
    exact List.forall_mem_append.2 ⟨first.sound, second.sound⟩
  spelled start := by
    have parts : Lexing.marks start (text ++ more)
        = Lexing.marks start text ++ Lexing.marks (start.after text) more := by
      simp only [Lexing.marks, pieces_append (.inr ends), layOut_append, flatMap_text_pieces,
        List.filterMap_append]
    obtain ⟨one, one_spelled, one_same⟩ := first.spelled start
    obtain ⟨two, two_spelled, two_same⟩ := second.spelled (start.after text)
    refine ⟨one ++ two, ?_, ?_⟩
    · rw [parts]
      exact one_spelled.append two_spelled
    · rw [bareStmts_append, bareStmts_append, one_same, two_same]

end Holds

end ConsoleScript
