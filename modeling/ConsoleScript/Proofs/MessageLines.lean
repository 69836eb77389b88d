import ConsoleScript.Proofs.ProgramPositions
import ConsoleScript.Proofs.QuotedWords

/-! # Messages of a single line

Every finding and every failure of a run is told on a single line, though most of them quote the
source: what they quote are words of tokens, and no token reaches over the end of a line.

* **`Bytes.IsLine`** — a text without a newline; `Bytes.splitOn_joinWith` takes lines apart again;
* **`Finding.isLine_render`** — a finding is told on a line if it quotes lines and its place is in a
  file whose name is one;
* **`Lexing.isLine_words`** — the words of the tokens of a source are lines;
* **`Expr.IsPlain`**, **`Stmt.IsPlain`** — an expression, and a statement, with lines as names at
  places in files whose names are lines. What is read from a source is plain
  (`Lexing.isPlain_stmts`);
* **`Failure.IsTold`** — a failure is told on a line. So are those of a plain expression, case by
  case over its evaluation (`Evaluates.tells`), and all that arise in a run of plain statements
  (`Failure.Arises.isTold`).

`messages_are_lines` puts these together. -/

namespace ConsoleScript

/-! ## Lines -/

namespace Bytes

/-- A text is on a single line. -/
def IsLine (text : Bytes) : Prop :=
  0x0a ∉ text

instance (text : Bytes) : Decidable text.IsLine :=
  inferInstanceAs (Decidable (0x0a ∉ text))

theorem IsLine.append {text more : Bytes} (first : text.IsLine) (second : more.IsLine) :
    (text ++ more).IsLine :=
  fun inside => (List.mem_append.1 inside).elim first second

theorem IsLine.cons {text : Bytes} (line : text.IsLine) {byte : UInt8} (other : 0x0a ≠ byte) :
    IsLine (byte :: text) :=
  List.not_mem_cons_of_ne_of_not_mem other line

theorem isLine_decimal (number : Nat) : (decimal number).IsLine := by
  intro inside
  obtain ⟨digit, among, same⟩ := List.mem_map.1 inside
  have is_digit : digit.isDigit = true := Nat.isDigit_of_mem_toDigits (by decide) (by decide) among
  simp only [Char.isDigit, Bool.and_eq_true, decide_eq_true_eq, ge_iff_le,
    UInt32.le_iff_toNat_le] at is_digit
  -- The byte of a character is its scalar modulo 256, which is no newline for a digit.
  have range : 48 ≤ digit.toNat ∧ digit.toNat ≤ 57 := is_digit
  have byte : digit.toNat % 256 = 10 := congrArg UInt8.toNat same
  omega

theorem isLine_signedDecimal : (number : Int) → (signedDecimal number).IsLine
  | .ofNat number => isLine_decimal number
  | .negSucc number => (isLine_decimal (number + 1)).cons (by decide)

theorem joinWith_eq_intercalate (separator : Bytes) (pieces : List Bytes) :
    joinWith separator pieces = separator.intercalate pieces := by
  induction pieces with
  | nil => rfl
  | cons piece rest ih =>
    cases rest with
    | nil => simp
    | cons next rest =>
      rw [joinWith, ih]
      simp [List.intercalate]

/-- Lines with newlines between them can be taken apart again. -/
theorem splitOn_joinWith {lines : List Bytes} (are_lines : ∀ line ∈ lines, line.IsLine)
    (some_line : lines ≠ []) : (joinWith [0x0a] lines).splitOn 0x0a = lines := by
  rw [joinWith_eq_intercalate]
  exact List.splitOn_intercalate 0x0a are_lines some_line

theorem unlines_eq_joinWith (lines : List Bytes) :
    unlines lines = joinWith [0x0a] (lines ++ [[]]) := by
  induction lines with
  | nil => rfl
  | cons line rest ih =>
    cases rest with
    | nil => rfl
    | cons next rest =>
      rw [unlines_cons, ih]
      rfl

/-- Lines with a newline behind each can be taken apart again; behind the last newline there is
nothing. -/
theorem splitOn_unlines {lines : List Bytes} (are_lines : ∀ line ∈ lines, line.IsLine) :
    (unlines lines).splitOn 0x0a = lines ++ [[]] := by
  rw [unlines_eq_joinWith]
  refine splitOn_joinWith (List.forall_mem_append.2 ⟨are_lines, ?_⟩) (by simp)
  exact List.forall_mem_singleton.2 List.not_mem_nil

end Bytes

/-- A place is told on a line if the name of its file is one. -/
theorem Position.isLine_render {position : Position} (named : position.file.IsLine) :
    position.render.IsLine := by
  have column : Bytes.IsLine (0x3a :: Bytes.signedDecimal position.column) :=
    (Bytes.isLine_signedDecimal position.column).cons (by decide)
  have place := (Bytes.isLine_signedDecimal position.line).append column
  unfold render
  split
  · exact place
  · exact named.append (place.cons (by decide))

/-! ## Findings -/

namespace Complaint

theorem isLine_code (complaint : Complaint) : complaint.code.IsLine := by
  unfold code
  split <;> decide

theorem isLine_hint (complaint : Complaint) : complaint.hint.IsLine := by
  unfold hint
  split <;> decide

/-- A complaint is in words of a single line if what it quotes is. -/
theorem isLine_message {complaint : Complaint}
    (quoted : ∀ word ∈ complaint.quotations, word.IsLine) : complaint.message.IsLine := by
  cases complaint with
  | unterminatedText | expressionStatement | invalidTarget | endlessLoop => decide
  | unexpectedCharacter word | malformedNumber word | invalidNumber word | expectedExpression word
  | expectedOperand word | expectedBody word | unexpectedToken word =>
    have line : word.IsLine := quoted word List.mem_cons_self
    exact (Bytes.IsLine.append (by decide) line).append (by decide)
  | expectedToken wanted word =>
    have line : word.IsLine := quoted word List.mem_cons_self
    have label : wanted.label.IsLine := by cases wanted <;> decide
    exact ((((Bytes.IsLine.append (by decide) label).append (by decide)).append line).append
      (by decide))
  | expectedExpressionAfter operator found =>
    have first : operator.IsLine := quoted operator List.mem_cons_self
    have second : found.IsLine := quoted found (List.mem_cons_of_mem _ List.mem_cons_self)
    exact ((((Bytes.IsLine.append (by decide) first).append (by decide)).append second).append
      (by decide))

end Complaint

theorem Severity.isLine_label (severity : Severity) : severity.label.IsLine := by
  cases severity <;> decide

/-- A finding is told on a line if it quotes lines and its place is in a file whose name is one. -/
theorem Finding.isLine_render {finding : Finding}
    (quoted : ∀ word ∈ finding.complaint.quotations, word.IsLine)
    (named : finding.span.start.file.IsLine) : finding.diagnostic.render.IsLine := by
  have code : Bytes.IsLine (0x5b :: finding.complaint.code) :=
    finding.complaint.isLine_code.cons (by decide)
  have label := finding.complaint.severity.isLine_label
  have place := Position.isLine_render named
  have message := Complaint.isLine_message quoted
  have hint : Bytes.IsLine (if finding.complaint.hint.isEmpty then []
      else Bytes.utf8 " (hint: " ++ finding.complaint.hint ++ Bytes.utf8 ")") := by
    split
    · exact List.not_mem_nil
    · exact (Bytes.IsLine.append (by decide) finding.complaint.isLine_hint).append (by decide)
  exact ((((((code.append (by decide)).append label).append (by decide)).append place).append
    (by decide)).append message).append hint

/-- A newline has a lexeme of its own. -/
theorem Piece.lexeme_of_newline {piece : Piece} (found : piece.kind? = some .newline) :
    piece.lexeme = Token.newlineLexeme := by
  have newline : piece.sort = .mark .newline := by
    unfold kind? at found
    split at found <;> simp_all
  rw [lexeme, if_pos newline]

/-- What the lexer complains about is illegal, and it quotes the lexeme at most. -/
theorem Piece.quotations_of_complaint? {piece : Piece} {complaint : Complaint}
    (complained : piece.complaint? = some complaint) :
    piece.kind? = some .illegal ∧ complaint.quotations ⊆ [piece.lexeme] := by
  unfold complaint? at complained
  unfold kind? lexeme
  split at complained
  all_goals cases complained
  all_goals simp_all [Complaint.quotations]

namespace Lexing

variable {source file : Bytes}

/-- No lexeme reaches over the end of a line. -/
theorem isLine_lexeme {token : Token} (member : token ∈ (read source file).tokens) :
    token.lexeme.IsLine := by
  by_cases newline : token.kind = .newline
  · rcases List.mem_append.1 member with mark | ending
    · obtain ⟨placed, -, made⟩ := List.mem_filterMap.1 mark
      obtain ⟨kind, found, rfl⟩ := Option.map_eq_some_iff.1 made
      have lexeme : placed.piece.lexeme = Token.newlineLexeme :=
        Piece.lexeme_of_newline (found.trans (congrArg some newline))
      show placed.piece.lexeme.IsLine
      rw [lexeme]
      decide
    · rw [List.mem_singleton.1 ending] at newline
      cases newline
  · -- Any other lexeme is a stretch of the source with no newline in it.
    obtain ⟨before, own, behind, stands⟩ := Lexing.stands member
    obtain ⟨same, line⟩ := stands.lexeme newline
    rw [same]
    exact line

/-- The words of the tokens of a source are lines. -/
theorem isLine_words {word : Bytes} (member : word ∈ Token.words (read source file).tokens) :
    word.IsLine := by
  rcases List.mem_cons.1 member with rfl | inside
  · decide
  · obtain ⟨token, among, own⟩ := List.mem_flatMap.1 inside
    have lexeme := isLine_lexeme among
    rcases List.mem_cons.1 own with rfl | own
    · exact lexeme
    · rw [List.mem_singleton.1 own, Token.description]
      split
      · decide
      · decide
      · exact lexeme

/-- The lexer quotes lexemes of tokens. -/
theorem quotes_read : Finding.Quote (Token.words (read source file).tokens)
    (read source file).findings := by
  intro finding member
  obtain ⟨placed, inside, found⟩ := List.mem_filterMap.1 member
  obtain ⟨complaint, complained, rfl⟩ := Option.map_eq_some_iff.1 found
  obtain ⟨illegal, quoted⟩ := Piece.quotations_of_complaint? complained
  have token : placed.token? = some ⟨.illegal, placed.piece.lexeme, placed.span⟩ := by
    rw [PlacedPiece.token?, illegal, Option.map_some]
  have among : ⟨.illegal, placed.piece.lexeme, placed.span⟩ ∈ (read source file).tokens :=
    List.mem_append_left _ (List.mem_filterMap.2 ⟨placed, inside, token⟩)
  intro word member
  rw [List.mem_singleton.1 (quoted member)]
  exact List.mem_cons_of_mem _ (List.mem_flatMap.2 ⟨_, among, List.mem_cons_self⟩)

/-- Everything that is read of a source stands in its file, but for complaints about closing braces
that are missing behind the end. -/
theorem files_read (source file : Bytes) :
    (∀ span ∈ stmtSpans (Parsing.read (read source file).tokens).program.stmts,
        span.start.file = file) ∧
      ∀ finding ∈ (read source file).findings ++
        (Parsing.read (read source file).tokens).findings,
        finding.span.start.file = file ∨ finding.span = .unset := by
  have final_kind : (Token.mk .endOfInput []
      ⟨(Position.start file).after source, (Position.start file).after source⟩).kind
        = .endOfInput := rfl
  have tiles : Tiles (.start file) source (read source file).tokens :=
    tiles_readFrom (.start file) source
  obtain ⟨stmts, -, outcome⟩ := Parsing.places_read (ongoing_marks (.start file) source)
    final_kind (fun _ => within_tokens) tiles.ordered
  refine ⟨fun span inside => (stmts span inside).start.file_eq, List.forall_mem_append.2 ⟨?_, ?_⟩⟩
  · exact fun finding lexed => .inl (within_findings lexed).start.file_eq
  · intro finding parsed
    rcases outcome with ⟨reported, -⟩ | ⟨-, lost⟩
    · exact .inl (reported finding parsed).start.file_eq
    · rcases lost.others finding parsed with within | rfl
      · exact .inl within.start.file_eq
      · exact .inr rfl

/-- Every finding about a source is told on a line. -/
theorem isLine_finding (named : file.IsLine) {finding : Finding}
    (member : finding ∈ (read source file).findings ++
      (Parsing.read (read source file).tokens).findings) : finding.diagnostic.render.IsLine := by
  have quoted : Finding.Quote (Token.words (read source file).tokens) _ :=
    quotes_read.append (Parsing.quotes_read (read source file).tokens).1
  refine Finding.isLine_render (fun word inside => isLine_words (quoted finding member inside)) ?_
  rcases (files_read source file).2 finding member with same | unset
  · rw [same]
    exact named
  · rw [unset]
    exact List.not_mem_nil

end Lexing

/-! ## Places of the parts of a program -/

/-- The place of a statement and those in its expressions, without those of the statements in it. -/
def Stmt.ownSpans (stmt : Stmt) : List Span :=
  stmt.span :: stmt.exprs.flatMap Expr.spans

theorem conditionSpans_subset (branches : List Branch) :
    (branches.map Branch.condition).flatMap Expr.spans ⊆ branchSpans branches := by
  induction branches with
  | nil => exact List.nil_subset _
  | cons branch rest ih =>
    obtain ⟨span, condition, body⟩ := branch
    refine List.append_subset.2 ⟨?_, List.subset_append_of_subset_right _ ih⟩
    exact List.subset_append_of_subset_left _
      (List.subset_cons_of_subset _ (List.subset_append_left _ _))

mutual

/-- Every part of a statement has its own places among those of the statement. -/
theorem Stmt.ownSpans_subset : (stmt : Stmt) → ∀ part ∈ stmt.parts, part.ownSpans ⊆ stmt.spans
  | .assign _ _ value | .console _ value => by
    refine List.forall_mem_singleton.2 (List.cons_subset_cons _ ?_)
    exact List.append_subset.2 ⟨List.Subset.refl value.spans, List.nil_subset _⟩
  | .conditional _ branches otherwise => by
    refine List.forall_mem_cons.2 ⟨?_, List.forall_mem_append.2 ⟨?_, ?_⟩⟩
    · exact List.cons_subset_cons _
        (List.subset_append_of_subset_left _ (conditionSpans_subset branches))
    · intro part among
      exact List.subset_cons_of_subset _
        (List.subset_append_of_subset_left _ (branches_ownSpans_subset branches part among))
    · intro part among
      exact List.subset_cons_of_subset _
        (List.subset_append_of_subset_right _ (otherwise.ownSpans_subset part among))
  | .loop _ condition body => by
    refine List.forall_mem_cons.2 ⟨List.cons_subset_cons _ ?_, ?_⟩
    · exact List.append_subset.2 ⟨List.subset_append_left condition.spans _, List.nil_subset _⟩
    · intro part among
      exact List.subset_cons_of_subset _
        (List.subset_append_of_subset_right _ (body.ownSpans_subset part among))
  | .block _ stmts => by
    refine List.forall_mem_cons.2 ⟨List.cons_subset_cons _ (List.nil_subset _), ?_⟩
    intro part among
    exact List.subset_cons_of_subset _ (stmts_ownSpans_subset stmts part among)

theorem stmts_ownSpans_subset : (stmts : List Stmt) →
    ∀ part ∈ stmtParts stmts, part.ownSpans ⊆ stmtSpans stmts
  | [] => List.forall_mem_nil _
  | stmt :: stmts => by
    refine List.forall_mem_append.2 ⟨?_, ?_⟩
    · intro part among
      exact List.subset_append_of_subset_left _ (stmt.ownSpans_subset part among)
    · intro part among
      exact List.subset_append_of_subset_right _ (stmts_ownSpans_subset stmts part among)

theorem branches_ownSpans_subset : (branches : List Branch) →
    ∀ part ∈ branchParts branches, part.ownSpans ⊆ branchSpans branches
  | [] => List.forall_mem_nil _
  | .mk _ _ body :: branches => by
    refine List.forall_mem_append.2 ⟨?_, ?_⟩
    · intro part among
      exact List.subset_append_of_subset_left _ (List.subset_cons_of_subset _
        (List.subset_append_of_subset_right _ (body.ownSpans_subset part among)))
    · intro part among
      exact List.subset_append_of_subset_right _ (branches_ownSpans_subset branches part among)

theorem Block.ownSpans_subset : (block : Block) →
    ∀ part ∈ block.parts, part.ownSpans ⊆ block.spans
  | .absent => List.forall_mem_nil _
  | .present _ stmts => fun part among =>
    List.subset_cons_of_subset _ (stmts_ownSpans_subset stmts part among)

end

/-! ## Failures of a run -/

/-- A failure is told in lines, whatever line the console has for its refusals. -/
structure Failure.IsTold (failure : Failure) : Prop where
  /-- The message of the fault is a line. -/
  fault : ∀ refusal : Bytes, refusal.IsLine → (failure.fault.wording refusal).IsLine
  /-- The name of the file is a line. -/
  file : failure.span.start.file.IsLine

theorem Failure.IsTold.isLine_wording {failure : Failure} (told : failure.IsTold) {refusal : Bytes}
    (line : refusal.IsLine) : (failure.wording refusal).IsLine := by
  have fault := told.fault refusal line
  have place := Position.isLine_render told.file
  unfold wording
  split
  · exact ((Bytes.IsLine.append (by decide) place).append (by decide)).append fault
  · exact Bytes.IsLine.append (by decide) fault

/-- An expression holds names that are lines, in files whose names are lines. -/
structure Expr.IsPlain (expr : Expr) : Prop where
  /-- The names. -/
  names : ∀ name ∈ expr.names, name.IsLine
  /-- The names of the files. -/
  files : ∀ span ∈ expr.spans, span.start.file.IsLine

namespace Expr.IsPlain

theorem file {expr : Expr} (plain : expr.IsPlain) : expr.span.start.file.IsLine := by
  cases expr with
  | missing => exact List.not_mem_nil
  | number | text | boolean | nil | name | unary | binary | paren =>
    exact plain.files _ List.mem_cons_self

theorem mono {part whole : Expr} (plain : whole.IsPlain) (names : part.names ⊆ whole.names)
    (spans : part.spans ⊆ whole.spans) : part.IsPlain :=
  ⟨fun name member => plain.names name (names member),
    fun span member => plain.files span (spans member)⟩

theorem left {span : Span} {operator : BinaryOperator} {left right : Expr}
    (plain : (Expr.binary span operator left right).IsPlain) : left.IsPlain :=
  plain.mono (List.subset_append_left _ _)
    (List.subset_cons_of_subset _ (List.subset_append_left _ _))

theorem right {span : Span} {operator : BinaryOperator} {left right : Expr}
    (plain : (Expr.binary span operator left right).IsPlain) : right.IsPlain :=
  plain.mono (List.subset_append_right _ _)
    (List.subset_cons_of_subset _ (List.subset_append_right _ _))

end Expr.IsPlain

/-- An evaluation that fails is told in lines. -/
def Expr.Tells {α : Type} (result : Except Failure α) : Prop :=
  ∀ failure, result = .error failure → failure.IsTold

namespace Expr.Tells

theorem ok {α : Type} {value : α} : Tells (.ok value : Except Failure α) :=
  fun _ same => by cases same

theorem error {α : Type} {failure : Failure} (told : failure.IsTold) :
    Tells (.error failure : Except Failure α) := by
  rintro _ ⟨⟩
  exact told

theorem mismatch {α : Type} {expected : ValueKind} {actual : Option ValueKind} {span : Span}
    (file : span.start.file.IsLine) :
    Tells (.error ⟨.mismatch expected actual, span⟩ : Except Failure α) := by
  have label (kind : ValueKind) : kind.label.IsLine := by cases kind <;> decide
  have found : (ValueKind.labelOf actual).IsLine := by
    cases actual with
    | none => decide
    | some kind => exact label kind
  refine .error ⟨fun _ _ => ?_, file⟩
  exact ((Bytes.IsLine.append (by decide) (label expected)).append (by decide)).append found

end Expr.Tells

theorem Transforms.tells {span : Span} {operand : Expr} {operator : UnaryOperator} {value : Value}
    {result : Except Failure Value} (applied : Transforms span operand operator value result)
    (plain : (Expr.unary span operator operand).IsPlain) : Expr.Tells result := by
  have inner : operand.IsPlain := plain.mono (List.Subset.refl _) (List.subset_cons_self _ _)
  cases applied with
  | negate | invert => exact .ok
  | negateOther | invertOther => exact .mismatch inner.file
  | unknown =>
    have line : (Fault.wording [] (.unsupportedOperator UnaryOperator.unknown.symbol)).IsLine := by
      decide
    exact .error ⟨fun _ _ => line, plain.file⟩

theorem Combines.tells {span : Span} {left right : Expr} {operator : BinaryOperator}
    {first second : Value} {result : Except Failure Value}
    (applied : Combines span left right operator first second result)
    (plain : (Expr.binary span operator left right).IsPlain) : Expr.Tells result := by
  cases applied with
  | addNumbers | addTexts | equalNumbers | equalOthers | notEqualNumbers | notEqualOthers | numbers
  | booleans => exact .ok
  | leftNoNumber | leftNoBoolean => exact .mismatch plain.left.file
  | rightNoNumber | rightNoBoolean => exact .mismatch plain.right.file
  | unknown =>
    have line : (Fault.wording [] (.unsupportedOperator BinaryOperator.unknown.symbol)).IsLine := by
      decide
    exact .error ⟨fun _ _ => line, plain.file⟩

/-- The failures of a plain expression are told in lines. -/
theorem Evaluates.tells {environment : Environment} {expr : Expr} {result : Except Failure Value}
    (evaluated : Evaluates environment expr result) (plain : expr.IsPlain) :
    Expr.Tells result := by
  induction evaluated with
  | number | text | boolean | nil | name => exact .ok
  | @undeclared span word =>
    have line : word.IsLine := plain.names word List.mem_cons_self
    exact .error ⟨fun _ _ => (Bytes.IsLine.append (by decide) line).append (by decide), plain.file⟩
  | unary _ applied _ => exact applied.tells plain
  | unaryFails _ inner =>
    exact inner (plain.mono (List.Subset.refl _) (List.subset_cons_self _ _))
  | binary _ _ applied _ _ => exact applied.tells plain
  | leftFails _ one => exact one plain.left
  | rightFails _ _ _ two => exact two plain.right
  | paren _ inside => exact inside (plain.mono (List.Subset.refl _) (List.subset_cons_self _ _))
  | missing =>
    have line : (Fault.wording [] .missingExpression).IsLine := by decide
    exact .error ⟨fun _ _ => line, List.not_mem_nil⟩

/-- So are those of a plain condition. -/
theorem Tests.tells {environment : Environment} {condition : Expr} {result : Except Failure Bool}
    (tested : Tests environment condition result) (plain : condition.IsPlain) :
    Expr.Tells result := by
  cases tested with
  | truth => exact .ok
  | fails evaluated => exact .error (evaluated.tells plain _ rfl)
  | other => exact .mismatch plain.file

/-- A statement, those in it apart, holds names that are lines, in files whose names are lines. -/
structure Stmt.IsPlain (stmt : Stmt) : Prop where
  /-- The names. -/
  names : ∀ name ∈ stmt.names, name.IsLine
  /-- The names of the files. -/
  files : ∀ span ∈ stmt.ownSpans, span.start.file.IsLine

namespace Stmt.IsPlain

variable {stmt : Stmt}

theorem expr (plain : stmt.IsPlain) {expr : Expr} (stands : expr ∈ stmt.exprs) : expr.IsPlain := by
  constructor
  · intro name member
    exact plain.names name
      (List.mem_append_right _ (List.mem_flatMap.2 ⟨expr, stands, member⟩))
  · intro span member
    exact plain.files span (List.mem_cons_of_mem _ (List.mem_flatMap.2 ⟨expr, stands, member⟩))

end Stmt.IsPlain

/-- Whatever fails in a run of plain statements, on any console, is told in lines. -/
theorem Failure.Arises.isTold {parts : List Stmt} {console : Console} {state : State}
    {failure : Failure} (arises : failure.Arises parts console state)
    (plain : ∀ stmt ∈ parts, stmt.IsPlain) : failure.IsTold := by
  cases arises with
  | expression inside stands evaluated =>
    exact (evaluates_iff.2 evaluated).tells ((plain _ inside).expr stands) _ rfl
  | condition inside tested fails =>
    exact (tests_iff.2 fails).tells
      ((plain _ inside).expr (Stmt.conditions_subset_exprs _ tested)) _ rfl
  | @voidAssigned span name expr inside evaluated =>
    have line : name.IsLine := (plain _ inside).names name List.mem_cons_self
    exact ⟨fun _ _ => (Bytes.IsLine.append (by decide) line).append (by decide),
      ((plain _ inside).expr List.mem_cons_self).file⟩
  | refused inside =>
    exact ⟨fun _ refusal => Bytes.IsLine.append (by decide) refusal,
      (plain _ inside).files _ List.mem_cons_self⟩

/-- The statements that are read from a source are plain. -/
theorem Lexing.isPlain_stmts {source file : Bytes} (named : file.IsLine) :
    ∀ stmt ∈ stmtParts (Parsing.read (read source file).tokens).program.stmts, stmt.IsPlain := by
  intro stmt among
  constructor
  · intro name member
    have occurs : name ∈ (Node.program (Parsing.read (read source file).tokens).program).names :=
      List.mem_flatMap.2 ⟨stmt, among, member⟩
    exact isLine_words ((Parsing.quotes_read _).2 occurs)
  · intro span member
    rw [(files_read source file).1 span (stmts_ownSpans_subset _ stmt among member)]
    exact named

/-- **Messages are told on single lines.** Let a source stand in a file whose name has no newline.
Then there is none in the text for any finding of the lexer or the parser. So showing findings takes
just one line for each, and the text of findings with newlines between them can be taken apart into
the texts of the findings. And if the source compiles to a program, there is no newline in the
message of any failure of the program, from any state and on any console, as long as the console
refuses lines without one. -/
theorem messages_are_lines (source : Bytes) {file : Bytes} (named : 0x0a ∉ file) :
    let lexing := Lexing.read source file
    let findings := lexing.findings ++ (Parsing.read lexing.tokens).findings
    (∀ finding ∈ findings, 0x0a ∉ finding.diagnostic.render) ∧
      (∀ shown : List Finding, shown ⊆ findings →
        (Finding.renderLines shown).splitOn 0x0a
            = shown.map (fun finding => finding.diagnostic.render) ++ [[]] ∧
          (shown ≠ [] → (Diagnostic.renderAll (shown.map Finding.diagnostic)).splitOn 0x0a
            = shown.map fun finding => finding.diagnostic.render)) ∧
      ∀ program, (Compilation.compile source file).program? = some program →
        ∀ (fuel : Nat) (console : Console) (state after : State) (failure : Failure),
          (Node.program program).run fuel console state = .failed failure after →
            ∀ refusal : Bytes, 0x0a ∉ refusal → 0x0a ∉ failure.wording refusal := by
  intro lexing findings
  have line : ∀ finding ∈ findings, finding.diagnostic.render.IsLine :=
    fun finding member => Lexing.isLine_finding named member
  refine ⟨line, ?_, ?_⟩
  · intro shown among
    have lines : ∀ text ∈ shown.map (fun finding => finding.diagnostic.render), text.IsLine := by
      intro text member
      obtain ⟨finding, inside, rfl⟩ := List.mem_map.1 member
      exact line finding (among inside)
    refine ⟨Bytes.splitOn_unlines lines, fun some_finding => ?_⟩
    rw [Diagnostic.renderAll, List.map_map]
    exact Bytes.splitOn_joinWith lines (by simpa using some_finding)
  · intro program compiled fuel console state after failure fails refusal refused
    obtain ⟨-, -, rfl⟩ := Compilation.program?_eq_some_iff.1 compiled
    -- A program is neither an expression nor a node that is missing.
    rcases (Node.program _).arises fails with arises | ⟨expr, other, -⟩ | ⟨other, -⟩
    · exact (arises.isTold (Lexing.isPlain_stmts named)).isLine_wording refused
    · cases other
    · cases other

/-- Two endless loops around a variable that is never assigned: there are two warnings, a line each,
and the failure of the run is told on a line, too. -/
theorem messages_are_lines_loops :
    let source := Bytes.utf8 "while true while true console x"
    let file := Bytes.utf8 "f.xen"
    let place (start stop : Int) : Span := ⟨⟨file, start, 1, start + 1⟩, ⟨file, stop, 1, stop + 1⟩⟩
    let warnings : List Finding := [⟨.endlessLoop, place 0 10⟩, ⟨.endlessLoop, place 11 21⟩]
    let failure : Failure := ⟨.undeclared [0x78], place 30 31⟩
    (Diagnostic.renderAll (warnings.map Finding.diagnostic)).splitOn 0x0a
        = warnings.map (fun finding => finding.diagnostic.render) ∧
      ∃ program after, (Compilation.compile source file).program? = some program ∧
        (Node.program program).run 2 .unlimited (.start .empty) = .failed failure after ∧
        0x0a ∉ failure.message := by
  intro source file place warnings failure
  have named : 0x0a ∉ file := by decide
  have lexing : Lexing.read source file = ⟨[
      ⟨.whileWord, Bytes.utf8 "while", place 0 5⟩, ⟨.trueWord, Bytes.utf8 "true", place 6 10⟩,
      ⟨.whileWord, Bytes.utf8 "while", place 11 16⟩, ⟨.trueWord, Bytes.utf8 "true", place 17 21⟩,
      ⟨.consoleWord, Bytes.utf8 "console", place 22 29⟩, ⟨.name, [0x78], place 30 31⟩,
      ⟨.endOfInput, [], place 31 31⟩], []⟩ := by
    decide +kernel
  let program : Program := ⟨place 0 31, [.loop (place 0 31) (.boolean (place 6 10) true)
    (.present (place 11 31) [.loop (place 11 31) (.boolean (place 17 21) true)
      (.present (place 22 31) [.console (place 22 31) (.name (place 30 31) [0x78])])])]⟩
  have parsing : Parsing.read (Lexing.read source file).tokens = ⟨program, warnings⟩ := by
    rw [lexing]
    simp [Parsing.read, Cursor.ofTokens, Cursor.skipSeparators, Cursor.skipWhile,
      Cursor.skipWhile.go, Cursor.isSeparator, Cursor.statements_cons, Cursor.statement_cons,
      Cursor.body_cons, Cursor.endsBody, Cursor.loopWarnings, Cursor.consoleStatement,
      Cursor.requiredExpression, Parsed.required, Cursor.expression_eq, Cursor.operand_cons,
      Cursor.continuation_cons, TokenKind.strength, Cursor.peek, Cursor.spanFrom, program]
    exact ⟨⟨rfl, rfl, rfl, rfl⟩, rfl⟩
  have compiled : (Compilation.compile source file).program? = some program := by
    have accepted : Finding.anyError warnings = false := rfl
    have sound : (Lexing.read source file).findings = [] := by rw [lexing]
    simp [Compilation.compile, Compilation.program?, sound, parsing, accepted]
  have fails : ∃ after, (Node.program program).run 2 .unlimited (.start .empty)
      = .failed failure after := ⟨_, rfl⟩
  obtain ⟨after, fails⟩ := fails
  obtain ⟨-, together, told⟩ := messages_are_lines source named
  refine ⟨?_, program, after, compiled, fails, ?_⟩
  · refine (together warnings ?_).2 (List.cons_ne_nil _ _)
    rw [parsing]
    exact List.subset_append_right _ _
  · exact told program compiled 2 .unlimited (.start .empty) after failure fails
      Fault.limitRefusal (by decide)

end ConsoleScript
