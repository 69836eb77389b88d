import ConsoleScript.Proofs.SessionCourse
import ConsoleScript.Proofs.TokenPrinting

/-! # Sessions follow braces

A session collects lines until their braces are balanced. It counts bytes, not tokens, and so also
the braces inside text literals and comments.

* **`Bytes.count_brace`** — in a text without findings, the bytes of a brace are its tokens, and
  those that stand in text literals and comments (`Bytes.quietText`);
* **`Session.Reachable`**, **`Session.Consistent`** — in every session that lines lead to, the depth
  is the surplus of opening braces in the text that is held back;
* **`Session.runChunk_of_blank`** — running white space does nothing, so dropping it without a run
  makes no difference. -/

namespace ConsoleScript

/-! ## Braces in tokens -/

/-- A byte and a kind of tokens that are the same brace. -/
def IsBrace (byte : UInt8) (kind : TokenKind) : Prop :=
  (byte = 0x7b ∧ kind = .leftBrace) ∨ (byte = 0x7d ∧ kind = .rightBrace)

/-- A brace is in no word and no number literal. -/
theorem IsBrace.foreign {byte : UInt8} {kind : TokenKind} (brace : IsBrace byte kind) :
    Bytes.isPlainLetter byte = false ∧ Bytes.isDigit byte = false ∧ byte ≠ 0x2e ∧ ¬0x80 ≤ byte := by
  rcases brace with ⟨rfl, -⟩ | ⟨rfl, -⟩ <;> decide

namespace Bytes

/-- Behind the first byte of an encoded character above the ASCII range, all bytes are above it. -/
theorem high_of_scalar? {lead : UInt8} {rest : Bytes} {scalar : Nat} (high : 0x80 ≤ lead)
    (decoded : scalar? (lead :: rest) = some (scalar, (lead :: rest).length)) :
    ∀ byte ∈ rest, 0x80 ≤ byte := by
  have trail {byte : UInt8} (continues : isTrail byte = true) : 0x80 ≤ byte := by
    simp only [isTrail, Bool.and_eq_true, decide_eq_true_eq] at continues
    exact continues.1
  simp only [scalar?, if_neg (UInt8.not_lt.2 high)] at decoded
  -- What is left is a character of two, three or four bytes, and nothing behind it.
  have none_behind {more : Bytes} {width : Nat} (fits : width = more.length + width) :
      more = [] :=
    List.eq_nil_of_length_eq_zero (by omega)
  repeat' split at decoded
  all_goals
    simp only [reduceCtorEq, Option.some.injEq, Prod.mk.injEq, List.length_cons] at decoded
  · rename_i second more continues
    obtain rfl := none_behind decoded.2
    exact List.forall_mem_singleton.2 (trail continues)
  · rename_i second third more continues
    obtain rfl := none_behind decoded.2
    simpa using ⟨trail continues.1, trail continues.2.1⟩
  · rename_i second third fourth more continues
    obtain rfl := none_behind decoded.2
    simpa using ⟨trail continues.1, trail continues.2.1, trail continues.2.2.1⟩

variable {byte : UInt8} {kind : TokenKind}

/-- No character of a name holds a brace. -/
theorem IsNamePart.brace_not_mem {unit : Bytes} (part : IsNamePart unit)
    (brace : IsBrace byte kind) : byte ∉ unit := by
  obtain ⟨no_letter, no_digit, -, not_high⟩ := brace.foreign
  rcases part with (⟨own, plain, rfl⟩ | ⟨lead, rest, scalar, rfl, high, decoded, -⟩) |
    ⟨own, digit, rfl⟩
  · rw [List.mem_singleton]
    rintro rfl
    exact absurd plain (Bool.eq_false_iff.1 no_letter)
  · intro member
    rcases List.mem_cons.1 member with rfl | behind
    · exact not_high high
    · exact not_high (high_of_scalar? high decoded byte behind)
  · rw [List.mem_singleton]
    rintro rfl
    exact absurd digit (Bool.eq_false_iff.1 no_digit)

/-- No word holds a brace. -/
theorem IsWord.brace_not_mem {word : Bytes} (is_word : IsWord word) (brace : IsBrace byte kind) :
    byte ∉ word := by
  obtain ⟨first, parts, letter, others, rfl⟩ := is_word
  rw [List.mem_append, List.mem_flatten]
  rintro (here | ⟨part, inside, here⟩)
  · exact IsNamePart.brace_not_mem (.inl letter) brace here
  · exact (others part inside).brace_not_mem brace here

/-- No number literal holds a brace. -/
theorem IsNumeral.brace_not_mem {text : Bytes} (number : IsNumeral text)
    (brace : IsBrace byte kind) : byte ∉ text := by
  obtain ⟨-, no_digit, no_point, -⟩ := brace.foreign
  have no_member {digits : Bytes} (all : AllDigits digits) : byte ∉ digits :=
    fun member => absurd (all byte member) (Bool.eq_false_iff.1 no_digit)
  rcases number with ⟨whole, -, digits, rfl | ⟨fraction, others, rfl⟩⟩ | ⟨fraction, -, digits, rfl⟩
  · exact no_member digits
  · simp [no_member digits, no_member others, no_point]
  · simp [no_member digits, no_point]

end Bytes

/-- Text literals and illegal tokens apart, a token holds a brace exactly if it is the brace. -/
theorem TokenKind.Language.count_brace {byte : UInt8} {brace kind : TokenKind}
    (is_brace : IsBrace byte brace) {token behind : Bytes} (spelled : kind.Language token behind)
    (sound : kind ≠ .illegal) (loud : kind ≠ .text) :
    token.count byte = if kind = brace then 1 else 0 := by
  have word (is_word : Bytes.IsWord token) : token.count byte = 0 :=
    List.count_eq_zero.2 (is_word.brace_not_mem is_brace)
  have reserved {kind : TokenKind} (is : kind.IsReserved token behind) : token.count byte = 0 :=
    word is.2.1
  have number (is_numeral : Bytes.IsNumeral token) : token.count byte = 0 :=
    List.count_eq_zero.2 (is_numeral.brace_not_mem is_brace)
  -- Each kind has fixed signs, which are compared with the byte, or words and numerals.
  rcases is_brace with ⟨rfl, rfl⟩ | ⟨rfl, rfl⟩
  all_goals
    cases kind with
    | illegal => exact absurd rfl sound
    | text => exact absurd rfl loud
    | endOfInput | assign | less | greater | slash => rw [spelled.1]; rfl
    | name => exact word spelled.1
    | number => exact number spelled.1
    | bang =>
      rcases spelled with ⟨rfl, -⟩ | is
      · rfl
      · exact reserved is
    | both | either =>
      rcases spelled with rfl | is
      · rfl
      · exact reserved is
    | ifWord | elseifWord | elseWord | whileWord | consoleWord | trueWord | falseWord | nilWord =>
      exact reserved spelled
    | _ => rw [show token = _ from spelled]; rfl

/-! ## Braces in texts -/

/-- Whether the braces in a piece are none of the language: blanks, comments and text literals. -/
def Piece.isQuiet (piece : Piece) : Bool :=
  piece.sort = .gap || piece.sort = .mark .text

/-- The blanks, comments and text literals of a text. -/
def Bytes.quietText (source : Bytes) : Bytes :=
  ((pieces source).filter Piece.isQuiet).flatMap Piece.text

/-- The number of tokens of a kind. -/
def Lexing.tally (lexing : Lexing) (kind : TokenKind) : Nat :=
  lexing.tokens.countP fun token => token.kind = kind

section Counting

variable {byte : UInt8} {brace : TokenKind} (is_brace : IsBrace byte brace)
include is_brace

/-- A piece that is no flaw is quiet, or holds a brace exactly if it is the brace. -/
theorem Piece.count_brace_first {lead : UInt8} {rest : Bytes}
    (sound : (first lead rest).complaint? = none) :
    (first lead rest).text.count byte
      = (if (first lead rest).kind? = some brace then 1 else 0)
        + if (first lead rest).isQuiet then (first lead rest).text.count byte else 0 := by
  have apart : brace ≠ .text := by
    rcases is_brace with ⟨-, rfl⟩ | ⟨-, rfl⟩ <;> decide
  cases sort : (first lead rest).sort with
  | gap => simp [isQuiet, kind?, sort]
  | flaw reason => cases reason <;> simp [complaint?, sort] at sound
  | mark kind =>
    have found : (first lead rest).kind? = some kind := by rw [kind?, sort]
    -- A text literal may hold braces but counts as quiet; no other token holds a foreign brace.
    by_cases literal : kind = .text
    · simp [isQuiet, sort, found, literal, apart.symm]
    · have loud : (first lead rest).isQuiet = false := by simp [isQuiet, sort, literal]
      have spelled := language_first found (text_first_append_drop lead rest)
      have count := spelled.count_brace is_brace (isOrdinary_of_mark_first sort).2 literal
      simp only [count, found, loud, Option.some.injEq, Bool.false_eq_true, if_false, Nat.add_zero]

/-- The bytes of a brace are the pieces that are the brace, and those inside quiet pieces. -/
theorem Bytes.count_brace_pieces {source : Bytes}
    (sound : ∀ piece ∈ pieces source, piece.complaint? = none) :
    source.count byte
      = (pieces source).countP (fun piece => piece.kind? = some brace)
        + (quietText source).count byte := by
  induction source using pieces.induct with
  | case1 => simp [quietText]
  | case2 lead rest ih =>
    rw [pieces] at sound
    obtain ⟨here, there⟩ := List.forall_mem_cons.1 sound
    have front := Piece.count_brace_first is_brace here
    have behind := ih there
    rw [quietText] at behind ⊢
    rw [pieces, List.countP_cons]
    conv => lhs; rw [← Piece.text_first_append_drop lead rest, List.count_append, front, behind]
    by_cases quiet : (Piece.first lead rest).isQuiet = true
    · rw [List.filter_cons_of_pos quiet, List.flatMap_cons, List.count_append, if_pos quiet]
      simp only [decide_eq_true_eq]
      omega
    · rw [List.filter_cons_of_neg quiet, if_neg quiet]
      simp only [decide_eq_true_eq]
      omega

/-- In a text without findings, the bytes of a brace are the tokens that are the brace, and those
inside blanks, comments and text literals. -/
theorem Bytes.count_brace {source file : Bytes} (sound : (Lexing.read source file).findings = []) :
    source.count byte = (Lexing.read source file).tally brace + (quietText source).count byte := by
  have not_final : brace ≠ .endOfInput := by
    rcases is_brace with ⟨-, rfl⟩ | ⟨-, rfl⟩ <;> decide
  have tally : (Lexing.read source file).tally brace
      = ((Lexing.read source file).tokens.map Token.content).countP fun content =>
          content.1 = brace := by
    rw [List.countP_map]
    rfl
  rw [count_brace_pieces is_brace ((Lexing.findings_read_eq_nil_iff source file).1 sound), tally,
    Lexing.map_content_tokens, List.countP_append, List.countP_filterMap]
  have ending : List.countP (fun content : TokenKind × Bytes => content.1 = brace)
      [(.endOfInput, [])] = 0 := by
    simp [not_final.symm]
  rw [ending, Nat.add_zero]
  congr 2
  -- A piece counts by its kind on either side.
  funext piece
  rw [Piece.content?]
  cases piece.kind? <;> simp

end Counting

/-! ## Running white space -/

/-- Separators before the end of input are no statement, and nothing is found wrong with them. -/
theorem Parsing.read_of_allSeparators {gap : List Token} (separators : Token.AllSeparators gap)
    {final : Token} (final_kind : final.kind = .endOfInput) :
    (read (gap ++ [final])).program.stmts = [] ∧ (read (gap ++ [final])).findings = [] := by
  have visible : Cursor.isSeparator final.kind = false := by
    rw [final_kind]
    rfl
  obtain ⟨reached, skips⟩ := Cursor.skipSeparators_append separators visible []
    (Cursor.ofTokens (gap ++ [final])).last
  have ends : ((Cursor.ofTokens (gap ++ [final])).skipSeparators.statements false)
      = ⟨[], ⟨[final], reached⟩, []⟩ := by
    rw [show (Cursor.ofTokens (gap ++ [final])).skipSeparators = ⟨[final], reached⟩ from skips,
      Cursor.statements_cons, if_pos (.inl final_kind)]
  rw [read, ends]
  exact ⟨rfl, rfl⟩

namespace Session

/-- Running white space without flaws changes no variable and writes nothing. -/
theorem runChunk_of_blank {source : Bytes} (blank : source.trim = [])
    (sound : (Lexing.read source sourceName).findings = []) (fuel : Nat) (style : SessionStyle)
    (environment : Environment) :
    runChunk fuel style environment source = some (environment, []) := by
  obtain ⟨final, final_kind, tokens⟩ := Lexing.tokens_read source sourceName
  have separators := Lexing.allSeparators_of_blank blank
    ((Lexing.findings_read_eq_nil_iff source sourceName).1 sound) (.start sourceName)
  obtain ⟨no_stmts, no_findings⟩ := Parsing.read_of_allSeparators separators final_kind
  rw [← tokens] at no_stmts no_findings
  have compiled : Compilation.compile source sourceName
      = ⟨Lexing.read source sourceName,
          some (Parsing.read (Lexing.read source sourceName).tokens)⟩ := by
    rw [Compilation.compile, sound]
    rfl
  have found : (Compilation.compile source sourceName).findings = [] := by
    rw [compiled]
    exact no_findings
  have program : (Compilation.compile source sourceName).program?
      = some (Parsing.read (Lexing.read source sourceName).tokens).program := by
    rw [compiled, Compilation.program?]
    simp only [no_findings]
    rfl
  -- A program without statements records no event, so nothing is written about it.
  simp only [runChunk, found, program, Program.run, no_stmts, runAll]
  rfl

/-! ## The depth of a session -/

/-- The sessions that lines and cancellations lead to from the beginning. -/
inductive Reachable : Session → Prop where
  /-- A session begins without variables. -/
  | fresh : Reachable .fresh
  /-- A line is fed. -/
  | feed {fuel : Nat} {style : SessionStyle} {session : Session} {line : Bytes} {reply : Reply}
      (earlier : Reachable session) (fed : session.feed fuel style line = some reply) :
      Reachable reply.session
  /-- The unfinished chunk is dropped. -/
  | cancel {session : Session} (earlier : Reachable session) : Reachable session.cancel

/-- The depth of a session is the surplus of opening braces in the text that is held back. -/
def Consistent (session : Session) : Prop :=
  session.pendingText.count 0x7b = session.depth + session.pendingText.count 0x7d

/-- A session between chunks is consistent. -/
theorem consistent_idle (environment : Environment) : Consistent ⟨environment, [], 0⟩ := rfl

namespace Consistent

variable {fuel : Nat} {style : SessionStyle} {session : Session} {line : Bytes} {reply : Reply}

/-- A line is kept with the text before it while that has a surplus of opening braces, else both are
run, or dropped if they are white space. -/
theorem collect_eq (consistent : session.Consistent) :
    session.collect fuel style line =
      let source := (session.chunkOf line).source
      if source.count 0x7d < source.count 0x7b then
        some ⟨⟨session.environment, source, source.count 0x7b - source.count 0x7d⟩, [], true⟩
      else if source.trim.isEmpty then some ⟨⟨session.environment, [], 0⟩, [], true⟩
      else
        (runChunk fuel style session.environment source).map fun result =>
          ⟨⟨result.1, [], 0⟩, result.2, true⟩ := by
  have counts (byte : UInt8) (no_newline : (0x0a : UInt8) ≠ byte) :
      (session.chunkOf line).source.count byte
        = session.pendingText.count byte + line.count byte := by
    simp [chunkOf, List.count_append, no_newline]
  -- Inside a chunk the depth never falls to zero, so it is the difference of the counts there.
  rw [Consistent] at consistent
  have opening := counts 0x7b (by decide)
  have closing := counts 0x7d (by decide)
  have positive : 0 < session.surplus line ↔
      (session.chunkOf line).source.count 0x7d < (session.chunkOf line).source.count 0x7b := by
    rw [surplus]
    omega
  have depth : (session.surplus line).toNat
      = (session.chunkOf line).source.count 0x7b - (session.chunkOf line).source.count 0x7d := by
    rw [surplus]
    omega
  rw [collect]
  simp only [positive, depth]
  rfl

/-- A line leaves a session consistent. -/
theorem feed (consistent : session.Consistent) (fed : session.feed fuel style line = some reply) :
    reply.session.Consistent := by
  rw [Session.feed] at fed
  split at fed
  · -- Commands keep the session or begin a new one.
    rename_i command _
    obtain rfl := Option.some.inj fed
    cases command with
    | exit => exact consistent
    | listVariables => exact consistent
    | clear => exact consistent_idle .empty
  · rw [consistent.collect_eq] at fed
    dsimp only at fed
    split at fed
    · rename_i unfinished
      obtain rfl := Option.some.inj fed
      exact (Nat.sub_add_cancel (Nat.le_of_lt unfinished)).symm
    · split at fed
      · obtain rfl := Option.some.inj fed
        exact consistent_idle session.environment
      · obtain ⟨result, -, rfl⟩ := Option.map_eq_some_iff.1 fed
        exact consistent_idle result.1

end Consistent

/-- Every session that lines lead to is consistent. -/
theorem Reachable.consistent {session : Session} (reachable : session.Reachable) :
    session.Consistent := by
  induction reachable with
  | fresh => exact consistent_idle .empty
  | feed _ fed ih => exact ih.feed fed
  | cancel _ _ => exact consistent_idle _

end Session

/-- **A session follows braces, also those inside text literals and comments.** Feed a line that is
no command to any session that lines lead to, and let the text collected so far have no finding of
the lexer. The session holds the text back exactly if it has more opening than closing braces, its
tokens and the bytes of its quiet pieces counted together; else the text has been run. -/
theorem feed_follows_braces {session : Session} (reachable : session.Reachable) {line : Bytes}
    (plain : session.isPending = false → Session.command? line = none)
    (sound : (Lexing.read (session.chunkOf line).source Session.sourceName).findings = [])
    (fuel : Nat) (style : SessionStyle) :
    let chunk := session.chunkOf line
    let lexing := Lexing.read chunk.source Session.sourceName
    let opening := lexing.tally .leftBrace + chunk.source.quietText.count 0x7b
    let closing := lexing.tally .rightBrace + chunk.source.quietText.count 0x7d
    (closing < opening →
      session.feed fuel style line
        = some ⟨⟨session.environment, chunk.source, opening - closing⟩, [], true⟩) ∧
    (opening ≤ closing →
      session.feed fuel style line
        = (Session.runChunk fuel style session.environment chunk.source).map fun result =>
            ⟨⟨result.1, [], 0⟩, result.2, true⟩) := by
  intro chunk lexing opening closing
  have open_count : chunk.source.count 0x7b = opening :=
    Bytes.count_brace (.inl ⟨rfl, rfl⟩) sound
  have close_count : chunk.source.count 0x7d = closing :=
    Bytes.count_brace (.inr ⟨rfl, rfl⟩) sound
  rw [Session.feed_eq_collect plain, reachable.consistent.collect_eq]
  dsimp only
  rw [show (session.chunkOf line).source = chunk.source from rfl, open_count, close_count]
  constructor
  · intro surplus
    rw [if_pos surplus]
  · intro balanced
    rw [if_neg (Nat.not_lt.2 balanced)]
    split
    · -- Dropping white space is as good as running it.
      rename_i blank
      rw [Session.runChunk_of_blank (List.isEmpty_iff.1 blank) sound]
      rfl
    · rfl

/-- A closing brace inside a comment completes the chunk of an open block: it is run as it is. -/
theorem feed_follows_braces_comment :
    let chunk := sampleSession.chunkOf (Bytes.utf8 "# \x7d")
    let lexing := Lexing.read chunk.source Session.sourceName
    sampleSession.Reachable ∧ lexing.findings = [] ∧ lexing.tally .leftBrace = 1 ∧
      lexing.tally .rightBrace = 0 ∧ chunk.source.quietText.count 0x7d = 1 ∧
      sampleSession.feed 0 ⟨false, false⟩ (Bytes.utf8 "# \x7d")
        = (Session.runChunk 0 ⟨false, false⟩ .empty chunk.source).map fun result =>
            ⟨⟨result.1, [], 0⟩, result.2, true⟩ := by
  intro chunk lexing
  have first : Session.fresh.feed 0 ⟨false, false⟩ (Bytes.utf8 "\x7b console true")
      = some ⟨sampleSession, [], true⟩ := by
    rw [Session.feed_eq_collect fun _ => by cbv]
    rfl
  have reachable : sampleSession.Reachable := .feed .fresh first
  have sound : lexing.findings = [] := by cbv
  refine ⟨reachable, sound, by cbv, by cbv, by cbv, ?_⟩
  exact (feed_follows_braces reachable (fun idle => absurd idle (by decide)) sound 0
    ⟨false, false⟩).2 (by cbv)

/-- An opening brace inside a text literal leaves a line without brace tokens unfinished. -/
theorem feed_follows_braces_quoted :
    let line := Bytes.utf8 "console \"\x7b\""
    let lexing := Lexing.read (line ++ [0x0a]) Session.sourceName
    Session.Reachable .fresh ∧ Session.command? line = none ∧ lexing.findings = [] ∧
      lexing.tally .leftBrace = 0 ∧ lexing.tally .rightBrace = 0 ∧
      Session.fresh.feed 0 ⟨false, false⟩ line = some ⟨⟨.empty, line ++ [0x0a], 1⟩, [], true⟩ := by
  refine ⟨.fresh, by cbv, by cbv, by cbv, by cbv, ?_⟩
  rw [Session.feed_eq_collect fun _ => by cbv]
  rfl

end ConsoleScript
