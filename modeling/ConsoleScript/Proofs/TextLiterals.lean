import ConsoleScript.Evaluation.Expression
import ConsoleScript.Proofs.SourceTiling
import ConsoleScript.Proofs.TokenPrinting
import Mathlib

/-! # Text literals stand for texts

The literals that the lexer accepts and the texts without newlines are in bijection: writing a text
as a literal and evaluating a literal undo each other.

The lexer pairs the quotes of a literal from left to right while it looks for the end, and the
evaluator joins pairs of quotes from left to right between the outer ones. Both find the same pairs,
because the inside of a literal is a sequence of pairs and other bytes (`Bytes.IsQuotedBody`).

* **`Bytes.isQuoted_iff`** — a text literal is a text without newlines, quoted;
* **`Bytes.unquoteLiteral_quoteLiteral`** — reading a quoted text gives the text. -/

namespace ConsoleScript

namespace Bytes

/-- Inside a literal, doubling undoes joining: the quotes are those that were doubled. -/
theorem IsQuotedBody.doubleQuotes_joinQuotes {body : Bytes} (inside : IsQuotedBody body) :
    doubleQuotes (joinQuotes body) = body := by
  induction inside with
  | nil => rfl
  | doubled others ih => rw [joinQuotes, doubleQuotes, if_pos rfl, ih]
  | byte no_quote no_newline others ih =>
    rw [joinQuotes_cons_of_ne no_quote, doubleQuotes, if_neg no_quote, ih]

/-- Inside a literal there is no newline, so none in the text either. -/
theorem IsQuotedBody.newline_not_mem {body : Bytes} (inside : IsQuotedBody body) :
    0x0a ∉ joinQuotes body := by
  induction inside with
  | nil => exact List.not_mem_nil
  | doubled others ih =>
    rw [joinQuotes]
    exact List.not_mem_cons_of_ne_of_not_mem (by decide) ih
  | byte no_quote no_newline others ih =>
    rw [joinQuotes_cons_of_ne no_quote]
    exact List.not_mem_cons_of_ne_of_not_mem no_newline.symm ih

/-- A text without newlines, its quotes doubled, may stand inside a literal. -/
theorem isQuotedBody_doubleQuotes {text : Bytes} (one_line : 0x0a ∉ text) :
    IsQuotedBody (doubleQuotes text) := by
  induction text with
  | nil => exact .nil
  | cons byte rest ih =>
    rw [List.mem_cons, not_or] at one_line
    obtain ⟨no_newline, others⟩ := one_line
    by_cases quote : byte = 0x22
    · rw [doubleQuotes, if_pos quote]
      exact .doubled (ih others)
    · rw [doubleQuotes, if_neg quote]
      exact .byte quote (Ne.symm no_newline) (ih others)

/-- Reading a quoted text gives the text. -/
theorem unquoteLiteral_quoteLiteral (text : Bytes) : unquoteLiteral (quoteLiteral text) = text := by
  rw [quoteLiteral, unquoteLiteral_enclosed, joinQuotes_doubleQuotes]

/-- A text literal is a text without newlines, quoted. -/
theorem isQuoted_iff {raw : Bytes} :
    IsQuoted raw ↔ ∃ text, 0x0a ∉ text ∧ raw = quoteLiteral text := by
  constructor
  · rintro ⟨body, inside, rfl⟩
    refine ⟨joinQuotes body, inside.newline_not_mem, ?_⟩
    rw [quoteLiteral, inside.doubleQuotes_joinQuotes]
  · rintro ⟨text, one_line, rfl⟩
    exact ⟨doubleQuotes text, isQuotedBody_doubleQuotes one_line, rfl⟩

end Bytes

namespace Lexing

/-- The lexemes of text tokens, whatever source they stand in. -/
def textLexemes : Set Bytes :=
  {raw | ∃ source file, ∃ token ∈ (read source file).tokens,
    token.kind = .text ∧ token.lexeme = raw}

/-- A quoted text is read as one text token. -/
theorem read_quoteLiteral {text : Bytes} (one_line : 0x0a ∉ text) (file : Bytes) :
    (read text.quoteLiteral file).tokens.map Token.content
        = [(.text, text.quoteLiteral), (.endOfInput, [])] ∧
      (read text.quoteLiteral file).findings = [] := by
  have literal : TokenKind.text.Language text.quoteLiteral [] :=
    ⟨Bytes.isQuoted_iff.2 ⟨text, one_line, rfl⟩, by decide⟩
  have spelled : TokenKind.text.Spelling text.quoteLiteral := ⟨by decide, by decide, literal⟩
  have cut := spelled.pieces_append literal
  rw [List.append_nil, pieces_nil] at cut
  constructor
  · rw [map_content_tokens, cut]
    rfl
  · rw [findings_read_eq_nil_iff, cut]
    exact List.forall_mem_singleton.2 rfl

/-- The lexeme of a text token is a quoted text. -/
theorem exists_quoteLiteral {source file : Bytes} {token : Token}
    (member : token ∈ (read source file).tokens) (kind : token.kind = .text) :
    ∃ text : Bytes, 0x0a ∉ text ∧ token.lexeme = text.quoteLiteral := by
  obtain ⟨before, own, behind, stands⟩ := Lexing.stands member
  have spelled := stands.spelled
  rw [kind] at spelled
  have same := (stands.lexeme (by simp [kind])).1
  rw [same]
  exact Bytes.isQuoted_iff.1 spelled.1

end Lexing

/-- **Text literals and texts are in bijection.** A text without newlines, quoted, is read as just
one text token with this lexeme, without a finding, and evaluates to the text. Conversely, the
lexeme of any text token of any source is what its text is quoted as. So unquoting is a bijection
from the lexemes of text tokens to the texts without newlines. -/
theorem text_literals_round_trip :
    (∀ text file : Bytes, 0x0a ∉ text →
      (Lexing.read text.quoteLiteral file).tokens.map Token.content
          = [(.text, text.quoteLiteral), (.endOfInput, [])] ∧
        (Lexing.read text.quoteLiteral file).findings = [] ∧
        text.quoteLiteral.unquoteLiteral = text ∧
        ∀ span environment,
          (Expr.text span text.quoteLiteral).evaluate environment = .ok (.text text)) ∧
    (∀ (source file : Bytes), ∀ token ∈ (Lexing.read source file).tokens, token.kind = .text →
      token.lexeme.unquoteLiteral.quoteLiteral = token.lexeme) ∧
    Set.BijOn Bytes.unquoteLiteral Lexing.textLexemes {text | 0x0a ∉ text} := by
  have quoted {source file : Bytes} {token : Token}
      (member : token ∈ (Lexing.read source file).tokens) (kind : token.kind = .text) :
      token.lexeme.unquoteLiteral.quoteLiteral = token.lexeme := by
    obtain ⟨text, -, same⟩ := Lexing.exists_quoteLiteral member kind
    rw [same, Bytes.unquoteLiteral_quoteLiteral]
  refine ⟨?_, fun source file token member kind => quoted member kind, ?_⟩
  · intro text file one_line
    have same := text.unquoteLiteral_quoteLiteral
    obtain ⟨tokens, sound⟩ := Lexing.read_quoteLiteral one_line file
    refine ⟨tokens, sound, same, fun span environment => ?_⟩
    rw [Expr.evaluate, same]
  · -- Quoting is the inverse, from either side.
    have inverse : Set.InvOn Bytes.quoteLiteral Bytes.unquoteLiteral Lexing.textLexemes
        {text | 0x0a ∉ text} := by
      constructor
      · rintro raw ⟨source, file, token, member, kind, rfl⟩
        exact quoted member kind
      · exact fun text _ => text.unquoteLiteral_quoteLiteral
    refine inverse.bijOn ?_ ?_
    · rintro raw ⟨source, file, token, member, kind, rfl⟩
      obtain ⟨text, one_line, same⟩ := Lexing.exists_quoteLiteral member kind
      rw [same, Bytes.unquoteLiteral_quoteLiteral]
      exact one_line
    · intro text one_line
      obtain ⟨tokens, -⟩ := Lexing.read_quoteLiteral one_line []
      have first : (TokenKind.text, text.quoteLiteral)
          ∈ (Lexing.read text.quoteLiteral []).tokens.map Token.content := by
        rw [tokens]
        exact List.mem_cons_self
      obtain ⟨token, member, content⟩ := List.mem_map.1 first
      obtain ⟨kind, lexeme⟩ := Prod.mk.inj content
      exact ⟨_, _, token, member, kind, lexeme⟩

/-- A text of two quotes is written with six: the outer ones and two pairs. -/
theorem text_literals_round_trip_quotes :
    0x0a ∉ Bytes.utf8 "\"\"" ∧
      (Lexing.read (Bytes.utf8 "\"\"\"\"\"\"") []).tokens.map Token.content
        = [(.text, Bytes.utf8 "\"\"\"\"\"\""), (.endOfInput, [])] ∧
      (Bytes.utf8 "\"\"\"\"\"\"").unquoteLiteral = Bytes.utf8 "\"\"" := by
  have one_line : 0x0a ∉ Bytes.utf8 "\"\"" := by decide
  have written : (Bytes.utf8 "\"\"").quoteLiteral = Bytes.utf8 "\"\"\"\"\"\"" := by decide
  obtain ⟨tokens, -, same, -⟩ := text_literals_round_trip.1 (Bytes.utf8 "\"\"") [] one_line
  rw [written] at tokens same
  exact ⟨one_line, tokens, same⟩

end ConsoleScript
