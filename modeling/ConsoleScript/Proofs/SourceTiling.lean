import ConsoleScript.Proofs.TextJoining
import ConsoleScript.Proofs.TokenLanguages
import Mathlib

/-! # The tokens of a source tile it

Every byte of a source is in exactly one token or in a gap between tokens, and every token is what
its kind says, whatever bytes the source has.

* **`Bytes.IsGap`** — what may stand between tokens: blanks, and comments up to a newline;
* **`Tiles`** — gaps and tokens take turns over a text, and the end of input closes it.
  `Lexing.tiles_readFrom` finds this in what is read, by the recursion that cuts a text into pieces;
* **`Tiles.stands`** — a token of such a list stands at a cut of the source into three parts, the
  second its own text. What is said about single tokens follows from this alone;
* **`Tiling`** — the same seen from outside: offsets, order, slices of the source and gaps. -/

namespace ConsoleScript

namespace Bytes

/-- What stands between tokens, before the text `behind`. -/
inductive IsGap (behind : Bytes) : Bytes → Prop where
  /-- Nothing. -/
  | nil : IsGap behind []
  /-- A space, tab or carriage return. -/
  | blank {byte : UInt8} {rest : Bytes} (spacing : byte = 0x20 ∨ byte = 0x09 ∨ byte = 0x0d)
      (others : IsGap behind rest) : IsGap behind (byte :: rest)
  /-- A comment, opened by `#` or `//`. It reaches up to a newline, which is no part of it, or to
  the end of the source. -/
  | comment {text rest : Bytes} (opens : [0x23] <+: text ∨ [0x2f, 0x2f] <+: text)
      (one_line : 0x0a ∉ text) (ends : ∀ byte, (rest ++ behind).head? = some byte → byte = 0x0a)
      (others : IsGap behind rest) : IsGap behind (text ++ rest)

/-- The bytes of a text from one offset up to another. -/
def between (text : Bytes) (start stop : Int) : Bytes :=
  (text.take stop.toNat).drop start.toNat

/-- The part between two others is what stands between their offsets. -/
theorem between_append (before own behind : Bytes) :
    (before ++ own ++ behind).between before.length (before ++ own).length = own := by
  rw [between, Int.toNat_natCast, Int.toNat_natCast, List.take_left, List.drop_left]

end Bytes

/-- The part of a source that a span covers. -/
def Span.slice (span : Span) (source : Bytes) : Bytes :=
  source.between span.start.offset span.stop.offset

/-- The part of a source behind a span. -/
def Span.behind (span : Span) (source : Bytes) : Bytes :=
  source.drop span.stop.offset.toNat

/-! ## Gaps and tokens in turn -/

/-- The tokens of a text whose first byte stands at `start`. -/
inductive Tiles : Position → Bytes → List Token → Prop where
  /-- At the end, perhaps behind a last gap, stands the end of input. -/
  | done {start : Position} {gap : Bytes} (last : Bytes.IsGap [] gap) :
      Tiles start gap [⟨.endOfInput, [], ⟨start.after gap, start.after gap⟩⟩]
  /-- A gap, perhaps empty, a token, and what follows. -/
  | token {start : Position} {gap own behind lexeme : Bytes} {kind : TokenKind}
      {tokens : List Token} (before : Bytes.IsGap (own ++ behind) gap) (not_empty : own ≠ [])
      (ongoing : kind ≠ .endOfInput) (spelled : kind.Language own behind)
      (same : kind ≠ .newline → lexeme = own ∧ 0x0a ∉ own)
      (others : Tiles (start.after (gap ++ own)) behind tokens) :
      Tiles start (gap ++ (own ++ behind))
        (⟨kind, lexeme, ⟨start.after gap, start.after (gap ++ own)⟩⟩ :: tokens)

namespace Piece

/-- Only the newline itself holds a newline. -/
theorem newline_not_mem_first {lead : UInt8} {rest : Bytes} (other : lead ≠ 0x0a) :
    0x0a ∉ (first lead rest).text := by
  -- The piece is the same as on its line alone, and there it is a part of a line.
  have line : (first lead rest) = first lead (rest.takeWhile (· ≠ 0x0a)) := by
    have parts : rest.takeWhile (· ≠ 0x0a) ++ rest.dropWhile (· ≠ 0x0a) = rest :=
      List.takeWhile_append_dropWhile
    cases behind : rest.dropWhile (· ≠ 0x0a) with
    | nil =>
      rw [behind, List.append_nil] at parts
      rw [parts]
    | cons byte more =>
      have newline : byte = 0x0a := by
        have head : (rest.dropWhile (· ≠ 0x0a)).head? = some byte := by rw [behind]; rfl
        simpa using Bytes.head?_dropWhile_eq_some head
      rw [behind, newline] at parts
      conv => lhs; rw [← parts, first_newline]
  have inside := (text_first_isPrefix lead (rest.takeWhile (· ≠ 0x0a))).subset
  rw [← line] at inside
  intro member
  rcases List.mem_cons.1 (inside member) with here | there
  · exact other here.symm
  · simpa using Bytes.forall_mem_takeWhile rest _ there

/-- The token that a piece makes has the text of the piece as its lexeme, on one line, unless it is
a newline. -/
theorem lexeme_first {lead : UInt8} {rest : Bytes} {kind : TokenKind}
    (found : (first lead rest).kind? = some kind) (other : kind ≠ .newline) :
    (first lead rest).lexeme = (first lead rest).text ∧ 0x0a ∉ (first lead rest).text := by
  constructor
  · have sort : (first lead rest).sort ≠ .mark .newline := by
      intro newline
      rw [kind?, newline, Option.some.injEq] at found
      exact other found.symm
    rw [lexeme, if_neg sort]
  · apply newline_not_mem_first
    rintro rfl
    have newline : (first 0x0a rest).kind? = some .newline := rfl
    rw [newline, Option.some.injEq] at found
    exact other found.symm

end Piece

/-- A piece that makes no token widens the gap behind it. -/
theorem isGap_first_append {lead : UInt8} {rest gap behind : Bytes}
    (no_token : (Piece.first lead rest).kind? = none)
    (whole : (Piece.first lead rest).text ++ (gap ++ behind) = lead :: rest)
    (others : Bytes.IsGap behind gap) :
    Bytes.IsGap behind ((Piece.first lead rest).text ++ gap) := by
  rcases Piece.gap_first no_token whole with ⟨spacing, text⟩ | ⟨opens, one_line, ends⟩
  · have blank : lead = 0x20 ∨ lead = 0x09 ∨ lead = 0x0d := by
      simpa [Bytes.isSpacing, or_assoc] using spacing
    rw [text]
    exact .blank blank others
  · exact .comment opens one_line ends others

/-- A piece that makes no token may stand before any tokens. -/
theorem Tiles.gap {start : Position} {lead : UInt8} {rest text : Bytes} {tokens : List Token}
    (no_token : (Piece.first lead rest).kind? = none)
    (whole : (Piece.first lead rest).text ++ text = lead :: rest)
    (tiles : Tiles (start.after (Piece.first lead rest).text) text tokens) :
    Tiles start ((Piece.first lead rest).text ++ text) tokens := by
  cases tiles with
  | done last =>
    rw [← Position.after_append]
    refine .done (isGap_first_append no_token ?_ last)
    rw [List.append_nil, whole]
  | token before not_empty ongoing spelled same others =>
    rw [← Position.after_append] at others
    rw [← Position.after_append, ← Position.after_append]
    rw [← List.append_assoc (Piece.first lead rest).text] at others ⊢
    rw [← List.append_assoc (Piece.first lead rest).text]
    exact .token (isGap_first_append no_token whole before) not_empty ongoing spelled same others

namespace Lexing

/-- The tokens of a text are the one that its first piece makes, if there is one, and those of what
follows. -/
theorem tokens_readFrom_cons (start : Position) (lead : UInt8) (rest : Bytes) :
    (readFrom start (lead :: rest)).tokens
      = (PlacedPiece.token? ⟨Piece.first lead rest,
          ⟨start, start.after (Piece.first lead rest).text⟩⟩).toList
        ++ (readFrom (start.after (Piece.first lead rest).text)
          (rest.drop ((Piece.first lead rest).text.length - 1))).tokens := by
  have stop : start.after (lead :: rest) = (start.after (Piece.first lead rest).text).after
      (rest.drop ((Piece.first lead rest).text.length - 1)) := by
    rw [← Position.after_append, Piece.text_first_append_drop]
  simp only [readFrom, stop]
  rw [pieces, layOut_cons, List.filterMap_cons, ← List.append_assoc]
  congr 1
  split
  · rename_i none
    rw [none]
    rfl
  · rename_i token some
    rw [some]
    rfl

/-- What is read from a text tiles it, wherever the text stands. -/
theorem tiles_readFrom (start : Position) (source : Bytes) :
    Tiles start source (readFrom start source).tokens := by
  induction source using pieces.induct generalizing start with
  | case1 =>
    have nothing : (readFrom start []).tokens = [⟨.endOfInput, [], ⟨start, start⟩⟩] := by
      simp [readFrom]
    rw [nothing]
    exact .done .nil
  | case2 lead rest ih =>
    have whole := Piece.text_first_append_drop lead rest
    have tail := ih (start.after (Piece.first lead rest).text)
    rw [tokens_readFrom_cons]
    generalize rest.drop ((Piece.first lead rest).text.length - 1) = behind at whole tail
    cases found : (Piece.first lead rest).kind? with
    | none =>
      have tiles := Tiles.gap found whole tail
      rw [whole] at tiles
      simpa [PlacedPiece.token?, found] using tiles
    | some kind =>
      have tiles := Tiles.token .nil (Piece.text_first_ne_nil lead rest)
        (fun final => Piece.kind?_first_ne_endOfInput lead rest (final ▸ found))
        (Piece.language_first found whole) (Piece.lexeme_first found) tail
      rw [List.nil_append, whole] at tiles
      simpa [PlacedPiece.token?, found] using tiles

end Lexing

/-! ## Where tokens stand -/

/-- A token stands in a source whose first byte stands at `origin`: the source is what precedes the
token, its own text and what follows it. -/
structure Token.Stands (origin : Position) (source before own behind : Bytes) (token : Token) :
    Prop where
  /-- The three parts are the source. -/
  parts : source = before ++ own ++ behind
  /-- The span begins and ends where the token's own text does. -/
  span : token.span = ⟨origin.after before, origin.after (before ++ own)⟩
  /-- The own text is in the language of the token's kind. -/
  spelled : token.kind.Language own behind
  /-- Except for a newline, the lexeme is the own text, and on one line. -/
  lexeme : token.kind ≠ .newline → token.lexeme = own ∧ 0x0a ∉ own
  /-- Only the end of input has no text of its own. -/
  not_empty : token.kind ≠ .endOfInput → own ≠ []

namespace Token.Stands

variable {file source before own behind : Bytes} {token : Token}

theorem offset_start (stands : token.Stands (.start file) source before own behind) :
    token.span.start.offset = before.length := by
  rw [stands.span, Position.offset_after, Position.start, Int.zero_add]

theorem offset_stop (stands : token.Stands (.start file) source before own behind) :
    token.span.stop.offset = (before ++ own).length := by
  rw [stands.span, Position.offset_after, Position.start, Int.zero_add]

theorem slice_eq (stands : token.Stands (.start file) source before own behind) :
    token.span.slice source = own := by
  rw [Span.slice, stands.offset_start, stands.offset_stop, stands.parts, Bytes.between_append]

theorem behind_eq (stands : token.Stands (.start file) source before own behind) :
    token.span.behind source = behind := by
  rw [Span.behind, stands.offset_stop, Int.toNat_natCast, stands.parts, List.drop_left]

end Token.Stands

/-- The gaps before the tokens of a list, each from the end of the token before to the beginning of
the next, the first from the offset `reached`. -/
def Token.gaps (reached : Int) : List Token → List (Int × Int)
  | [] => []
  | token :: tokens =>
    (reached, token.span.start.offset) :: gaps token.span.stop.offset tokens

/-- The parts of a source that a list of tokens covers, from the offset `reached` on: each gap and
the token behind it. -/
def Token.cover (source : Bytes) (reached : Int) : List Token → Bytes
  | [] => []
  | token :: tokens =>
    source.between reached token.span.start.offset ++ token.span.slice source
      ++ cover source token.span.stop.offset tokens

/-- The position has the bytes of `front` before it. -/
def Position.Behind (start : Position) (front : Bytes) : Prop :=
  start.offset = front.length

namespace Position.Behind

variable {start : Position} {front : Bytes}

theorem behind_after (here : start.Behind front) (text : Bytes) :
    (start.after text).Behind (front ++ text) := by
  rw [Behind, Position.offset_after, here, List.length_append]
  omega

/-- The text that is read from a position on is what stands there. -/
theorem between_after (here : start.Behind front) (text behind : Bytes) :
    (front ++ (text ++ behind)).between start.offset (start.after text).offset = text := by
  rw [here.behind_after text, here, ← List.append_assoc, Bytes.between_append]

theorem drop_after (here : start.Behind front) (text behind : Bytes) :
    (front ++ (text ++ behind)).drop (start.after text).offset.toNat = behind := by
  rw [here.behind_after text, Int.toNat_natCast, ← List.append_assoc, List.drop_left]

end Position.Behind

namespace Tiles

variable {start origin : Position} {front text : Bytes} {tokens : List Token}

/-- Every token of a tiled text stands in it. -/
theorem stands (tiles : Tiles start text tokens) (here : start = origin.after front)
    {token : Token} (member : token ∈ tokens) :
    ∃ before own behind, token.Stands origin (front ++ text) before own behind := by
  induction tiles generalizing front with
  | @done start gap last =>
    obtain rfl := List.mem_singleton.1 member
    refine ⟨front ++ gap, [], [], ?_⟩
    refine ⟨by simp, ?_, ⟨rfl, rfl⟩, fun _ => ⟨rfl, by simp⟩, fun ongoing => absurd rfl ongoing⟩
    rw [List.append_nil, Position.after_append, here]
  | @token start gap own behind lexeme kind tokens before not_empty _ spelled same others ih =>
    rcases List.mem_cons.1 member with rfl | there
    · refine ⟨front ++ gap, own, behind, ?_⟩
      refine ⟨by simp, ?_, spelled, same, fun _ => not_empty⟩
      rw [here, ← Position.after_append, ← Position.after_append, List.append_assoc]
    · have further : start.after (gap ++ own) = origin.after (front ++ (gap ++ own)) := by
        rw [here, ← Position.after_append]
      have found := ih further there
      rwa [List.append_assoc, List.append_assoc] at found

/-- The end of input apart, every token takes at least one byte. -/
theorem length_le (tiles : Tiles start text tokens) : tokens.length ≤ text.length + 1 := by
  induction tiles with
  | done last => simp
  | @token start gap own behind lexeme kind tokens before not_empty _ spelled same others ih =>
    have positive := List.length_pos_iff.2 not_empty
    simp only [List.length_cons, List.length_append]
    omega

/-- No token begins before the text. -/
theorem offset_le (tiles : Tiles start text tokens) {token : Token} (member : token ∈ tokens) :
    start.offset ≤ token.span.start.offset := by
  induction tiles with
  | done last =>
    obtain rfl := List.mem_singleton.1 member
    rw [Position.offset_after]
    omega
  | token before not_empty ongoing spelled same others ih =>
    rcases List.mem_cons.1 member with rfl | there
    · rw [Position.offset_after]
      omega
    · have further := ih there
      rw [Position.offset_after] at further
      omega

/-- The tokens stand in order and do not overlap. -/
theorem ordered (tiles : Tiles start text tokens) :
    tokens.Pairwise fun first second => first.span.stop.offset ≤ second.span.start.offset := by
  induction tiles with
  | done last => exact List.pairwise_singleton _ _
  | token before not_empty ongoing spelled same others ih =>
    exact List.pairwise_cons.2 ⟨fun _ member => others.offset_le member, ih⟩

/-- Between tokens stand gaps. -/
theorem isGap (tiles : Tiles start text tokens) (here : start.Behind front) :
    ∀ gap ∈ Token.gaps start.offset tokens,
      Bytes.IsGap ((front ++ text).drop gap.2.toNat) ((front ++ text).between gap.1 gap.2) := by
  -- The first gap reaches from the end of `front` to the first token.
  have first {start : Position} {front gap behind : Bytes} (here : start.Behind front)
      (is_gap : Bytes.IsGap behind gap) :
      Bytes.IsGap ((front ++ (gap ++ behind)).drop (start.after gap).offset.toNat)
        ((front ++ (gap ++ behind)).between start.offset (start.after gap).offset) := by
    rw [here.between_after, here.drop_after]
    exact is_gap
  induction tiles generalizing front with
  | @done start gap last =>
    have only := first here last
    rw [List.append_nil] at only
    exact List.forall_mem_singleton.2 only
  | @token start gap own behind lexeme kind tokens before not_empty _ spelled same others ih =>
    have rest := ih (here.behind_after (gap ++ own))
    rw [List.append_assoc, List.append_assoc] at rest
    exact List.forall_mem_cons.2 ⟨first here before, rest⟩

/-- Gaps and tokens together are the text. -/
theorem cover_eq (tiles : Tiles start text tokens) (here : start.Behind front) :
    Token.cover (front ++ text) start.offset tokens = text := by
  induction tiles generalizing front with
  | @done start gap last =>
    have whole := here.between_after gap []
    have nothing := (here.behind_after gap).between_after [] []
    simp only [List.append_nil, Position.after_nil] at whole nothing
    rw [Token.cover, Token.cover, Span.slice, whole, nothing, List.append_nil, List.append_nil]
  | @token start gap own behind lexeme kind tokens before not_empty _ spelled same others ih =>
    have rest := ih (here.behind_after (gap ++ own))
    have slice := (here.behind_after gap).between_after own behind
    rw [List.append_assoc, List.append_assoc] at rest
    rw [List.append_assoc, ← Position.after_append] at slice
    rw [Token.cover, Span.slice, here.between_after, slice, rest, List.append_assoc]

end Tiles

/-! ## The tiling -/

/-- How the tokens of a source lie in it. -/
structure Tiling (source : Bytes) (tokens : List Token) : Prop where
  /-- There are at most as many tokens as bytes, and one more. -/
  length_le : tokens.length ≤ source.length + 1
  /-- The last token is the only end of input, and stands at the end. -/
  ends : ∃ (marks : List Token) (final : Token), tokens = marks ++ [final] ∧
    (∀ token ∈ marks, token.kind ≠ .endOfInput) ∧ final.kind = .endOfInput ∧
    final.span.start.offset = source.length ∧ final.span.stop.offset = source.length
  /-- Every other token takes at least one byte. -/
  not_empty : ∀ token ∈ tokens, token.kind ≠ .endOfInput →
    token.span.start.offset < token.span.stop.offset
  /-- The tokens stand in order, and none reaches into the next. -/
  ordered : tokens.Pairwise fun first second => first.span.stop.offset ≤ second.span.start.offset
  /-- Except for newlines, the lexeme of a token is what its span covers. -/
  lexeme_eq : ∀ token ∈ tokens, token.kind ≠ .newline → token.lexeme = token.span.slice source
  /-- A newline covers one newline byte. -/
  newline_eq : ∀ token ∈ tokens, token.kind = .newline → token.span.slice source = [0x0a]
  /-- What stands before, between and behind the tokens is nothing but blanks and comments. -/
  isGap : ∀ gap ∈ Token.gaps 0 tokens,
    Bytes.IsGap (source.drop gap.2.toNat) (source.between gap.1 gap.2)
  /-- Gaps and tokens together are the source. -/
  cover_eq : Token.cover source 0 tokens = source

/-- Every token of a source stands in it. -/
theorem Lexing.stands {source file : Bytes} {token : Token}
    (member : token ∈ (read source file).tokens) :
    ∃ before own behind, token.Stands (.start file) source before own behind := by
  have here : Position.start file = (Position.start file).after [] := rfl
  exact (tiles_readFrom (.start file) source).stands here member

/-- Whatever bytes a source has, its tokens tile it. -/
theorem tokens_tile_source (source file : Bytes) :
    Tiling source (Lexing.read source file).tokens := by
  have tiles : Tiles (.start file) source (Lexing.read source file).tokens :=
    Lexing.tiles_readFrom (.start file) source
  have here : (Position.start file).Behind [] := rfl
  refine ⟨tiles.length_le, ?_, ?_, tiles.ordered, ?_, ?_, tiles.isGap here, tiles.cover_eq here⟩
  · refine ⟨Lexing.marks (.start file) source, _, rfl, Lexing.ongoing_marks _ source, rfl, ?_, ?_⟩
    all_goals simp [Position.start]
  · intro token member ongoing
    obtain ⟨before, own, behind, stands⟩ := Lexing.stands member
    have positive := List.length_pos_iff.2 (stands.not_empty ongoing)
    rw [stands.offset_start, stands.offset_stop, List.length_append]
    omega
  · intro token member other
    obtain ⟨before, own, behind, stands⟩ := Lexing.stands member
    rw [stands.slice_eq]
    exact (stands.lexeme other).1
  · intro token member newline
    obtain ⟨before, own, behind, stands⟩ := Lexing.stands member
    have spelled := stands.spelled
    rw [newline] at spelled
    rw [stands.slice_eq]
    exact spelled

/-! ## Classification -/

/-- Every token is in the language of its kind, before what follows it in the source: it could not
be longer. Its lexeme is its text and on one line, a newline's apart, and a word is a name exactly
if it is not reserved. -/
theorem tokens_classified {source file : Bytes} {token : Token}
    (member : token ∈ (Lexing.read source file).tokens) :
    token.kind.Language (token.span.slice source) (token.span.behind source) ∧
      (token.kind ≠ .newline →
        token.lexeme = token.span.slice source ∧ 0x0a ∉ token.span.slice source) ∧
      (Bytes.IsWord (token.span.slice source) →
        (token.kind = .name ↔ token.span.slice source ∉ TokenKind.reservedWords.map Prod.fst)) := by
  obtain ⟨before, own, behind, stands⟩ := Lexing.stands member
  rw [stands.slice_eq, stands.behind_eq]
  exact ⟨stands.spelled, stands.lexeme, stands.spelled.eq_name_iff⟩

/-- In `iffy<.5` the word that starts like a reserved one is a name, since it takes every character
of a name. -/
theorem tokens_classified_longer_word :
    let token : Token := ⟨.name, Bytes.utf8 "iffy", ⟨⟨[], 0, 1, 1⟩, ⟨[], 4, 1, 5⟩⟩⟩
    token ∈ (Lexing.read (Bytes.utf8 "iffy<.5") []).tokens ∧
      TokenKind.name.Language (Bytes.utf8 "iffy") (Bytes.utf8 "<.5") := by
  have member : (⟨.name, Bytes.utf8 "iffy", ⟨⟨[], 0, 1, 1⟩, ⟨[], 4, 1, 5⟩⟩⟩ : Token)
      ∈ (Lexing.read (Bytes.utf8 "iffy<.5") []).tokens := by
    cbv
    exact .head _
  exact ⟨member, (tokens_classified member).1⟩

end ConsoleScript
