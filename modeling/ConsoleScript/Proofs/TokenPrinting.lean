import ConsoleScript.Proofs.TextJoining
import ConsoleScript.Proofs.TokenLanguages

/-! # Printed tokens are read back

Reading undoes printing: tokens that are written one behind the other, with blanks between them, are
read back as the same tokens.

* **`Piece.first_of_language`** — a text in the language of a kind, before a text that may follow
  it, is the piece at the front. It is the converse of `Piece.language_first`, class by class of
  tokens;
* **`TokenKind.Spelling`** — how a token of a kind is spelled. A blank may follow every spelling;
* **`PrintedToken`** — a spelling with its blanks, and with a comment if it is a newline;
* **`PrintedToken.pieces_print_append`** — a printed token is cut into gaps and the one mark that it
  is, whatever follows. -/

namespace ConsoleScript

namespace Bytes

/-! ## Words -/

/-- Before any text, a character of a name is as wide as its bytes. -/
theorem IsNamePart.nameCharWidth_eq {unit : Bytes} (part : IsNamePart unit) (more : Bytes) :
    nameCharWidth (unit ++ more) = unit.length := by
  rcases part with letter | ⟨byte, digit, rfl⟩
  · have width := letter.letterWidth_eq more
    rcases letter with ⟨byte, plain, rfl⟩ | ⟨lead, rest, scalar, rfl, high, -⟩
    · have no_digit : isDigit byte = false := by
        cases digit : isDigit byte with
        | false => rfl
        | true => rw [(not_plain_of_digit digit).1] at plain; exact absurd plain Bool.false_ne_true
      rw [List.singleton_append] at width ⊢
      rw [nameCharWidth, no_digit, if_neg Bool.false_ne_true, width]
    · rw [List.cons_append] at width ⊢
      rw [nameCharWidth, (not_plain_of_high high).2.1, if_neg Bool.false_ne_true, width]
  · rw [List.singleton_append, nameCharWidth, if_pos digit]
    rfl

/-- Characters of a name that no further one follows are the run at the front. -/
theorem nameRun_flatten_append {parts : List Bytes} (are_parts : ∀ part ∈ parts, IsNamePart part)
    {behind : Bytes} (ends : ¬StartsPart behind) :
    nameRun (parts.flatten ++ behind) = parts.flatten := by
  induction parts with
  | nil =>
    have narrow : nameCharWidth behind = 0 := by
      rw [startsPart_iff] at ends
      omega
    cases behind with
    | nil => rw [List.flatten_nil, List.nil_append, nameRun]
    | cons lead rest => rw [List.flatten_nil, List.nil_append, nameRun, narrow]
  | cons part parts ih =>
    obtain ⟨here, there⟩ := List.forall_mem_cons.1 are_parts
    have width := here.nameCharWidth_eq (parts.flatten ++ behind)
    cases part with
    | nil =>
      have wide := here.nameCharWidth_pos (parts.flatten ++ behind)
      rw [width] at wide
      exact absurd wide (Nat.lt_irrefl 0)
    | cons lead rest =>
      rw [List.length_cons, List.cons_append] at width
      rw [List.flatten_cons, List.append_assoc, List.cons_append, nameRun, width]
      show lead :: (rest ++ (parts.flatten ++ behind)).take rest.length
        ++ nameRun ((rest ++ (parts.flatten ++ behind)).drop rest.length) = _
      rw [List.take_left, List.drop_left, ih there]

/-- A word that no further character of a name follows is the run at the front. -/
theorem IsWord.nameRun_append {word behind : Bytes} (is_word : IsWord word)
    (ends : ¬StartsPart behind) :
    startsName (word ++ behind) = true ∧ nameRun (word ++ behind) = word := by
  obtain ⟨first, parts, letter, are_parts, rfl⟩ := is_word
  constructor
  · have width := letter.letterWidth_eq (parts.flatten ++ behind)
    have positive := letter.length_pos
    rw [startsName, List.append_assoc, width, decide_eq_true_eq]
    exact positive
  · have all_parts : ∀ part ∈ first :: parts, IsNamePart part :=
      List.forall_mem_cons.2 ⟨.inl letter, are_parts⟩
    have run := nameRun_flatten_append all_parts ends
    rwa [List.flatten_cons] at run

/-! ## Number literals -/

/-- A text at whose front no character of a name stands starts with no digit. -/
theorem head?_any_isDigit {text : Bytes} (ends : ¬StartsPart text) :
    text.head?.any isDigit = false := by
  cases text with
  | nil => rfl
  | cons byte rest =>
    cases digit : isDigit byte with
    | false => exact digit
    | true => exact absurd ⟨[byte], rest, rfl, .inr ⟨byte, digit, rfl⟩⟩ ends

/-- Accepted bytes before a text that starts with none are the run at its front. -/
theorem span_append {accepts : UInt8 → Bool} {front behind : Bytes}
    (accepted : ∀ byte ∈ front, accepts byte = true) (ends : behind.head?.any accepts = false) :
    (front ++ behind).takeWhile accepts = front ∧ (front ++ behind).dropWhile accepts = behind := by
  rw [List.takeWhile_append_of_pos accepted, List.dropWhile_append_of_pos accepted]
  cases behind with
  | nil => exact ⟨List.append_nil _, rfl⟩
  | cons byte rest =>
    have refused : ¬accepts byte = true := by simpa using ends
    rw [List.takeWhile_cons_of_neg refused, List.dropWhile_cons_of_neg refused]
    exact ⟨List.append_nil _, rfl⟩

/-- A point with digits behind it continues the digits before it. -/
theorem numeral_of_point {whole fraction behind : Bytes} (before : AllDigits whole)
    (after : AllDigits fraction) (ends : behind.head?.any isDigit = false) :
    numeral (whole ++ 0x2e :: fraction ++ behind) = whole ++ 0x2e :: fraction := by
  have point : (0x2e :: (fraction ++ behind)).head?.any isDigit = false := rfl
  obtain ⟨taken, dropped⟩ := span_append before point
  rw [List.append_assoc, List.cons_append, numeral, taken, dropped]
  show whole ++ 0x2e :: (fraction ++ behind).takeWhile isDigit = _
  rw [(span_append after ends).1]

/-- A number literal that neither a character of a name nor a point follows is the numeral at the
front, and does not run on. -/
theorem IsNumeral.numeral_append {text behind : Bytes} (number : IsNumeral text)
    (ends : ¬StartsPart behind) (no_point : behind.head? ≠ some 0x2e) :
    numeral (text ++ behind) = text ∧ runsOn behind = false := by
  have no_digit := head?_any_isDigit ends
  constructor
  · rcases number with ⟨whole, -, digits, parts⟩ | ⟨fraction, -, others, rfl⟩
    · rcases parts with rfl | ⟨fraction, others, rfl⟩
      · obtain ⟨taken, dropped⟩ := span_append digits no_digit
        rw [numeral, taken, dropped]
        split
        · exact absurd rfl no_point
        · rfl
      · exact numeral_of_point digits others no_digit
    · have none : AllDigits [] := by simp [AllDigits]
      exact numeral_of_point none others no_digit
  · have no_letter : startsName behind = false := by
      rw [startsPart_iff] at ends
      cases behind with
      | nil => rfl
      | cons byte rest =>
        have plain : ¬isDigit byte = true := by simpa using no_digit
        rw [nameCharWidth, if_neg plain] at ends
        simpa [startsName] using ends
    rw [runsOn, no_letter, Bool.false_or]
    simpa using no_point

/-- A number literal starts with a digit, or with a point before one. -/
theorem IsNumeral.starts {lead : UInt8} {rest : Bytes} (number : IsNumeral (lead :: rest))
    (behind : Bytes) :
    isDigit lead = true ∨ (lead = 0x2e ∧ (rest ++ behind).head?.any isDigit = true) := by
  rcases number with ⟨whole, some_digit, digits, parts⟩ | ⟨fraction, some_digit, digits, parts⟩
  · cases whole with
    | nil => exact absurd rfl some_digit
    | cons first others =>
      have same : lead = first := by
        rcases parts with parts | ⟨fraction, -, parts⟩
        · exact (List.cons.inj parts).1
        · exact (List.cons.inj parts).1
      rw [same]
      exact .inl (digits first List.mem_cons_self)
  · obtain ⟨rfl, rfl⟩ := List.cons.inj parts
    cases rest with
    | nil => exact absurd rfl some_digit
    | cons first others => exact .inr ⟨rfl, digits first List.mem_cons_self⟩

/-! ## Text literals -/

/-- Behind an opening quote, a body and a quote that no other follows close the literal. -/
theorem IsQuotedBody.quotedTail_append {body behind : Bytes} (inside : IsQuotedBody body)
    (next : behind.head? ≠ some 0x22) :
    quotedTail (body ++ 0x22 :: behind) = (body ++ [0x22], true) := by
  induction inside with
  | nil =>
    rw [List.nil_append, quotedTail]
    · rfl
    · rintro rest rfl
      exact next rfl
  | doubled others ih =>
    rw [List.cons_append, List.cons_append, quotedTail, ih]
    rfl
  | byte no_quote no_newline others ih =>
    rw [List.cons_append, quotedTail, if_neg no_newline, ih]
    · rfl
    · rintro rest rfl
      exact absurd rfl no_quote
    · exact no_quote

end Bytes

/-- A word that is not reserved is a name. -/
theorem TokenKind.ofWord_of_not_mem {word : Bytes} (free : word ∉ reservedWords.map Prod.fst) :
    ofWord word = .name := by
  rw [ofWord]
  cases found : reservedWords.lookup word with
  | none => rfl
  | some kind =>
    obtain ⟨before, behind, parts, -⟩ := List.lookup_eq_some_iff.1 found
    exact absurd (by simp [parts]) free

/-! ## The piece at the front -/

namespace Piece

/-- What starts neither a gap, a newline nor a text literal is a number, a word or a sign. -/
theorem first_of_other {lead : UInt8} {rest : Bytes} (blank : Bytes.isSpacing lead = false)
    (hash : lead ≠ 0x23) (no_comment : ¬(lead = 0x2f ∧ rest.head? = some 0x2f))
    (newline : lead ≠ 0x0a) (quote : lead ≠ 0x22) :
    first lead rest =
      if Bytes.isDigit lead ∨ (lead = 0x2e ∧ (rest.head?.any Bytes.isDigit) = true) then
        ofNumeral (lead :: rest)
      else if Bytes.startsName (lead :: rest) then ofName (lead :: rest)
      else ofSign lead rest := by
  have comment : ¬(lead = 0x23 ∨ (lead = 0x2f ∧ rest.head? = some 0x2f)) :=
    not_or.2 ⟨hash, no_comment⟩
  rw [first, blank, if_neg Bool.false_ne_true, if_neg comment, if_neg newline, if_neg quote]

/-- A word that no further character of a name follows is the piece at the front. -/
theorem first_of_word {lead : UInt8} {rest behind : Bytes} (is_word : Bytes.IsWord (lead :: rest))
    (ends : ¬Bytes.StartsPart behind) :
    first lead (rest ++ behind) = ⟨.mark (.ofWord (lead :: rest)), lead :: rest⟩ := by
  obtain ⟨starts, run⟩ := is_word.nameRun_append ends
  obtain ⟨byte, others, parts, class_of_lead⟩ := is_word.lead
  obtain ⟨rfl, -⟩ := List.cons.inj parts
  -- A word starts with no ASCII character other than a letter.
  have differs (byte : UInt8) (plain : Bytes.isPlainLetter byte = false) (low : byte < 0x80) :
      lead ≠ byte := by
    rintro rfl
    rcases class_of_lead with letter | high
    · exact absurd letter (by simp [plain])
    · exact absurd high (UInt8.not_le.2 low)
  have no_digit : ¬Bytes.isDigit lead = true := by
    intro digit
    obtain ⟨plain, low⟩ := Bytes.not_plain_of_digit digit
    exact differs lead plain low rfl
  have blank : Bytes.isSpacing lead = false := by
    simp [Bytes.isSpacing, differs 0x20 rfl (by decide), differs 0x09 rfl (by decide),
      differs 0x0d rfl (by decide)]
  rw [List.cons_append] at starts run
  rw [first_of_other blank (differs _ rfl (by decide))
    (fun comment => differs 0x2f rfl (by decide) comment.1) (differs _ rfl (by decide))
    (differs _ rfl (by decide)), if_neg, if_pos starts, ofName, run]
  rintro (digit | ⟨point, -⟩)
  · exact no_digit digit
  · exact differs 0x2e rfl (by decide) point

/-- A number literal that neither a character of a name nor a point follows is the piece at the
front. -/
theorem first_of_numeral {lead : UInt8} {rest behind : Bytes}
    (number : Bytes.IsNumeral (lead :: rest)) (ends : ¬Bytes.StartsPart behind)
    (no_point : behind.head? ≠ some 0x2e) :
    first lead (rest ++ behind) = ⟨.mark .number, lead :: rest⟩ := by
  obtain ⟨numeral, stops⟩ := number.numeral_append ends no_point
  have starts := number.starts behind
  have differs (byte : UInt8) (other : Bytes.isDigit byte = false) (no_point : byte ≠ 0x2e) :
      lead ≠ byte := by
    rintro rfl
    rcases starts with digit | ⟨point, -⟩
    · exact absurd digit (by simp [other])
    · exact no_point point
  have blank : Bytes.isSpacing lead = false := by
    simp [Bytes.isSpacing, differs 0x20 rfl (by decide), differs 0x09 rfl (by decide),
      differs 0x0d rfl (by decide)]
  have behind_eq : (lead :: (rest ++ behind)).drop (lead :: rest).length = behind :=
    Bytes.drop_length_of_append rfl
  rw [List.cons_append] at numeral
  rw [first_of_other blank (differs _ rfl (by decide))
    (fun comment => differs 0x2f rfl (by decide) comment.1) (differs _ rfl (by decide))
    (differs _ rfl (by decide)), if_pos starts]
  simp only [ofNumeral, numeral, behind_eq, stops, Bool.false_eq_true, if_false]

/-- A text literal that no quote follows is the piece at the front. -/
theorem first_of_quoted {lead : UInt8} {rest behind : Bytes}
    (literal : Bytes.IsQuoted (lead :: rest)) (next : behind.head? ≠ some 0x22) :
    first lead (rest ++ behind) = ⟨.mark .text, lead :: rest⟩ := by
  obtain ⟨body, inside, parts⟩ := literal
  rw [List.cons_append] at parts
  obtain ⟨rfl, rfl⟩ := List.cons.inj parts
  have tail := inside.quotedTail_append next
  have front : first 0x22 (body ++ [0x22] ++ behind) = ofQuoted (body ++ [0x22] ++ behind) := rfl
  rw [front, ofQuoted, List.append_assoc, List.singleton_append, tail]
  rfl

/-- The bytes that signs start with. -/
def signLeads : List UInt8 :=
  [0x28, 0x29, 0x7b, 0x7d, 0x3b, 0x2b, 0x2d, 0x2a, 0x2f, 0x25, 0x5e, 0x21, 0x3d, 0x3c, 0x3e, 0x26,
    0x7c]

/-- A byte that signs start with starts a sign, unless it opens a comment. -/
theorem first_of_sign {lead : UInt8} {rest : Bytes} (sign : lead ∈ signLeads)
    (no_comment : ¬(lead = 0x2f ∧ rest.head? = some 0x2f)) :
    first lead rest = ofSign lead rest := by
  have no_other : ∀ byte ∈ signLeads, Bytes.isSpacing byte = false ∧ byte ≠ 0x23 ∧ byte ≠ 0x0a ∧
      byte ≠ 0x22 ∧ Bytes.isDigit byte = false ∧ byte ≠ 0x2e ∧
      Bytes.isPlainLetter byte = false ∧ byte < 0x80 := by
    decide +kernel
  obtain ⟨blank, hash, newline, quote, no_digit, no_point, no_letter, low⟩ := no_other lead sign
  have no_name : ¬Bytes.startsName (lead :: rest) = true := by
    simp [Bytes.startsName, Bytes.letterWidth, no_letter, low]
  rw [first_of_other blank hash no_comment newline quote, if_neg, if_neg no_name]
  rintro (digit | ⟨point, -⟩)
  · exact absurd digit (by simp [no_digit])
  · exact no_point point

/-- A sign of two bytes is the piece at the front, whatever follows. -/
theorem first_of_pair {lead next : UInt8} {kind : TokenKind}
    (spelled : TokenKind.ofPair? lead next = some kind) (behind : Bytes) :
    first lead (next :: behind) = ⟨.mark kind, [lead, next]⟩ := by
  have sign : lead ∈ signLeads ∧ lead ≠ 0x2f := by
    unfold TokenKind.ofPair? at spelled
    split at spelled
    all_goals cases spelled
    all_goals decide
  rw [first_of_sign sign.1 fun comment => sign.2 comment.1, ofSign, List.head?_cons,
    Option.bind_some, spelled]
  rfl

/-- A sign of one byte is the piece at the front, unless the next byte makes a longer sign of it or
opens a comment. -/
theorem first_of_byte {lead : UInt8} {kind : TokenKind} {behind : Bytes}
    (spelled : TokenKind.ofByte? lead = some kind)
    (no_equal : lead ∈ [0x21, 0x3d, 0x3c, 0x3e] → behind.head? ≠ some 0x3d)
    (no_comment : lead = 0x2f → behind.head? ≠ some 0x2f) :
    first lead behind = ⟨.mark kind, [lead]⟩ := by
  have sign : lead ∈ signLeads := by
    unfold TokenKind.ofByte? at spelled
    split at spelled
    all_goals cases spelled
    all_goals decide
  have alone : behind.head?.bind (TokenKind.ofPair? lead) = none := by
    rw [Option.bind_eq_none_iff]
    intro next ahead
    rw [ahead] at no_equal
    unfold TokenKind.ofPair?
    split
    all_goals simp_all [TokenKind.ofByte?]
  rw [first_of_sign sign fun comment => no_comment comment.1 comment.2, ofSign, alone, spelled]

/-- A reserved word that no further character of a name follows is the piece at the front. -/
theorem first_of_reserved {kind : TokenKind} {lead : UInt8} {rest behind : Bytes}
    (reserved : kind.IsReserved (lead :: rest) behind) :
    first lead (rest ++ behind) = ⟨.mark kind, lead :: rest⟩ := by
  obtain ⟨member, is_word, ends⟩ := reserved
  -- No word is reserved for two kinds.
  have known : ∀ entry ∈ TokenKind.reservedWords, TokenKind.ofWord entry.1 = entry.2 := by decide
  rw [first_of_word is_word ends, known _ member]

/-- **Tokens are found.** A text in the language of a kind, before a text that may follow it, is the
piece at the front. -/
theorem first_of_language {kind : TokenKind} {lead : UInt8} {rest behind : Bytes}
    (proper : kind ≠ .illegal) (spelled : kind.Language (lead :: rest) behind) :
    first lead (rest ++ behind) = ⟨.mark kind, lead :: rest⟩ := by
  -- Most signs are one byte that nothing makes longer.
  have single {byte : UInt8} (same : lead :: rest = [byte])
      (sign : TokenKind.ofByte? byte = some kind)
      (no_equal : byte ∈ [0x21, 0x3d, 0x3c, 0x3e] → behind.head? ≠ some 0x3d)
      (no_comment : byte = 0x2f → behind.head? ≠ some 0x2f) :
      first lead (rest ++ behind) = ⟨.mark kind, lead :: rest⟩ := by
    obtain ⟨rfl, rfl⟩ := List.cons.inj same
    exact first_of_byte sign no_equal no_comment
  have pair {byte next : UInt8} (same : lead :: rest = [byte, next])
      (sign : TokenKind.ofPair? byte next = some kind) :
      first lead (rest ++ behind) = ⟨.mark kind, lead :: rest⟩ := by
    obtain ⟨rfl, rfl⟩ := List.cons.inj same
    exact first_of_pair sign behind
  cases kind
  case illegal => exact absurd rfl proper
  case endOfInput => exact absurd spelled.1 (List.cons_ne_nil lead rest)
  case newline =>
    obtain ⟨rfl, rfl⟩ := List.cons.inj (show lead :: rest = [0x0a] from spelled)
    rfl
  case name =>
    obtain ⟨is_word, not_reserved, ends⟩ := spelled
    rw [first_of_word is_word ends, TokenKind.ofWord_of_not_mem not_reserved]
  case number => exact first_of_numeral spelled.1 spelled.2.1 spelled.2.2
  case text => exact first_of_quoted spelled.1 spelled.2
  case assign | less | greater =>
    exact single spelled.1 rfl (fun _ => spelled.2) (fun slash => absurd slash (by decide))
  case slash =>
    exact single spelled.1 rfl (fun equals => absurd equals (by decide)) (fun _ => spelled.2)
  case bang =>
    rcases spelled with ⟨sign, next⟩ | reserved
    · exact single sign rfl (fun _ => next) (fun slash => absurd slash (by decide))
    · exact first_of_reserved reserved
  case both | either =>
    rcases spelled with sign | reserved
    · exact pair sign rfl
    · exact first_of_reserved reserved
  case notEqual | equal | lessEqual | greaterEqual => exact pair spelled rfl
  case plus | minus | star | percent | caret | leftParen | rightParen | leftBrace | rightBrace
      | semicolon =>
    exact single spelled rfl (fun equals => absurd equals (by decide))
      (fun slash => absurd slash (by decide))
  all_goals exact first_of_reserved spelled

end Piece

/-! ## Blanks and comments -/

/-- Blanks are cut off one by one. -/
theorem pieces_of_spacing {blanks : Bytes} (spacing : ∀ byte ∈ blanks, Bytes.isSpacing byte = true)
    (behind : Bytes) :
    pieces (blanks ++ behind) = blanks.map (fun byte => ⟨.gap, [byte]⟩) ++ pieces behind := by
  induction blanks with
  | nil => rfl
  | cons byte blanks ih =>
    obtain ⟨here, there⟩ := List.forall_mem_cons.1 spacing
    have front : Piece.first byte (blanks ++ behind) = ⟨.gap, [byte]⟩ := by
      rw [Piece.first, if_pos here]
    rw [List.cons_append, pieces, front]
    simpa using ih there

/-- A comment: a hash or two slashes, and bytes of one line. -/
def Bytes.IsComment (text : Bytes) : Prop :=
  ([0x23] <+: text ∨ [0x2f, 0x2f] <+: text) ∧ 0x0a ∉ text

instance (text : Bytes) : Decidable text.IsComment :=
  inferInstanceAs (Decidable (([0x23] <+: text ∨ [0x2f, 0x2f] <+: text) ∧ 0x0a ∉ text))

/-- A comment is cut off before a newline or the end. -/
theorem pieces_of_comment {comment behind : Bytes} (is_comment : comment.IsComment)
    (ends : behind.head?.any (· ≠ 0x0a) = false) :
    pieces (comment ++ behind) = ⟨.gap, comment⟩ :: pieces behind := by
  obtain ⟨opens, one_line⟩ := is_comment
  have line (rest : Bytes) (inside : 0x0a ∉ rest) :
      (rest ++ behind).takeWhile (· ≠ 0x0a) = rest :=
    (Bytes.span_append (fun byte member => by
      simpa using fun newline : byte = 0x0a => inside (newline ▸ member)) ends).1
  -- The opening decides that the piece is a comment, which then takes the whole line.
  have front : ∃ lead rest, comment = lead :: rest ∧
      Piece.first lead (rest ++ behind) = ⟨.gap, lead :: rest⟩ := by
    rcases opens with ⟨rest, rfl⟩ | ⟨rest, rfl⟩
    · have inside : 0x0a ∉ rest := fun member => one_line (List.mem_append_right _ member)
      refine ⟨0x23, rest, rfl, ?_⟩
      show Piece.mk .gap (0x23 :: (rest ++ behind).takeWhile (· ≠ 0x0a)) = _
      rw [line rest inside]
    · have inside : 0x0a ∉ 0x2f :: rest := fun member => one_line (List.mem_cons_of_mem _ member)
      refine ⟨0x2f, 0x2f :: rest, rfl, ?_⟩
      show Piece.mk .gap (0x2f :: (0x2f :: rest ++ behind).takeWhile (· ≠ 0x0a)) = _
      rw [line _ inside]
  obtain ⟨lead, rest, rfl, cut⟩ := front
  rw [List.cons_append, pieces, cut]
  simp

/-! ## Spellings -/

namespace TokenKind

/-- The texts by which a kind of tokens is spelled: a name, a reserved word, a number or text
literal, an operator or delimiter, or a newline. -/
structure Spelling (kind : TokenKind) (text : Bytes) : Prop where
  /-- The kind is one of the language. -/
  proper : kind ≠ .illegal
  /-- The end of input is not spelled. -/
  ongoing : kind ≠ .endOfInput
  /-- Where nothing follows, the text is a token of the kind. -/
  language : kind.Language text []

/-- No spelling is empty. -/
theorem Spelling.ne_nil {kind : TokenKind} {text : Bytes} (spelled : kind.Spelling text) :
    text ≠ [] := by
  rintro rfl
  obtain ⟨proper, ongoing, language⟩ := spelled
  have no_word : ¬Bytes.IsWord [] := by
    intro is_word
    obtain ⟨lead, rest, parts, -⟩ := is_word.lead
    cases parts
  cases kind
  case illegal => exact proper rfl
  case endOfInput => exact ongoing rfl
  case name => exact no_word language.1
  case number =>
    obtain ⟨lead, rest, parts, -⟩ := language.1.lead
    cases parts
  case text =>
    obtain ⟨body, -, parts⟩ := language.1
    cases parts
  case assign | less | greater | slash => cases language.1
  case bang =>
    rcases language with sign | reserved
    · cases sign.1
    · exact no_word reserved.2.1
  case both | either =>
    rcases language with sign | reserved
    · cases sign
    · exact no_word reserved.2.1
  case ifWord | elseifWord | elseWord | whileWord | consoleWord | trueWord | falseWord | nilWord =>
    exact no_word language.2.1
  all_goals cases language

/-- A blank may follow every spelling: it continues no word and no number, and makes no sign longer.
-/
theorem Spelling.before_blank {kind : TokenKind} {text : Bytes} (spelled : kind.Spelling text)
    {blank : UInt8} (spacing : Bytes.isSpacing blank = true) (more : Bytes) :
    kind.Language text (blank :: more) := by
  obtain ⟨proper, ongoing, language⟩ := spelled
  have cases_of_blank : blank = 0x20 ∨ blank = 0x09 ∨ blank = 0x0d := by
    simpa [Bytes.isSpacing, or_assoc] using spacing
  have no_part : ¬Bytes.StartsPart (blank :: more) := by
    rw [Bytes.startsPart_iff]
    rcases cases_of_blank with rfl | rfl | rfl
    all_goals exact Nat.lt_irrefl 0
  have no_sign (byte : UInt8) (solid : Bytes.isSpacing byte = false) :
      (blank :: more).head? ≠ some byte := by
    rintro same
    obtain rfl := Option.some.inj same
    exact absurd spacing (by simp [solid])
  have reserved (is : kind.IsReserved text []) : kind.IsReserved text (blank :: more) :=
    ⟨is.1, is.2.1, no_part⟩
  cases kind
  case illegal => exact absurd rfl proper
  case endOfInput => exact absurd rfl ongoing
  case name => exact ⟨language.1, language.2.1, no_part⟩
  case number => exact ⟨language.1, no_part, no_sign _ rfl⟩
  case text | assign | less | greater | slash => exact ⟨language.1, no_sign _ rfl⟩
  case bang => exact language.imp (fun sign => ⟨sign.1, no_sign _ rfl⟩) reserved
  case both | either => exact language.imp_right reserved
  case ifWord | elseifWord | elseWord | whileWord | consoleWord | trueWord | falseWord | nilWord =>
    exact reserved language
  all_goals exact language

end TokenKind

/-- A token is cut off before what may follow it. -/
theorem TokenKind.Spelling.pieces_append {kind : TokenKind} {text behind : Bytes}
    (spelled : kind.Spelling text) (follows : kind.Language text behind) :
    pieces (text ++ behind) = ⟨.mark kind, text⟩ :: pieces behind := by
  cases text with
  | nil => exact absurd rfl spelled.ne_nil
  | cons lead rest =>
    rw [List.cons_append, pieces, Piece.first_of_language spelled.proper follows]
    simp

/-! ## Printed tokens -/

/-- A token as it is printed. -/
structure PrintedToken where
  /-- What the token is. -/
  kind : TokenKind
  /-- Its spelling. -/
  text : Bytes
  /-- The comment before it, empty if there is none. -/
  comment : Bytes
  /-- The blanks behind it. -/
  blanks : Bytes
  /-- The text spells the kind. -/
  spelled : kind.Spelling text
  /-- Only a newline has a comment before it. -/
  commented : comment = [] ∨ (kind = .newline ∧ comment.IsComment)
  /-- There is a blank. -/
  separated : blanks ≠ []
  /-- The blanks are spaces, tabs and carriage returns. -/
  spacing : ∀ byte ∈ blanks, byte = 0x20 ∨ byte = 0x09 ∨ byte = 0x0d

namespace PrintedToken

/-- The text of a printed token, with its comment and its blanks. -/
def print (token : PrintedToken) : Bytes :=
  token.comment ++ token.text ++ token.blanks

/-- Kind and lexeme of a printed token. -/
def content (token : PrintedToken) : TokenKind × Bytes :=
  (token.kind, if token.kind = .newline then Token.newlineLexeme else token.text)

/-- Text between tokens. -/
def AllGaps (parts : List Piece) : Prop :=
  ∀ piece ∈ parts, piece.sort = .gap

/-- A printed token is cut into gaps, the mark that it is, and gaps, whatever follows. -/
theorem pieces_print_append (token : PrintedToken) (more : Bytes) :
    ∃ before behind, AllGaps before ∧ AllGaps behind ∧
      pieces (token.print ++ more)
        = before ++ ⟨.mark token.kind, token.text⟩ :: (behind ++ pieces more) := by
  obtain ⟨kind, text, comment, blanks, spelled, commented, separated, spacing⟩ := token
  have all_spacing : ∀ byte ∈ blanks, Bytes.isSpacing byte = true := by
    intro byte member
    rcases spacing byte member with rfl | rfl | rfl
    all_goals rfl
  -- The first blank ends the token.
  have cut : pieces (text ++ (blanks ++ more))
      = ⟨.mark kind, text⟩ :: (blanks.map (fun byte => ⟨.gap, [byte]⟩) ++ pieces more) := by
    cases blanks with
    | nil => exact absurd rfl separated
    | cons blank others =>
      have follows := spelled.before_blank (all_spacing blank List.mem_cons_self) (others ++ more)
      rw [List.cons_append, spelled.pieces_append follows, ← List.cons_append,
        pieces_of_spacing all_spacing]
  have gaps : AllGaps (blanks.map fun byte => ⟨.gap, [byte]⟩) := by
    intro piece member
    obtain ⟨byte, -, rfl⟩ := List.mem_map.1 member
    rfl
  rcases commented with rfl | ⟨rfl, is_comment⟩
  · exact ⟨[], _, by simp [AllGaps], gaps, by simpa [print] using cut⟩
  · have newline : text = [0x0a] := spelled.language
    refine ⟨[⟨.gap, comment⟩], _, by simp [AllGaps], gaps, ?_⟩
    have ends : (text ++ (blanks ++ more)).head?.any (· ≠ 0x0a) = false := by simp [newline]
    rw [print, List.append_assoc, List.append_assoc, pieces_of_comment is_comment ends, cut]
    rfl

/-- Gaps make no token. -/
theorem AllGaps.filterMap_content? {parts : List Piece} (gaps : AllGaps parts) :
    parts.filterMap Piece.content? = [] := by
  refine List.filterMap_eq_nil_iff.2 fun piece member => ?_
  rw [Piece.content?, Piece.kind?, gaps piece member]
  rfl

/-- There is nothing to complain about gaps. -/
theorem AllGaps.complaint? {parts : List Piece} (gaps : AllGaps parts) :
    ∀ piece ∈ parts, piece.complaint? = none := by
  intro piece member
  rw [Piece.complaint?, gaps piece member]

/-- The pieces of printed tokens, with a comment at the end or without, make these tokens, and there
is nothing to complain about them. -/
theorem pieces_flatMap_print (tokens : List PrintedToken) {ending : Bytes}
    (last : ending = [] ∨ ending.IsComment) :
    (pieces (tokens.flatMap print ++ ending)).filterMap Piece.content? = tokens.map content ∧
      ∀ piece ∈ pieces (tokens.flatMap print ++ ending), piece.complaint? = none := by
  induction tokens with
  | nil =>
    rcases last with rfl | is_comment
    · simp
    · have ends : ([] : Bytes).head?.any (· ≠ 0x0a) = false := rfl
      have cut := pieces_of_comment is_comment ends
      rw [List.append_nil, pieces_nil] at cut
      have gaps : AllGaps [⟨.gap, ending⟩] := by simp [AllGaps]
      rw [List.flatMap_nil, List.nil_append, cut]
      exact ⟨gaps.filterMap_content?, gaps.complaint?⟩
  | cons token tokens ih =>
    obtain ⟨before, behind, first, second, cut⟩ :=
      token.pieces_print_append (tokens.flatMap print ++ ending)
    have own : Piece.content? ⟨.mark token.kind, token.text⟩ = some token.content := by
      simp [Piece.content?, Piece.kind?, Piece.lexeme, content]
    rw [List.flatMap_cons, List.append_assoc, cut]
    constructor
    · rw [List.filterMap_append, List.filterMap_cons_some own, List.filterMap_append,
        first.filterMap_content?, second.filterMap_content?, ih.1]
      rfl
    · exact List.forall_mem_append.2 ⟨first.complaint?, List.forall_mem_cons.2
        ⟨rfl, List.forall_mem_append.2 ⟨second.complaint?, ih.2⟩⟩⟩

end PrintedToken

/-- Kinds and lexemes of the tokens of a text come from its pieces, and the end of input is last. -/
theorem Lexing.map_content_tokens (source file : Bytes) :
    (read source file).tokens.map Token.content
      = (pieces source).filterMap Piece.content? ++ [(.endOfInput, [])] := by
  rw [← map_content_marks (.start file)]
  exact List.map_append

/-- **Reading undoes printing.** Take any tokens, each printed by a spelling of its kind with blanks
behind it, with or without comments before newlines and at the end. Reading the text gives the kinds
and lexemes of these tokens in their order, then the end of input, and has no finding. -/
theorem printed_tokens_read_back (tokens : List PrintedToken) {ending : Bytes}
    (last : ending = [] ∨ ending.IsComment) (file : Bytes) :
    let lexing := Lexing.read (tokens.flatMap PrintedToken.print ++ ending) file
    lexing.tokens.map Token.content = tokens.map PrintedToken.content ++ [(.endOfInput, [])] ∧
      lexing.findings = [] := by
  intro lexing
  obtain ⟨contents, sound⟩ := PrintedToken.pieces_flatMap_print tokens last
  constructor
  · rw [Lexing.map_content_tokens, contents]
  · exact (Lexing.findings_read_eq_nil_iff _ file).2 sound

/-- A name with a letter above the ASCII range, a sign, a text literal that ends with a doubled
quote, a newline behind a comment, an operator spelled by a word and a number without digits before
its point can be printed. -/
theorem exists_samplePrint :
    ∃ tokens : List PrintedToken,
      tokens.flatMap PrintedToken.print = Bytes.utf8 "é1 =\t\r\"a\"\"\" //=\"\n  not .5 " ∧
      tokens.map PrintedToken.content
        = [(.name, Bytes.utf8 "é1"), (.assign, Bytes.utf8 "="), (.text, Bytes.utf8 "\"a\"\"\""),
          (.newline, Token.newlineLexeme), (.bang, Bytes.utf8 "not"),
          (.number, Bytes.utf8 ".5")] := by
  have nothing : ¬Bytes.StartsPart [] := by
    rw [Bytes.startsPart_iff]
    decide
  have name : TokenKind.name.Spelling (Bytes.utf8 "é1") :=
    ⟨by decide, by decide, ⟨[0xc3, 0xa9], [[0x31]],
      .inr ⟨0xc3, [0xa9], 0xe9, rfl, by decide, by decide, by decide⟩,
      by simp [Bytes.IsNamePart, Bytes.isDigit], by decide⟩, by decide, nothing⟩
  have assign : TokenKind.assign.Spelling (Bytes.utf8 "=") :=
    ⟨by decide, by decide, by decide, by decide⟩
  have text : TokenKind.text.Spelling (Bytes.utf8 "\"a\"\"\"") :=
    ⟨by decide, by decide, ⟨[0x61, 0x22, 0x22], .byte (by decide) (by decide) (.doubled .nil),
      by decide⟩, by decide⟩
  have newline : TokenKind.newline.Spelling [0x0a] := ⟨by decide, by decide, rfl⟩
  have word : TokenKind.bang.Spelling (Bytes.utf8 "not") :=
    ⟨by decide, by decide, .inr ⟨by decide, ⟨[0x6e], [[0x6f], [0x74]], .inl ⟨0x6e, rfl, rfl⟩,
      by simp [Bytes.IsNamePart, Bytes.IsLetter, Bytes.isPlainLetter], by decide⟩, nothing⟩⟩
  have number : TokenKind.number.Spelling (Bytes.utf8 ".5") :=
    ⟨by decide, by decide, .inr ⟨[0x35], by decide, by simp [Bytes.AllDigits, Bytes.isDigit],
      by decide⟩, nothing, by decide⟩
  refine ⟨[⟨.name, Bytes.utf8 "é1", [], Bytes.utf8 " ", name, .inl rfl, by decide,
      by decide +kernel⟩,
    ⟨.assign, Bytes.utf8 "=", [], Bytes.utf8 "\t\r", assign, .inl rfl, by decide,
      by decide +kernel⟩,
    ⟨.text, Bytes.utf8 "\"a\"\"\"", [], Bytes.utf8 " ", text, .inl rfl, by decide,
      by decide +kernel⟩,
    ⟨.newline, [0x0a], Bytes.utf8 "//=\"", Bytes.utf8 "  ", newline, .inr ⟨rfl, by decide⟩,
      by decide, by decide +kernel⟩,
    ⟨.bang, Bytes.utf8 "not", [], Bytes.utf8 " ", word, .inl rfl, by decide, by decide +kernel⟩,
    ⟨.number, Bytes.utf8 ".5", [], Bytes.utf8 " ", number, .inl rfl, by decide,
      by decide +kernel⟩], rfl, rfl⟩

/-- The text of these tokens, with a comment at the end, is read back as them. -/
theorem printed_tokens_read_back_sample :
    let lexing := Lexing.read (Bytes.utf8 "é1 =\t\r\"a\"\"\" //=\"\n  not .5 " ++ Bytes.utf8 "# .5")
      []
    lexing.tokens.map Token.content
      = [(.name, Bytes.utf8 "é1"), (.assign, Bytes.utf8 "="), (.text, Bytes.utf8 "\"a\"\"\""),
        (.newline, Token.newlineLexeme), (.bang, Bytes.utf8 "not"), (.number, Bytes.utf8 ".5"),
        (.endOfInput, [])] ∧
      lexing.findings = [] := by
  have comment : (Bytes.utf8 "# .5").IsComment := by decide
  obtain ⟨tokens, text, contents⟩ := exists_samplePrint
  have read := printed_tokens_read_back tokens (.inr comment) []
  rw [text, contents] at read
  exact read

end ConsoleScript
