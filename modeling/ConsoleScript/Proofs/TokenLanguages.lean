import ConsoleScript.Proofs.BlankText
import ConsoleScript.Proofs.LineCutting

/-! # The languages of tokens

How the tokens of each kind are spelled, and what cannot follow them, said without the scanners that
cut them:

* **`Bytes.IsWord`**, **`Bytes.IsNumeral`**, **`Bytes.IsQuoted`** — names and reserved words, number
  literals and text literals;
* **`TokenKind.Language`** — for each kind the texts of its tokens, together with the texts that may
  stand behind them. A token is as long as it can be: a name is not followed by a name character, a
  number by neither a name character nor a point, a text literal not by a quote;
* **`Piece.language_first`** — the piece at the front of a text is in the language of its kind, and
  `Piece.gap_first` says what the gaps are. -/

namespace ConsoleScript

namespace Bytes

/-! ## Names -/

/-- One letter of a name: an ASCII letter, the underscore, or an encoded letter above the ASCII
range. -/
def IsLetter (unit : Bytes) : Prop :=
  (∃ byte, isPlainLetter byte = true ∧ unit = [byte]) ∨
    ∃ lead rest scalar, unit = lead :: rest ∧ 0x80 ≤ lead ∧
      scalar? unit = some (scalar, unit.length) ∧ Character.isLetter scalar = true

/-- One character of a name behind its first: a letter or a digit. -/
def IsNamePart (unit : Bytes) : Prop :=
  IsLetter unit ∨ ∃ byte, isDigit byte = true ∧ unit = [byte]

/-- A text at whose front a character of a name stands. -/
def StartsPart (text : Bytes) : Prop :=
  ∃ unit more, text = unit ++ more ∧ IsNamePart unit

/-- A name or a reserved word: a letter and any number of characters of a name. -/
def IsWord (text : Bytes) : Prop :=
  ∃ (first : Bytes) (parts : List Bytes), IsLetter first ∧ (∀ part ∈ parts, IsNamePart part) ∧
    text = first ++ parts.flatten

/-- An encoded character is decoded from its own bytes only. -/
theorem scalar?_take {text : Bytes} {scalar width : Nat}
    (decoded : scalar? text = some (scalar, width)) :
    scalar? (text.take width) = some (scalar, width) ∧ 0 < width := by
  unfold scalar? at decoded
  split at decoded
  · cases decoded
  · repeat' split at decoded
    all_goals cases decoded
    all_goals simp +contextual [scalar?, *]

/-- A letter above the ASCII range is neither a plain letter nor a digit. -/
theorem not_plain_of_high {lead : UInt8} (high : 0x80 ≤ lead) :
    isPlainLetter lead = false ∧ isDigit lead = false ∧ ¬lead < 0x80 := by
  have above (byte : UInt8) (low : byte < 0x80) : ¬lead ≤ byte :=
    UInt8.not_le.2 (UInt8.lt_of_lt_of_le low high)
  have score : lead ≠ 0x5f := by
    rintro rfl
    exact absurd high (by decide)
  refine ⟨?_, ?_, UInt8.not_lt.2 high⟩
  · simp [isPlainLetter, above, score]
  · simp [isDigit, above]

/-- A digit is no plain letter. -/
theorem not_plain_of_digit {byte : UInt8} (digit : isDigit byte = true) :
    isPlainLetter byte = false ∧ byte < 0x80 := by
  simp only [isDigit, Bool.and_eq_true, decide_eq_true_eq, UInt8.le_iff_toNat_le] at digit
  simp only [isPlainLetter, UInt8.lt_iff_toNat_lt, UInt8.le_iff_toNat_le, Bool.or_eq_false_iff,
    Bool.and_eq_false_iff, decide_eq_false_iff_not, beq_eq_false_iff_ne, ne_eq, ← UInt8.toNat_inj]
  simp at digit ⊢
  omega

/-- The letter at the front of a text is as wide as the scanner says. -/
theorem isLetter_take {text : Bytes} (wide : 0 < letterWidth text) :
    IsLetter (text.take (letterWidth text)) := by
  cases text with
  | nil => exact absurd wide (Nat.lt_irrefl 0)
  | cons lead rest =>
    rw [letterWidth] at wide ⊢
    by_cases plain : isPlainLetter lead = true
    · rw [if_pos plain]
      exact .inl ⟨lead, plain, rfl⟩
    · rw [if_neg plain] at wide ⊢
      by_cases low : lead < 0x80
      · rw [if_pos low] at wide
        exact absurd wide (Nat.lt_irrefl 0)
      · rw [if_neg low] at wide ⊢
        cases decoded : scalar? (lead :: rest) with
        | none =>
          simp only [decoded] at wide
          exact absurd wide (Nat.lt_irrefl 0)
        | some found =>
          obtain ⟨scalar, width⟩ := found
          simp only [decoded] at wide ⊢
          by_cases letter : Character.isLetter scalar = true
          · rw [if_pos letter]
            obtain ⟨own, positive⟩ := scalar?_take decoded
            have length : ((lead :: rest).take width).length = width :=
              List.length_take_of_le (scalar?_width_le decoded)
            obtain ⟨width, rfl⟩ := Nat.exists_eq_add_of_lt positive
            rw [Nat.zero_add] at own length ⊢
            refine .inr ⟨lead, rest.take width, scalar, rfl, UInt8.not_lt.1 low, ?_, letter⟩
            rw [length, own]
          · rw [if_neg letter] at wide
            exact absurd wide (Nat.lt_irrefl 0)

/-- Before any text, a letter is as wide as its bytes. -/
theorem IsLetter.letterWidth_eq {unit : Bytes} (letter : IsLetter unit) (more : Bytes) :
    letterWidth (unit ++ more) = unit.length := by
  rcases letter with ⟨byte, plain, rfl⟩ | ⟨lead, rest, scalar, rfl, high, decoded, letter⟩
  · rw [List.singleton_append, letterWidth, if_pos plain]
    rfl
  · obtain ⟨not_plain, -, not_low⟩ := not_plain_of_high high
    have same := scalar?_append decoded more
    rw [List.cons_append] at same ⊢
    rw [letterWidth, not_plain, if_neg Bool.false_ne_true, if_neg not_low, same]
    exact if_pos letter

/-- A letter has at least one byte. -/
theorem IsLetter.length_pos {unit : Bytes} (letter : IsLetter unit) : 0 < unit.length := by
  rcases letter with ⟨byte, -, rfl⟩ | ⟨lead, rest, scalar, rfl, -⟩
  · exact Nat.one_pos
  · exact Nat.succ_pos _

/-- The character of a name at the front of a text is as wide as the scanner says. -/
theorem isNamePart_take {text : Bytes} (wide : 0 < nameCharWidth text) :
    IsNamePart (text.take (nameCharWidth text)) := by
  cases text with
  | nil => exact absurd wide (Nat.lt_irrefl 0)
  | cons lead rest =>
    rw [nameCharWidth] at wide ⊢
    by_cases digit : isDigit lead = true
    · rw [if_pos digit]
      exact .inr ⟨lead, digit, rfl⟩
    · rw [if_neg digit] at wide ⊢
      exact .inl (isLetter_take wide)

/-- Before any text, the scanner sees a character of a name. -/
theorem IsNamePart.nameCharWidth_pos {unit : Bytes} (part : IsNamePart unit) (more : Bytes) :
    0 < nameCharWidth (unit ++ more) := by
  rcases part with letter | ⟨byte, digit, rfl⟩
  · have width := letter.letterWidth_eq more
    have positive := letter.length_pos
    rw [← width] at positive
    cases whole : unit ++ more with
    | nil =>
      rw [whole] at positive
      exact positive
    | cons lead rest =>
      rw [whole] at positive
      rw [nameCharWidth]
      split
      · exact Nat.one_pos
      · exact positive
  · rw [List.singleton_append, nameCharWidth, if_pos digit]
    exact Nat.one_pos

/-- A character of a name stands at the front exactly if the scanner sees one. -/
theorem startsPart_iff (text : Bytes) : StartsPart text ↔ 0 < nameCharWidth text := by
  constructor
  · rintro ⟨unit, more, rfl, part⟩
    exact part.nameCharWidth_pos more
  · intro wide
    exact ⟨_, _, (List.take_append_drop _ text).symm, isNamePart_take wide⟩

/-- A run of name characters is made of them, and no further one follows. -/
theorem nameRun_spec (text : Bytes) :
    (∃ parts : List Bytes, (∀ part ∈ parts, IsNamePart part) ∧ nameRun text = parts.flatten) ∧
      ¬StartsPart (text.drop (nameRun text).length) := by
  induction text using nameRun.induct with
  | case1 =>
    refine ⟨⟨[], by simp, by simp [nameRun]⟩, ?_⟩
    rw [startsPart_iff]
    simp [nameRun, nameCharWidth]
  | case2 lead rest no_width =>
    have empty : nameRun (lead :: rest) = [] := by rw [nameRun, no_width]
    rw [empty]
    refine ⟨⟨[], by simp, rfl⟩, ?_⟩
    rw [startsPart_iff, List.length_nil, List.drop_zero, no_width]
    exact Nat.lt_irrefl 0
  | case3 lead rest width has_width ih =>
    obtain ⟨⟨parts, are_parts, run⟩, ends⟩ := ih
    have wide : 0 < nameCharWidth (lead :: rest) := by rw [has_width]; exact Nat.succ_pos _
    have part := isNamePart_take wide
    rw [has_width, List.take_succ_cons] at part
    have whole : nameRun (lead :: rest) = lead :: rest.take width ++ nameRun (rest.drop width) := by
      rw [nameRun, has_width]
    have inside : width ≤ rest.length := by
      have le := nameCharWidth_le (lead :: rest)
      rw [has_width, List.length_cons] at le
      omega
    have length : (lead :: rest.take width ++ nameRun (rest.drop width)).length
        = width + (nameRun (rest.drop width)).length + 1 := by
      rw [List.length_append, List.length_cons, List.length_take_of_le inside]
      omega
    constructor
    · refine ⟨(lead :: rest.take width) :: parts, ?_, ?_⟩
      · exact List.forall_mem_cons.2 ⟨part, are_parts⟩
      · rw [whole, run, List.flatten_cons]
    · -- What follows the run is what follows the run behind its first character.
      rw [whole, length, List.drop_succ_cons, ← List.drop_drop]
      exact ends

/-- A run that starts with a letter is a word. -/
theorem isWord_nameRun {text : Bytes} (starts : startsName text = true) :
    IsWord (nameRun text) := by
  have wide : 0 < letterWidth text := by simpa [startsName] using starts
  have letter := isLetter_take wide
  cases text with
  | nil => exact absurd wide (Nat.lt_irrefl 0)
  | cons lead rest =>
    -- A text that starts with a letter starts with no digit, so its first character is the letter.
    have same : nameCharWidth (lead :: rest) = letterWidth (lead :: rest) := by
      rw [nameCharWidth]
      split
      · rename_i digit
        obtain ⟨not_plain, low⟩ := not_plain_of_digit digit
        rw [letterWidth, not_plain, if_neg Bool.false_ne_true, if_pos low] at wide
        exact absurd wide (Nat.lt_irrefl 0)
      · rfl
    obtain ⟨width, has_width⟩ := Nat.exists_eq_add_of_lt wide
    rw [Nat.zero_add] at has_width
    obtain ⟨⟨parts, are_parts, run⟩, -⟩ := nameRun_spec (rest.drop width)
    rw [has_width, List.take_succ_cons] at letter
    refine ⟨_, parts, letter, are_parts, ?_⟩
    rw [nameRun, same, has_width, ← run]

/-- A word starts with an ASCII letter, the underscore or a byte above the ASCII range. -/
theorem IsWord.lead {text : Bytes} (is_word : IsWord text) :
    ∃ lead rest, text = lead :: rest ∧ (isPlainLetter lead = true ∨ 0x80 ≤ lead) := by
  obtain ⟨first, parts, letter, -, rfl⟩ := is_word
  rcases letter with ⟨byte, plain, rfl⟩ | ⟨lead, rest, scalar, rfl, high, -⟩
  · exact ⟨byte, _, rfl, .inl plain⟩
  · exact ⟨lead, _, rfl, .inr high⟩

/-- Where a word stands, a character of a name stands at the front. -/
theorem IsWord.startsPart_append {text : Bytes} (is_word : IsWord text) (behind : Bytes) :
    StartsPart (text ++ behind) := by
  obtain ⟨first, parts, letter, -, rfl⟩ := is_word
  exact ⟨first, parts.flatten ++ behind, List.append_assoc _ _ _, .inl letter⟩

/-! ## Runs of bytes -/

/-- What follows the front of a text is what is left when the front is dropped. -/
theorem drop_length_of_append {front behind text : Bytes} (whole : front ++ behind = text) :
    text.drop front.length = behind := by
  rw [← whole]
  exact List.drop_left

section Runs

variable {accepts : UInt8 → Bool}

/-- Behind the longest run of accepted bytes stands what is left when they are dropped. -/
theorem drop_length_takeWhile (text : Bytes) :
    text.drop (text.takeWhile accepts).length = text.dropWhile accepts :=
  drop_length_of_append List.takeWhile_append_dropWhile

/-- The byte behind the longest run of accepted bytes is not accepted. -/
theorem head?_dropWhile_eq_some {text : Bytes} {byte : UInt8}
    (next : (text.dropWhile accepts).head? = some byte) : accepts byte = false := by
  have stop := List.head?_dropWhile_not accepts text
  rw [next] at stop
  exact stop

/-- A run of accepted bytes holds no other. -/
theorem forall_mem_takeWhile (text : Bytes) :
    ∀ byte ∈ text.takeWhile accepts, accepts byte = true :=
  List.all_eq_true.1 List.all_takeWhile

end Runs

/-! ## Number literals -/

/-- Digits throughout. -/
def AllDigits (text : Bytes) : Prop :=
  ∀ byte ∈ text, isDigit byte = true

/-- A number literal: digits, which a point and more digits may follow, or a point before at least
one digit. -/
def IsNumeral (text : Bytes) : Prop :=
  (∃ whole, whole ≠ [] ∧ AllDigits whole ∧
    (text = whole ∨ ∃ fraction, AllDigits fraction ∧ text = whole ++ 0x2e :: fraction)) ∨
    ∃ fraction, fraction ≠ [] ∧ AllDigits fraction ∧ text = 0x2e :: fraction

/-- A number literal starts with a digit or a point, so with no byte that a word starts with. -/
theorem IsNumeral.lead {text : Bytes} (number : IsNumeral text) :
    ∃ lead rest, text = lead :: rest ∧ isPlainLetter lead = false ∧ ¬0x80 ≤ lead := by
  rcases number with ⟨whole, some_digit, digits, parts⟩ | ⟨fraction, -, -, rfl⟩
  · cases whole with
    | nil => exact absurd rfl some_digit
    | cons lead rest =>
      obtain ⟨not_letter, low⟩ := not_plain_of_digit (digits lead List.mem_cons_self)
      have not_high : ¬0x80 ≤ lead := UInt8.not_le.2 low
      rcases parts with rfl | ⟨fraction, -, rfl⟩
      · exact ⟨lead, rest, rfl, not_letter, not_high⟩
      · exact ⟨lead, rest ++ 0x2e :: fraction, rfl, not_letter, not_high⟩
  · exact ⟨0x2e, fraction, rfl, by decide, by decide⟩

/-- A numeral is a run of digits before no point, or one with a point and a second run. -/
theorem numeral_cases (text : Bytes) :
    (numeral text = text.takeWhile isDigit ∧ (text.dropWhile isDigit).head? ≠ some 0x2e ∧
      text.drop (numeral text).length = text.dropWhile isDigit) ∨
    ∃ rest, text.dropWhile isDigit = 0x2e :: rest ∧
      numeral text = text.takeWhile isDigit ++ 0x2e :: rest.takeWhile isDigit ∧
      text.drop (numeral text).length = rest.dropWhile isDigit := by
  unfold numeral
  split
  · rename_i rest point
    refine .inr ⟨rest, point, rfl, ?_⟩
    rw [List.length_append, List.length_cons, ← List.drop_drop, drop_length_takeWhile, point,
      List.drop_succ_cons, drop_length_takeWhile]
  · rename_i no_point
    refine .inl ⟨rfl, ?_, drop_length_takeWhile text⟩
    intro next
    cases behind : text.dropWhile isDigit with
    | nil => simp [behind] at next
    | cons byte rest =>
      rw [behind, List.head?_cons, Option.some.injEq] at next
      exact no_point rest (by rw [behind, next])

/-- No digit stands behind a numeral. -/
theorem isDigit_behind_numeral {text : Bytes} {byte : UInt8}
    (next : (text.drop (numeral text).length).head? = some byte) : isDigit byte = false := by
  rcases numeral_cases text with ⟨-, -, behind⟩ | ⟨rest, -, -, behind⟩
  · rw [behind] at next
    exact head?_dropWhile_eq_some next
  · rw [behind] at next
    exact head?_dropWhile_eq_some next

/-- A numeral that starts with a digit, or with a point before one, is a number literal. -/
theorem isNumeral_numeral {lead : UInt8} {rest : Bytes}
    (starts : isDigit lead = true ∨ (lead = 0x2e ∧ rest.head?.any isDigit = true)) :
    IsNumeral (numeral (lead :: rest)) := by
  have digits (text : Bytes) : AllDigits (text.takeWhile isDigit) := forall_mem_takeWhile text
  rcases starts with digit | ⟨rfl, next⟩
  · have some_digit : (lead :: rest).takeWhile isDigit ≠ [] := by
      rw [List.takeWhile_cons_of_pos digit]
      exact List.cons_ne_nil _ _
    rcases numeral_cases (lead :: rest) with ⟨whole, -, -⟩ | ⟨more, -, whole, -⟩
    · exact .inl ⟨_, some_digit, digits _, .inl whole⟩
    · exact .inl ⟨_, some_digit, digits _, .inr ⟨_, digits _, whole⟩⟩
  · have no_digit : isDigit 0x2e = false := by decide
    rcases numeral_cases (0x2e :: rest) with ⟨-, other, -⟩ | ⟨more, point, whole, -⟩
    · rw [List.dropWhile_cons_of_neg (by simp [no_digit])] at other
      exact absurd rfl other
    · rw [List.dropWhile_cons_of_neg (by simp [no_digit]), List.cons.injEq] at point
      obtain ⟨-, rfl⟩ := point
      rw [List.takeWhile_cons_of_neg (by simp [no_digit]), List.nil_append] at whole
      refine .inr ⟨_, ?_, digits _, whole⟩
      cases rest with
      | nil => simp at next
      | cons byte more =>
        rw [List.takeWhile_cons_of_pos (by simpa using next)]
        exact List.cons_ne_nil _ _

/-- A number literal that does not run on is followed by neither a name character nor a point. -/
theorem not_startsPart_of_not_runsOn {text : Bytes}
    (ends : runsOn (text.drop (numeral text).length) = false) :
    ¬StartsPart (text.drop (numeral text).length) ∧
      (text.drop (numeral text).length).head? ≠ some 0x2e := by
  rw [runsOn, Bool.or_eq_false_iff] at ends
  obtain ⟨no_letter, no_point⟩ := ends
  refine ⟨?_, by simpa using no_point⟩
  have narrow : letterWidth (text.drop (numeral text).length) = 0 := by
    simpa [startsName] using no_letter
  rw [startsPart_iff]
  cases behind : text.drop (numeral text).length with
  | nil => exact Nat.lt_irrefl 0
  | cons byte rest =>
    have no_digit : isDigit byte = false := isDigit_behind_numeral (by rw [behind]; rfl)
    rw [behind] at narrow
    rw [nameCharWidth, no_digit, if_neg Bool.false_ne_true, narrow]
    exact Nat.lt_irrefl 0

/-- The rest of a malformed number ends before anything that would continue it. -/
theorem numeralTail_spec (text : Bytes) :
    ¬StartsPart (text.drop (numeralTail text).length) ∧
      (text.drop (numeralTail text).length).head? ≠ some 0x2e := by
  rw [startsPart_iff]
  induction text with
  | nil => simp [numeralTail, nameCharWidth]
  | cons lead rest ih =>
    by_cases goes_on : 0 < nameCharWidth (lead :: rest) ∨ lead = 0x2e
    · rw [numeralTail, if_pos goes_on, List.length_cons, List.drop_succ_cons]
      exact ih
    · rw [numeralTail, if_neg goes_on, List.length_nil, List.drop_zero]
      rw [not_or] at goes_on
      exact ⟨goes_on.1, by simpa using goes_on.2⟩

/-- A number literal that runs on has a rest. -/
theorem numeralTail_ne_nil {text : Bytes} (goes_on : runsOn text = true) :
    numeralTail text ≠ [] := by
  cases text with
  | nil => simp [runsOn, startsName, letterWidth] at goes_on
  | cons lead rest =>
    have continues : 0 < nameCharWidth (lead :: rest) ∨ lead = 0x2e := by
      rw [runsOn, Bool.or_eq_true] at goes_on
      rcases goes_on with letter | point
      · left
        rw [nameCharWidth]
        split
        · exact Nat.one_pos
        · simpa [startsName] using letter
      · exact .inr (by simpa using point)
    rw [numeralTail, if_pos continues]
    exact List.cons_ne_nil _ _

/-! ## Text literals -/

/-- What stands between the quotes of a text literal: doubled quotes, and bytes that are neither
quotes nor newlines. -/
inductive IsQuotedBody : Bytes → Prop where
  /-- Nothing. -/
  | nil : IsQuotedBody []
  /-- A doubled quote. -/
  | doubled {rest : Bytes} (others : IsQuotedBody rest) : IsQuotedBody (0x22 :: 0x22 :: rest)
  /-- Any other byte of the line. -/
  | byte {byte : UInt8} {rest : Bytes} (no_quote : byte ≠ 0x22) (no_newline : byte ≠ 0x0a)
      (others : IsQuotedBody rest) : IsQuotedBody (byte :: rest)

/-- A text literal. -/
def IsQuoted (text : Bytes) : Prop :=
  ∃ body, IsQuotedBody body ∧ text = 0x22 :: body ++ [0x22]

/-- Behind an opening quote stands a body, which is closed by a quote before no other quote, or ends
with the line. -/
theorem quotedTail_spec (text : Bytes) :
    ((quotedTail text).2 = true → ∃ body, IsQuotedBody body ∧ (quotedTail text).1 = body ++ [0x22] ∧
        (text.drop (quotedTail text).1.length).head? ≠ some 0x22) ∧
      ((quotedTail text).2 = false → IsQuotedBody (quotedTail text).1 ∧
        ∀ byte, (text.drop (quotedTail text).1.length).head? = some byte → byte = 0x0a) := by
  induction text using quotedTail.induct with
  | case1 =>
    rw [quotedTail]
    refine ⟨fun closed => absurd closed Bool.false_ne_true, fun _ => ⟨.nil, ?_⟩⟩
    intro byte next
    cases next
  | case2 rest ih =>
    rw [quotedTail]
    refine ⟨fun closed => ?_, fun broken => ?_⟩
    · obtain ⟨body, inside, tail, next⟩ := ih.1 closed
      exact ⟨_, .doubled inside, by rw [tail]; rfl, next⟩
    · obtain ⟨inside, next⟩ := ih.2 broken
      exact ⟨.doubled inside, next⟩
  | case3 rest not_doubled =>
    have closes : quotedTail (0x22 :: rest) = ([0x22], true) := by
      rw [quotedTail]
      exact not_doubled
    rw [closes]
    refine ⟨fun _ => ⟨[], .nil, rfl, ?_⟩, fun broken => absurd broken.symm Bool.false_ne_true⟩
    -- A second quote would have been taken as doubling the first.
    intro next
    cases rest with
    | nil => simp at next
    | cons byte more =>
      have quote : byte = 0x22 := by simpa using next
      exact not_doubled more (by rw [quote])
  | case4 rest not_quote =>
    have breaks : quotedTail (0x0a :: rest) = ([], false) := by simp [quotedTail]
    rw [breaks]
    refine ⟨fun closed => absurd closed Bool.false_ne_true, fun _ => ⟨.nil, ?_⟩⟩
    intro byte next
    simpa using next.symm
  | case5 byte rest not_doubled not_quote not_newline ih =>
    have other : byte ≠ 0x22 := not_quote
    have goes_on : quotedTail (byte :: rest)
        = (byte :: (quotedTail rest).1, (quotedTail rest).2) := by
      simp [quotedTail, not_newline]
    rw [goes_on]
    refine ⟨fun closed => ?_, fun broken => ?_⟩
    · obtain ⟨body, inside, tail, next⟩ := ih.1 closed
      exact ⟨_, .byte other not_newline inside, by rw [tail]; rfl, next⟩
    · obtain ⟨inside, next⟩ := ih.2 broken
      exact ⟨.byte other not_newline inside, next⟩

end Bytes

/-! ## The language of each kind -/

namespace TokenKind

/-- The text is a reserved word of this kind, and no further name character follows. -/
def IsReserved (kind : TokenKind) (text behind : Bytes) : Prop :=
  (text, kind) ∈ reservedWords ∧ Bytes.IsWord text ∧ ¬Bytes.StartsPart behind

/-- The bytes that always start a piece of another class: blanks, newline, the signs of one byte,
and those that open comments and text literals. -/
def knownLeads : List UInt8 :=
  [0x20, 0x09, 0x0d, 0x0a, 0x23, 0x22, 0x28, 0x29, 0x7b, 0x7d, 0x3b, 0x2b, 0x2d, 0x2a, 0x2f, 0x25,
    0x5e, 0x21, 0x3d, 0x3c, 0x3e]

/-- What is no token of the language. -/
inductive IsFlawed (behind : Bytes) : Bytes → Prop where
  /-- A text literal that is not closed on its line. -/
  | unterminated {body : Bytes} (inside : Bytes.IsQuotedBody body)
      (ends : ∀ byte, behind.head? = some byte → byte = 0x0a) : IsFlawed behind (0x22 :: body)
  /-- A number literal that runs on into name characters or points, up to the last of them. -/
  | malformed {front tail : Bytes} (number : Bytes.IsNumeral front) (runs_on : tail ≠ [])
      (no_part : ¬Bytes.StartsPart behind) (no_point : behind.head? ≠ some 0x2e) :
      IsFlawed behind (front ++ tail)
  /-- A character that starts no token, with all continuation bytes behind it. -/
  | stray {lead : UInt8} {trail : Bytes} (no_part : ¬Bytes.StartsPart (lead :: trail ++ behind))
      (unknown : lead ∉ knownLeads) (single : lead = 0x26 ∨ lead = 0x7c → behind.head? ≠ some lead)
      (trails : ∀ byte ∈ trail, Bytes.isTrail byte = true) (low : lead < 0x80 → trail = [])
      (high : 0x80 ≤ lead → ∀ byte, behind.head? = some byte → Bytes.isTrail byte = false) :
      IsFlawed behind (lead :: trail)

/-- The texts of the tokens of a kind, before a text that may follow them. -/
def Language : TokenKind → Bytes → Bytes → Prop
  | endOfInput, token, behind => token = [] ∧ behind = []
  | newline, token, _ => token = [0x0a]
  | illegal, token, behind => IsFlawed behind token
  | name, token, behind =>
    Bytes.IsWord token ∧ token ∉ reservedWords.map Prod.fst ∧ ¬Bytes.StartsPart behind
  | number, token, behind =>
    Bytes.IsNumeral token ∧ ¬Bytes.StartsPart behind ∧ behind.head? ≠ some 0x2e
  | text, token, behind => Bytes.IsQuoted token ∧ behind.head? ≠ some 0x22
  | assign, token, behind => token = [0x3d] ∧ behind.head? ≠ some 0x3d
  | less, token, behind => token = [0x3c] ∧ behind.head? ≠ some 0x3d
  | greater, token, behind => token = [0x3e] ∧ behind.head? ≠ some 0x3d
  | slash, token, behind => token = [0x2f] ∧ behind.head? ≠ some 0x2f
  | bang, token, behind =>
    (token = [0x21] ∧ behind.head? ≠ some 0x3d) ∨ bang.IsReserved token behind
  | both, token, behind => token = [0x26, 0x26] ∨ both.IsReserved token behind
  | either, token, behind => token = [0x7c, 0x7c] ∨ either.IsReserved token behind
  | notEqual, token, _ => token = [0x21, 0x3d]
  | equal, token, _ => token = [0x3d, 0x3d]
  | lessEqual, token, _ => token = [0x3c, 0x3d]
  | greaterEqual, token, _ => token = [0x3e, 0x3d]
  | plus, token, _ => token = [0x2b]
  | minus, token, _ => token = [0x2d]
  | star, token, _ => token = [0x2a]
  | percent, token, _ => token = [0x25]
  | caret, token, _ => token = [0x5e]
  | leftParen, token, _ => token = [0x28]
  | rightParen, token, _ => token = [0x29]
  | leftBrace, token, _ => token = [0x7b]
  | rightBrace, token, _ => token = [0x7d]
  | semicolon, token, _ => token = [0x3b]
  | ifWord, token, behind => ifWord.IsReserved token behind
  | elseifWord, token, behind => elseifWord.IsReserved token behind
  | elseWord, token, behind => elseWord.IsReserved token behind
  | whileWord, token, behind => whileWord.IsReserved token behind
  | consoleWord, token, behind => consoleWord.IsReserved token behind
  | trueWord, token, behind => trueWord.IsReserved token behind
  | falseWord, token, behind => falseWord.IsReserved token behind
  | nilWord, token, behind => nilWord.IsReserved token behind

/-- Whatever is spelled like a word is a name exactly if it is not reserved. -/
theorem Language.eq_name_iff {kind : TokenKind} {token behind : Bytes}
    (spelled : kind.Language token behind) (is_word : Bytes.IsWord token) :
    kind = name ↔ token ∉ reservedWords.map Prod.fst := by
  have reserved (is : kind.IsReserved token behind) (other : kind ≠ name) :
      kind = name ↔ token ∉ reservedWords.map Prod.fst :=
    iff_of_false other fun absent => absent (List.mem_map_of_mem (f := Prod.fst) is.1)
  -- No other class of tokens starts with a byte that a word starts with.
  have other {byte : UInt8} {more : Bytes} (same : token = byte :: more)
      (plain : Bytes.isPlainLetter byte = false) (low : ¬0x80 ≤ byte) :
      kind = name ↔ token ∉ reservedWords.map Prod.fst := by
    obtain ⟨lead, rest, parts, starts⟩ := is_word.lead
    obtain ⟨rfl, -⟩ := List.cons.inj (same.symm.trans parts)
    rcases starts with letter | high
    · exact absurd letter (by simp [plain])
    · exact absurd high low
  cases kind
  case name => exact iff_of_true rfl spelled.2.1
  case illegal =>
    rcases spelled with ⟨inside, -⟩ | ⟨number, -⟩ | ⟨no_part, -⟩
    · exact other rfl (by decide) (by decide)
    · obtain ⟨byte, more, same, not_letter, low⟩ := number.lead
      exact other (by rw [same]; rfl) not_letter low
    · exact absurd (is_word.startsPart_append behind) no_part
  case number =>
    obtain ⟨byte, more, same, not_letter, low⟩ := spelled.1.lead
    exact other same not_letter low
  case endOfInput =>
    obtain ⟨lead, rest, parts, -⟩ := is_word.lead
    exact absurd (spelled.1.symm.trans parts) (List.cons_ne_nil lead rest).symm
  case text =>
    obtain ⟨⟨body, -, same⟩, -⟩ := spelled
    exact other same (by decide) (by decide)
  case assign | less | greater | slash => exact other spelled.1 (by decide) (by decide)
  case bang =>
    rcases spelled with ⟨sign, -⟩ | word
    · exact other sign (by decide) (by decide)
    · exact reserved word (by decide)
  case both | either =>
    rcases spelled with sign | word
    · exact other sign (by decide) (by decide)
    · exact reserved word (by decide)
  case ifWord | elseifWord | elseWord | whileWord | consoleWord | trueWord | falseWord | nilWord =>
    exact reserved spelled (by decide)
  all_goals exact other spelled (by decide) (by decide)

/-- A reserved word is in the language of its kind. -/
theorem IsReserved.language {kind : TokenKind} {token behind : Bytes}
    (reserved : kind.IsReserved token behind) : kind.Language token behind := by
  have member := List.mem_map_of_mem (f := Prod.snd) reserved.1
  have kinds : reservedWords.map Prod.snd = [ifWord, elseifWord, elseWord, whileWord, consoleWord,
    trueWord, falseWord, nilWord] ++ [both, either, bang] := rfl
  rw [kinds, List.mem_append] at member
  simp only [List.mem_cons, List.not_mem_nil, or_false] at member
  rcases member with word | operator
  · rcases word with rfl | rfl | rfl | rfl | rfl | rfl | rfl | rfl
    all_goals exact reserved
  · -- These kinds are those of operators, which a sign spells as well.
    rcases operator with rfl | rfl | rfl
    all_goals exact .inr reserved

/-- A word is a name exactly if it is not reserved; otherwise it has its reserved kind. -/
theorem language_ofWord {word behind : Bytes} (is_word : Bytes.IsWord word)
    (ends : ¬Bytes.StartsPart behind) : (ofWord word).Language word behind := by
  rw [ofWord]
  cases found : reservedWords.lookup word with
  | none =>
    refine ⟨is_word, ?_, ends⟩
    intro member
    obtain ⟨entry, inside, same⟩ := List.mem_map.1 member
    have different := List.lookup_eq_none_iff.1 found entry inside
    rw [same] at different
    simp at different
  | some kind =>
    obtain ⟨before, behind, parts, -⟩ := List.lookup_eq_some_iff.1 found
    have member : (word, kind) ∈ reservedWords := by
      rw [parts]
      exact List.mem_append_right before List.mem_cons_self
    exact IsReserved.language ⟨member, is_word, ends⟩

/-- A sign of two bytes is in the language of its kind, whatever follows. -/
theorem language_ofPair {lead next : UInt8} {kind : TokenKind}
    (spelled : ofPair? lead next = some kind) (behind : Bytes) :
    kind.Language [lead, next] behind := by
  unfold ofPair? at spelled
  split at spelled
  all_goals cases spelled
  all_goals simp [Language]

/-- A sign of one byte is in the language of its kind if the next byte neither makes a longer sign
of it nor opens a comment. -/
theorem language_ofByte {lead : UInt8} {kind : TokenKind} {behind : Bytes}
    (spelled : ofByte? lead = some kind) (alone : behind.head?.bind (ofPair? lead) = none)
    (no_comment : ¬(lead = 0x2f ∧ behind.head? = some 0x2f)) : kind.Language [lead] behind := by
  have no_equal (paired : (ofPair? lead 0x3d).isSome = true) : behind.head? ≠ some 0x3d := by
    intro next
    rw [next, Option.bind_some] at alone
    rw [alone] at paired
    exact Bool.false_ne_true paired
  unfold ofByte? at spelled
  split at spelled
  all_goals cases spelled
  all_goals simp_all [Language, ofPair?]

end TokenKind

/-! ## The piece at the front -/

namespace Piece

/-- A text literal, closed or not, is in the language of its kind. -/
theorem language_ofQuoted {rest behind : Bytes} {kind : TokenKind}
    (found : (ofQuoted rest).kind? = some kind)
    (whole : (ofQuoted rest).text ++ behind = 0x22 :: rest) :
    kind.Language (ofQuoted rest).text behind := by
  obtain ⟨closed_spec, broken_spec⟩ := Bytes.quotedTail_spec rest
  have text : (ofQuoted rest).text = 0x22 :: (Bytes.quotedTail rest).1 := rfl
  rw [text, List.cons_append, List.cons.injEq] at whole
  have behind_eq := Bytes.drop_length_of_append whole.2
  rw [behind_eq] at closed_spec broken_spec
  cases closed : (Bytes.quotedTail rest).2 with
  | true =>
    have is_text : kind = .text := by
      simpa [ofQuoted, kind?, closed] using found.symm
    obtain ⟨body, inside, tail, next⟩ := closed_spec closed
    rw [is_text, text, tail]
    exact ⟨⟨body, inside, rfl⟩, next⟩
  | false =>
    have is_illegal : kind = .illegal := by
      simpa [ofQuoted, kind?, closed] using found.symm
    obtain ⟨inside, next⟩ := broken_spec closed
    rw [is_illegal, text]
    exact .unterminated inside next

/-- A number literal, malformed or not, is in the language of its kind. -/
theorem language_ofNumeral {lead : UInt8} {rest behind : Bytes} {kind : TokenKind}
    (starts : Bytes.isDigit lead = true ∨ (lead = 0x2e ∧ rest.head?.any Bytes.isDigit = true))
    (found : (ofNumeral (lead :: rest)).kind? = some kind)
    (whole : (ofNumeral (lead :: rest)).text ++ behind = lead :: rest) :
    kind.Language (ofNumeral (lead :: rest)).text behind := by
  have number := Bytes.isNumeral_numeral starts
  have behind_eq := Bytes.drop_length_of_append whole
  rw [ofNumeral] at found behind_eq ⊢
  by_cases runs_on :
      Bytes.runsOn ((lead :: rest).drop (Bytes.numeral (lead :: rest)).length) = true
  · simp only [if_pos runs_on] at found behind_eq ⊢
    have is_illegal : kind = .illegal := by simpa [kind?] using found.symm
    obtain ⟨no_part, no_point⟩ :=
      Bytes.numeralTail_spec ((lead :: rest).drop (Bytes.numeral (lead :: rest)).length)
    rw [List.drop_drop, ← List.length_append, behind_eq] at no_part no_point
    rw [is_illegal]
    exact .malformed number (Bytes.numeralTail_ne_nil runs_on) no_part no_point
  · simp only [if_neg runs_on] at found behind_eq ⊢
    have is_number : kind = .number := by simpa [kind?] using found.symm
    rw [Bool.not_eq_true] at runs_on
    obtain ⟨no_part, no_point⟩ := Bytes.not_startsPart_of_not_runsOn runs_on
    rw [behind_eq] at no_part no_point
    rw [is_number]
    exact ⟨number, no_part, no_point⟩

/-- A name or reserved word is in the language of its kind. -/
theorem language_ofName {source behind : Bytes} {kind : TokenKind}
    (starts : Bytes.startsName source = true) (found : (ofName source).kind? = some kind)
    (whole : (ofName source).text ++ behind = source) :
    kind.Language (ofName source).text behind := by
  have is_word := Bytes.isWord_nameRun starts
  have ends := (Bytes.nameRun_spec source).2
  have behind_eq : source.drop (Bytes.nameRun source).length = behind :=
    Bytes.drop_length_of_append whole
  rw [behind_eq] at ends
  have same : kind = .ofWord (Bytes.nameRun source) := by
    simpa [ofName, kind?] using found.symm
  rw [same]
  exact TokenKind.language_ofWord is_word ends

/-- A byte that is no sign, and no class of pieces before that of the signs starts with, is
unknown. -/
theorem not_mem_knownLeads {lead : UInt8} (blank : Bytes.isSpacing lead = false)
    (hash : lead ≠ 0x23) (newline : lead ≠ 0x0a) (quote : lead ≠ 0x22)
    (no_sign : TokenKind.ofByte? lead = none) :
    lead ∉ TokenKind.knownLeads := by
  intro member
  simp only [TokenKind.knownLeads, List.mem_cons, List.not_mem_nil, or_false] at member
  rcases member with rfl | rfl | rfl | rfl | rfl | rfl | rfl | rfl | rfl | rfl | rfl | rfl | rfl
    | rfl | rfl | rfl | rfl | rfl | rfl | rfl | rfl
  all_goals simp_all [Bytes.isSpacing, TokenKind.ofByte?]

/-- A sign, or a character that starts no token, is in the language of its kind. -/
theorem language_ofSign {lead : UInt8} {rest behind : Bytes} {kind : TokenKind}
    (no_comment : ¬(lead = 0x2f ∧ rest.head? = some 0x2f))
    (unknown : TokenKind.ofByte? lead = none → lead ∉ TokenKind.knownLeads)
    (no_part : ¬Bytes.StartsPart (lead :: rest)) (found : (ofSign lead rest).kind? = some kind)
    (whole : (ofSign lead rest).text ++ behind = lead :: rest) :
    kind.Language (ofSign lead rest).text behind := by
  rw [ofSign] at found whole ⊢
  cases pair : rest.head?.bind (TokenKind.ofPair? lead) with
  | some sign =>
    simp only [pair] at found whole ⊢
    obtain ⟨next, first, spelled⟩ := Option.bind_eq_some_iff.1 pair
    obtain ⟨more, rfl⟩ := List.head?_eq_some_iff.1 first
    have same : kind = sign := by simpa [kind?] using found.symm
    rw [same]
    exact TokenKind.language_ofPair spelled behind
  | none =>
    simp only [pair] at found whole ⊢
    cases single : TokenKind.ofByte? lead with
    | some sign =>
      simp only [single] at found whole ⊢
      have behind_eq : behind = rest := by simpa using whole
      have same : kind = sign := by simpa [kind?] using found.symm
      rw [same, behind_eq]
      exact TokenKind.language_ofByte single pair no_comment
    | none =>
      simp only [single] at found whole ⊢
      have same : kind = .illegal := by simpa [kind?] using found.symm
      rw [same]
      rw [← whole] at no_part
      rw [List.cons_append, List.cons.injEq] at whole
      by_cases low : lead < 0x80
      · -- An ASCII character is flawed alone, so what follows it is the rest.
        rw [if_pos low] at whole no_part ⊢
        have behind_eq : behind = rest := whole.2
        refine .stray no_part (unknown single) ?_ (by simp) (fun _ => rfl) ?_
        · intro doubles next
          rw [← behind_eq, next, Option.bind_some] at pair
          rcases doubles with rfl | rfl
          · simp [TokenKind.ofPair?] at pair
          · simp [TokenKind.ofPair?] at pair
        · intro high
          exact absurd low (UInt8.not_lt.2 high)
      · rw [if_neg low] at whole no_part ⊢
        refine .stray no_part (unknown single) ?_ (Bytes.forall_mem_takeWhile rest)
          (fun low' => absurd low' low) ?_
        · intro doubles
          rcases doubles with rfl | rfl
          · exact absurd (by decide) low
          · exact absurd (by decide) low
        · intro _ byte next
          rw [← Bytes.drop_length_of_append whole.2, Bytes.drop_length_takeWhile] at next
          exact Bytes.head?_dropWhile_eq_some next

/-- The piece at the front of a text is in the language of its kind, if it makes a token. -/
theorem language_first {lead : UInt8} {rest behind : Bytes} {kind : TokenKind}
    (found : (first lead rest).kind? = some kind)
    (whole : (first lead rest).text ++ behind = lead :: rest) :
    kind.Language (first lead rest).text behind := by
  rw [first] at found whole ⊢
  by_cases blank : Bytes.isSpacing lead = true
  · simp [if_pos blank, kind?] at found
  rw [if_neg blank] at found whole ⊢
  by_cases comment : lead = 0x23 ∨ (lead = 0x2f ∧ rest.head? = some 0x2f)
  · simp [if_pos comment, kind?] at found
  rw [if_neg comment] at found whole ⊢
  by_cases newline : lead = 0x0a
  · rw [if_pos newline] at found ⊢
    have same : kind = .newline := by simpa [kind?] using found.symm
    rw [same, newline]
    rfl
  rw [if_neg newline] at found whole ⊢
  by_cases quote : lead = 0x22
  · rw [if_pos quote] at found whole ⊢
    rw [quote] at whole
    exact language_ofQuoted found whole
  rw [if_neg quote] at found whole ⊢
  by_cases numeral : Bytes.isDigit lead = true ∨ (lead = 0x2e ∧ rest.head?.any Bytes.isDigit = true)
  · rw [if_pos numeral] at found whole ⊢
    exact language_ofNumeral numeral found whole
  rw [if_neg numeral] at found whole ⊢
  by_cases letter : Bytes.startsName (lead :: rest) = true
  · rw [if_pos letter] at found whole ⊢
    exact language_ofName letter found whole
  rw [if_neg letter] at found whole ⊢
  rw [not_or] at comment numeral
  rw [Bool.not_eq_true] at blank
  refine language_ofSign comment.2 (not_mem_knownLeads blank comment.1 newline quote) ?_ found whole
  -- Neither a digit nor a letter stands at the front.
  rw [Bytes.startsPart_iff, Bytes.nameCharWidth, if_neg numeral.1]
  simpa [Bytes.startsName] using letter

/-- A piece that makes no token is a blank, or a comment up to a newline or to the end. -/
theorem gap_first {lead : UInt8} {rest behind : Bytes} (gap : (first lead rest).kind? = none)
    (whole : (first lead rest).text ++ behind = lead :: rest) :
    (Bytes.isSpacing lead = true ∧ (first lead rest).text = [lead]) ∨
      (([0x23] <+: (first lead rest).text ∨ [0x2f, 0x2f] <+: (first lead rest).text) ∧
        0x0a ∉ (first lead rest).text ∧ ∀ byte, behind.head? = some byte → byte = 0x0a) := by
  by_cases blank : Bytes.isSpacing lead = true
  · left
    refine ⟨blank, ?_⟩
    rw [first, if_pos blank]
  right
  by_cases comment : lead = 0x23 ∨ (lead = 0x2f ∧ rest.head? = some 0x2f)
  · have text : (first lead rest).text = lead :: rest.takeWhile (· ≠ 0x0a) := by
      rw [first, if_neg blank, if_pos comment]
    rw [text, List.cons_append, List.cons.injEq] at whole
    rw [text]
    refine ⟨?_, ?_, ?_⟩
    · rcases comment with rfl | ⟨rfl, second⟩
      · exact .inl (List.cons_prefix_cons.2 ⟨rfl, List.nil_prefix⟩)
      · obtain ⟨more, rfl⟩ := List.head?_eq_some_iff.1 second
        right
        rw [List.takeWhile_cons_of_pos (by decide)]
        exact List.cons_prefix_cons.2 ⟨rfl, List.cons_prefix_cons.2 ⟨rfl, List.nil_prefix⟩⟩
    · intro member
      rcases List.mem_cons.1 member with here | inside
      · rcases comment with rfl | ⟨rfl, -⟩
        · cases here
        · cases here
      · simpa using Bytes.forall_mem_takeWhile rest _ inside
    · intro byte next
      rw [← Bytes.drop_length_of_append whole.2, Bytes.drop_length_takeWhile] at next
      simpa using Bytes.head?_dropWhile_eq_some next
  · -- Every other class of pieces makes tokens.
    exfalso
    rw [first, if_neg blank, if_neg comment] at gap
    split at gap
    · simp [kind?] at gap
    split at gap
    · cases closed : (Bytes.quotedTail rest).2 <;> simp [ofQuoted, kind?, closed] at gap
    split at gap
    · rw [ofNumeral] at gap
      split at gap <;> simp [kind?] at gap
    split at gap
    · simp [ofName, kind?] at gap
    · rw [ofSign] at gap
      split at gap
      · simp [kind?] at gap
      · split at gap <;> simp [kind?] at gap

end Piece

end ConsoleScript
